import ArchDoc.Proofs.FactTables
import ArchDoc.Snapshot
import Mathlib.Algebra.GroupWithZero.Nat
import Mathlib.Data.List.Induction
import Mathlib.Data.String.Basic
import Mathlib.Tactic.SplitIfs

/-!
# What a snapshot says

Members of a snapshot are read one after the other, with the tables, the counters and the unknown
names as the state. Since no two members share a name, what is read into one table is never added
to again, and the state after any members is an account of exactly these members. Reading stops at
the first member that should be a table and is no array.

Main definitions:

* `Json.Ascending`: an object with its members in order.
* `Misshapen`: a member that should be a table and is no array.
* `Account`: what facts and a report say about members.

Results:

* `Json.ascending_canonical`: values are brought into order before they are read.
* `Account.readMember`: the account of one more member.
* `foldlM_readMember`: the account of all members.
* `ofJson_accounts`: a value is read, or the first thing that is wrong with it is reported.
-/

namespace ArchDoc

open ArchDoc.Fact

/-! ## Members in order -/

namespace Json

/-- The members of an object are in ascending order of their names, so none occurs twice. -/
def Ascending : Json → Prop
  | obj members => (members.map Prod.fst).Pairwise (· < ·)
  | null | bool _ | int _ | real _ | str _ | arr _ => True

theorem mem_map_insertMember {name n : String} {value : Json} {members : List (String × Json)} :
    n ∈ (insertMember name value members).map Prod.fst →
      n = name ∨ n ∈ members.map Prod.fst := by
  induction members with
  | nil => simp [insertMember]
  | cons m rest ih =>
    obtain ⟨other, old⟩ := m
    unfold insertMember
    split_ifs with hless hsame
    · simp
    · subst hsame
      simp
    · simp only [List.map_cons, List.mem_cons]
      rintro (hother | hrest)
      · exact Or.inr (Or.inl hother)
      · exact (ih hrest).imp_right Or.inr

theorem pairwise_insertMember (name : String) (value : Json) {members : List (String × Json)}
    (h : (members.map Prod.fst).Pairwise (· < ·)) :
    ((insertMember name value members).map Prod.fst).Pairwise (· < ·) := by
  induction members with
  | nil => simp [insertMember]
  | cons m rest ih =>
    obtain ⟨other, old⟩ := m
    rw [List.map_cons, List.pairwise_cons] at h
    obtain ⟨hother, hrest⟩ := h
    unfold insertMember
    split_ifs with hless hsame
    · simp only [List.map_cons, List.pairwise_cons, List.mem_cons]
      refine ⟨?_, hother, hrest⟩
      rintro n (rfl | hn)
      · exact hless
      · exact hless.trans (hother n hn)
    · subst hsame
      exact List.pairwise_cons.mpr ⟨hother, hrest⟩
    · refine List.pairwise_cons.mpr ⟨?_, ih hrest⟩
      intro n hn
      rcases mem_map_insertMember hn with rfl | hold
      · exact lt_of_le_of_ne (not_lt.mp hless) (Ne.symm hsame)
      · exact hother n hold

theorem pairwise_sortMembers (members : List (String × Json)) :
    ((sortMembers members).map Prod.fst).Pairwise (· < ·) := by
  unfold sortMembers
  induction members using List.reverseRecOn with
  | nil => exact List.Pairwise.nil
  | append_singleton members m ih =>
    rw [List.foldl_append]
    exact pairwise_insertMember m.1 m.2 ih

/-- Values are brought into order before they are read. -/
theorem ascending_canonical (v : Json) : v.canonical.Ascending := by
  cases v with
  | obj members =>
    unfold canonical
    exact pairwise_sortMembers _
  | null | bool _ | int _ | real _ | str _ | arr _ =>
    unfold canonical
    trivial

end Json

namespace Snapshot

/-! ## Members -/

/-- A member that has the name of a kind and is no array. -/
def Misshapen (member : String × Json) : Prop :=
  member.1 ∈ Kind.names ∧ member.2.arr? = none

instance (member : String × Json) : Decidable (Misshapen member) :=
  inferInstanceAs (Decidable (_ ∧ _))

/-- The rows that a member lists, readable or not, if it is a table. -/
def listed (member : String × Json) : Nat :=
  if member.1 ∈ Kind.names then (member.2.arr?.getD []).length else 0

/-- The rows of a member that cannot be read, if it is a table. -/
def unreadable (member : String × Json) : Nat :=
  match Kind.ofName? member.1 with
  | none => 0
  | some kind =>
    (member.2.arr?.getD []).countP fun v => (Record.ofJson? v : Option kind.Row).isNone

/-- Facts and a report account for members: the table of each kind that is named holds the rows
that can be read, in order, and there is no other table; every row that is listed is counted as
loaded or as skipped; and the names that are no kinds are there in order. -/
structure Account (members : List (String × Json)) (facts : Facts) (report : Report) : Prop where
  present : ∀ (kind : Kind) (items : List Json), (kind.name, .arr items) ∈ members →
    facts.table kind = some (items.filterMap Record.ofJson?)
  absent : ∀ kind : Kind, kind.name ∉ members.map Prod.fst → facts.table kind = none
  loaded : report.rowsLoaded = facts.totalRows
  skipped : report.rowsSkipped = (members.map unreadable).sum
  listed : report.rowsLoaded + report.rowsSkipped = (members.map listed).sum
  unknown : report.unknownTables = (members.map Prod.fst).filter (· ∉ Kind.names)

theorem account_nil : Account [] .empty {} where
  present _ _ h := absurd h List.not_mem_nil
  absent _ _ := rfl
  loaded := rfl
  skipped := rfl
  listed := rfl
  unknown := rfl

/-- What cannot be read is what is missing from the rows. -/
theorem length_sub_length_readRows (kind : Kind) (items : List Json) :
    items.length - (readRows kind items).length =
      items.countP fun v => (Record.ofJson? v : Option kind.Row).isNone := by
  have hnone : (fun v => decide ¬(Record.ofJson? v : Option kind.Row).isSome = true) =
      fun v => (Record.ofJson? v : Option kind.Row).isNone := by
    funext v
    cases (Record.ofJson? v : Option kind.Row) <;> rfl
  rw [readRows, List.length_filterMap_eq_countP,
    List.length_eq_countP_add_countP fun v => (Record.ofJson? v : Option kind.Row).isSome,
    Nat.add_sub_cancel_left, hnone]

variable {members : List (String × Json)} {facts : Facts} {report : Report}

/-! ## One more member -/

theorem readMember_misshapen {m : String × Json} (h : Misshapen m) (state : Facts × Report) :
    readMember state m = .error (.tableNotArray m.1 m.2.typeName) := by
  obtain ⟨hname, hitems⟩ := h
  obtain ⟨kind, hkind⟩ := Kind.mem_names_iff.mp hname
  unfold readMember
  simp only [Kind.ofName?_eq_some_iff.mpr hkind, hitems]

/-- A member of another name is noted. -/
theorem Account.readMember_unknown (h : Account members facts report) {name : String}
    (hname : name ∉ Kind.names) (value : Json) :
    ∃ report', readMember (facts, report) (name, value) = .ok (facts, report') ∧
      Account (members ++ [(name, value)]) facts report' := by
  have hkind : Kind.ofName? name = none := Kind.ofName?_eq_none_iff.mpr hname
  have hne : ∀ kind : Kind, kind.name ≠ name := fun kind heq =>
    hname (Kind.mem_names_iff.mpr ⟨kind, heq.symm⟩)
  refine ⟨{ report with unknownTables := report.unknownTables ++ [name] }, ?_, ?_⟩
  · unfold readMember
    simp only [hkind]
  · refine ⟨?_, ?_, h.loaded, ?_, ?_, ?_⟩
    · intro kind items hmem
      rcases List.mem_append.mp hmem with hold | hnew
      · exact h.present kind items hold
      · exact absurd (Prod.mk.inj (List.mem_singleton.mp hnew)).1 (hne kind)
    · intro kind hmem
      refine h.absent kind fun hold => hmem ?_
      rw [List.map_append]
      exact List.mem_append_left _ hold
    · simp [h.skipped, unreadable, hkind]
    · simp [h.listed, Snapshot.listed, hname]
    · simp [h.unknown, hname]

/-- The rows of a member that is a table become a table. -/
theorem Account.readMember_table (h : Account members facts report) {kind : Kind}
    (hnew : kind.name ∉ members.map Prod.fst) (items : List Json) :
    ∃ report', readMember (facts, report) (kind.name, .arr items) =
        .ok (facts.extend kind (readRows kind items), report') ∧
      Account (members ++ [(kind.name, .arr items)]) (facts.extend kind (readRows kind items))
        report' := by
  have hempty : facts.rows kind = [] := Facts.rows_of_absent (h.absent kind hnew)
  have hlength : (readRows kind items).length ≤ items.length := List.length_filterMap_le _ _
  have hmissing := length_sub_length_readRows kind items
  have hnamed : kind.name ∈ Kind.names := Kind.mem_names_iff.mpr ⟨kind, rfl⟩
  refine ⟨{ report with
    rowsLoaded := report.rowsLoaded + (readRows kind items).length
    rowsSkipped := report.rowsSkipped + (items.length - (readRows kind items).length) }, ?_, ?_⟩
  · unfold readMember
    simp only [kind.ofName?_name, Json.arr?]
  · refine ⟨?_, ?_, ?_, ?_, ?_, ?_⟩
    · intro other others hmem
      rcases List.mem_append.mp hmem with hold | hlast
      · have hne : kind ≠ other := by
          rintro rfl
          exact hnew (List.mem_map_of_mem hold)
        rw [Facts.table_extend_of_ne hne]
        exact h.present other others hold
      · obtain ⟨hname, hitems⟩ := Prod.mk.inj (List.mem_singleton.mp hlast)
        obtain rfl := Kind.name_injective hname
        obtain rfl := Json.arr.inj hitems
        rw [Facts.table_extend_self, hempty, List.nil_append]
        rfl
    · intro other hmem
      rw [List.map_append, List.mem_append, not_or] at hmem
      have hne : kind ≠ other := by
        rintro rfl
        exact hmem.2 (List.mem_singleton.mpr rfl)
      rw [Facts.table_extend_of_ne hne]
      exact h.absent other hmem.1
    · rw [Facts.totalRows_extend, h.loaded]
    · simp [h.skipped, unreadable, kind.ofName?_name, Json.arr?, hmissing]
    · have hlisted := h.listed
      simp only [List.map_append, List.sum_append, List.map_cons, List.map_nil, List.sum_singleton,
        Snapshot.listed, hnamed, if_true, Json.arr?, Option.getD_some]
      omega
    · simp [h.unknown, hnamed]

/-- A member with a new name that is not misshapen is read and accounted for. -/
theorem Account.readMember (h : Account members facts report) {m : String × Json}
    (hnew : m.1 ∉ members.map Prod.fst) (hshape : ¬ Misshapen m) :
    ∃ facts' report', Snapshot.readMember (facts, report) m = .ok (facts', report') ∧
      Account (members ++ [m]) facts' report' := by
  obtain ⟨name, value⟩ := m
  by_cases hname : name ∈ Kind.names
  · obtain ⟨kind, rfl⟩ := Kind.mem_names_iff.mp hname
    cases value with
    | arr items => exact ⟨_, h.readMember_table hnew items⟩
    | null | bool _ | int _ | real _ | str _ | obj _ => exact absurd ⟨hname, rfl⟩ hshape
  · exact ⟨facts, h.readMember_unknown hname value⟩

/-! ## All members -/

/-- Members with new names, none of them misshapen, are all read and accounted for. -/
theorem foldlM_readMember (h : Account members facts report) {rest : List (String × Json)}
    (hnames : ((members ++ rest).map Prod.fst).Nodup) (hshapes : ∀ m ∈ rest, ¬ Misshapen m) :
    ∃ facts' report', rest.foldlM Snapshot.readMember (facts, report) = .ok (facts', report') ∧
      Account (members ++ rest) facts' report' := by
  induction rest generalizing members facts report with
  | nil =>
    rw [List.append_nil]
    exact ⟨facts, report, rfl, h⟩
  | cons m rest ih =>
    have hnew : m.1 ∉ members.map Prod.fst := by
      rw [List.map_append, List.map_cons] at hnames
      intro hold
      exact (List.nodup_append.mp hnames).2.2 m.1 hold m.1 List.mem_cons_self rfl
    obtain ⟨facts₁, report₁, hread, haccount⟩ := h.readMember hnew (hshapes m List.mem_cons_self)
    rw [← List.singleton_append, ← List.append_assoc] at hnames ⊢
    obtain ⟨facts₂, report₂, hrest, haccount₂⟩ :=
      ih haccount hnames fun m hm => hshapes m (List.mem_cons_of_mem _ hm)
    refine ⟨facts₂, report₂, ?_, haccount₂⟩
    rw [List.singleton_append, List.foldlM_cons, hread]
    exact hrest

theorem ofJson_obj (members : List (String × Json)) :
    ofJson (.obj members) = members.foldlM Snapshot.readMember (Facts.empty, {}) :=
  rfl

/-- Of the misshapen members one is the first. -/
theorem exists_first_misshapen {m : String × Json} (hm : m ∈ members) (hmisshapen : Misshapen m) :
    ∃ before first after, members = before ++ first :: after ∧
      (∀ b ∈ before, ¬ Misshapen b) ∧ Misshapen first := by
  obtain ⟨first, hfirst⟩ : ∃ first, members.find? (fun m => decide (Misshapen m)) = some first :=
    Option.isSome_iff_exists.mp (List.find?_isSome.mpr ⟨m, hm, by simpa using hmisshapen⟩)
  obtain ⟨hshape, before, after, hsplit, hbefore⟩ := List.find?_eq_some_iff_append.mp hfirst
  exact ⟨before, first, after, hsplit, fun b hb => by simpa using hbefore b hb,
    of_decide_eq_true hshape⟩

/-- Of members in order, one that is not before another has no smaller name. -/
theorem le_of_not_mem_before {before after : List (String × Json)} {first m : String × Json}
    (hascending : ((before ++ first :: after).map Prod.fst).Pairwise (· < ·))
    (hm : m ∈ before ++ first :: after) (hbefore : m ∉ before) : first.1 ≤ m.1 := by
  rcases List.mem_append.mp hm with hearlier | hrest
  · exact absurd hearlier hbefore
  · rcases List.mem_cons.mp hrest with rfl | hlater
    · exact le_rfl
    · rw [List.map_append] at hascending
      have hbehind := (List.pairwise_append.mp hascending).2.1
      exact le_of_lt (List.rel_of_pairwise_cons hbehind (List.mem_map_of_mem hlater))

/-- Without a misshapen member an object is read. -/
theorem ofJson_of_shapely (hnames : (members.map Prod.fst).Nodup)
    (hshapes : ∀ m ∈ members, ¬ Misshapen m) :
    ∃ facts report, ofJson (.obj members) = .ok (facts, report) ∧ Account members facts report :=
  foldlM_readMember account_nil hnames hshapes

/-- The first misshapen member is the one that is reported. -/
theorem ofJson_of_misshapen {before after : List (String × Json)} {m : String × Json}
    (hnames : ((before ++ m :: after).map Prod.fst).Nodup)
    (hbefore : ∀ b ∈ before, ¬ Misshapen b) (hm : Misshapen m) :
    ofJson (.obj (before ++ m :: after)) = .error (.tableNotArray m.1 m.2.typeName) := by
  rw [List.map_append] at hnames
  obtain ⟨facts, report, hread, _⟩ := ofJson_of_shapely (List.nodup_append.mp hnames).1 hbefore
  rw [ofJson_obj] at hread
  rw [ofJson_obj, List.foldlM_append, hread]
  show (m :: after).foldlM readMember (facts, report) = _
  rw [List.foldlM_cons, readMember_misshapen hm]
  rfl

/-- **Main theorem.** A value whose members are in order is no snapshot if it is no object or a
member with the name of a kind is no array, and then its type is reported, or the first such member
in the order of names with its type. Every other value is read, its tables and counters account for
all of its members, and the unknown names are in order. -/
theorem ofJson_accounts (v : Json) (hascending : v.Ascending) :
    ((∀ members, v ≠ .obj members) → ofJson v = .error (.notAnObject v.typeName)) ∧
      ∀ members, v = .obj members →
        ((∃ m ∈ members, Misshapen m) → ∃ first ∈ members, Misshapen first ∧
          (∀ m ∈ members, Misshapen m → first.1 ≤ m.1) ∧
          ofJson v = .error (.tableNotArray first.1 first.2.typeName)) ∧
        ((∀ m ∈ members, ¬ Misshapen m) → ∃ facts report, ofJson v = .ok (facts, report) ∧
          Account members facts report ∧ report.unknownTables.Pairwise (· < ·)) := by
  constructor
  · intro hobject
    cases v with
    | obj members => exact absurd rfl (hobject members)
    | null | bool _ | int _ | real _ | str _ | arr _ => rfl
  · rintro members rfl
    have hpairs : (members.map Prod.fst).Pairwise (· < ·) := hascending
    constructor
    · rintro ⟨m, hm, hmisshapen⟩
      obtain ⟨before, first, after, rfl, hbefore, hfirst⟩ := exists_first_misshapen hm hmisshapen
      refine ⟨first, List.mem_append_right _ List.mem_cons_self, hfirst, ?_,
        ofJson_of_misshapen (hpairs.imp ne_of_lt) hbefore hfirst⟩
      intro other hother hmisshapen'
      exact le_of_not_mem_before hpairs hother fun hearlier =>
        hbefore other hearlier hmisshapen'
    · intro hshapes
      obtain ⟨facts, report, hread, haccount⟩ :=
        ofJson_of_shapely (hpairs.imp ne_of_lt) hshapes
      refine ⟨facts, report, hread, haccount, ?_⟩
      rw [haccount.unknown]
      exact List.Pairwise.filter _ hpairs

/-- A snapshot with members out of order, a name that is no kind, and rows that cannot be read. -/
def mixedSnapshot : Json :=
  .obj [("services", .null),
    ("server-configuration", .arr [.obj [("port", .int 70000)], .obj [("port", .int 8443)]]),
    ("data-assets", .arr [.null, .arr [.str "Order"],
      .obj [("simple_name", .str "Order"), ("asset_type", .str "Entity")]])]

theorem canonical_mixedSnapshot :
    mixedSnapshot.canonical = .obj
      [("data-assets", .arr [.null, .arr [.str "Order"],
          .obj [("asset_type", .str "Entity"), ("simple_name", .str "Order")]]),
        ("server-configuration", .arr [.obj [("port", .int 70000)], .obj [("port", .int 8443)]]),
        ("services", .null)] :=
  rfl

/-- Three rows are left out, and the others are read. -/
theorem ofJson_accounts_mixedSnapshot :
    mixedSnapshot.canonical.Ascending ∧
      ∃ facts report, ofJson mixedSnapshot.canonical = .ok (facts, report) ∧
        facts.table .serverConfiguration = some [{ port := 8443 }] ∧
        facts.table .dataAssets = some [{ simpleName := "Order", assetType := "Entity" }] ∧
        facts.table .methodCalls = none ∧ report.rowsSkipped = 3 ∧
        report.unknownTables = ["services"] := by
  have hascending : mixedSnapshot.canonical.Ascending := Json.ascending_canonical _
  obtain ⟨facts, report, hread, haccount, _⟩ :=
    ((ofJson_accounts mixedSnapshot.canonical hascending).2 _ canonical_mixedSnapshot).2
      (by decide +kernel)
  refine ⟨hascending, facts, report, hread, ?_, ?_, ?_, ?_, ?_⟩
  · exact (haccount.present .serverConfiguration _ (.tail _ (.head _))).trans (by decide +kernel)
  · exact (haccount.present .dataAssets _ (.head _)).trans (by decide +kernel)
  · exact haccount.absent .methodCalls (by decide +kernel)
  · exact haccount.skipped.trans (by decide +kernel)
  · exact haccount.unknown.trans (by decide +kernel)

end Snapshot

end ArchDoc
