import ArchDoc.Proofs.RecordForms
import ArchDoc.Proofs.WatchedTexts
import Mathlib.Data.List.Induction
import Mathlib.Tactic.SplitIfs

/-!
# Records of texts

The record of a text is the record of the value that the text spells, if the value is one: the order
in which members stand, the members that are no columns and how the text spells all of it make no
difference.

Main definition:

* `Denotes`: the texts that spell a value.

Results:

* `Json.member?_sortMembers`: of several members of a name, the last one is left in order.
* `IsRecord.cells?_canonical`, `Agree.cells?_eq`: what the cells of a record do not depend on.
* `Record.ofText?_eq_ok_iff`: the record of a text, from the value that it spells.
-/

namespace ArchDoc

/-! ## Members in order -/

namespace Json

theorem member?_cons (name : String) (m : String × Json) (members : List (String × Json)) :
    member? name (m :: members) = if m.1 = name then some m.2 else member? name members := by
  unfold member?
  split_ifs with h
  · rw [List.find?_cons_of_pos (by simpa using h), Option.map_some]
  · rw [List.find?_cons_of_neg (by simpa using h)]

theorem member?_insertMember (name other : String) (v : Json) (members : List (String × Json)) :
    member? name (insertMember other v members) =
      if other = name then some v else member? name members := by
  induction members with
  | nil => exact member?_cons name (other, v) []
  | cons m members ih =>
    obtain ⟨first, old⟩ := m
    unfold insertMember
    by_cases hless : other < first
    · rw [if_pos hless, member?_cons]
    · rw [if_neg hless]
      by_cases hsame : other = first
      · rw [if_pos hsame, member?_cons, member?_cons, ← hsame]
        split_ifs <;> rfl
      · rw [if_neg hsame, member?_cons, member?_cons, ih]
        split_ifs with hfirst hother
        · exact absurd (hother.trans hfirst.symm) hsame
        all_goals rfl

/-- Of several members of a name, the last one is left in order. -/
theorem member?_sortMembers (name : String) (members : List (String × Json)) :
    member? name (sortMembers members) = member? name members.reverse := by
  unfold sortMembers
  induction members using List.reverseRecOn with
  | nil => rfl
  | append_singleton members m ih =>
    rw [List.foldl_append, List.foldl_cons, List.foldl_nil, member?_insertMember, ih,
      List.reverse_append, List.reverse_singleton, List.singleton_append, member?_cons]

theorem canonicalMembers_eq_map (members : List (String × Json)) :
    canonicalMembers members = members.map fun m => (m.1, m.2.canonical) := by
  induction members with
  | nil => rfl
  | cons m members ih => rw [canonicalMembers, List.map_cons, ih]

theorem canonicalItems_eq_map (items : List Json) : canonicalItems items = items.map canonical := by
  induction items with
  | nil => rfl
  | cons v items ih => rw [canonicalItems, List.map_cons, ih]

theorem member?_map (f : Json → Json) (name : String) (members : List (String × Json)) :
    member? name (members.map fun m => (m.1, f m.2)) = (member? name members).map f := by
  unfold member?
  rw [List.find?_map, Option.map_map, Option.map_map]
  rfl

/-- The order of members with different names makes no difference. -/
theorem member?_perm {members members' : List (String × Json)} (h : members.Perm members')
    (hdistinct : (members.map Prod.fst).Nodup) (name : String) :
    member? name members = member? name members' := by
  by_cases hname : name ∈ members.map Prod.fst
  · obtain ⟨⟨_, v⟩, hm, rfl⟩ := List.mem_map.mp hname
    rw [member?_of_mem hdistinct hm,
      member?_of_mem ((h.map Prod.fst).nodup_iff.mp hdistinct) (h.mem_iff.mp hm)]
  · rw [member?_of_not_mem hname,
      member?_of_not_mem fun hmem => hname ((h.map Prod.fst).mem_iff.mpr hmem)]

theorem member?_filter {members : List (String × Json)} {p : String → Bool} {name : String}
    (h : p name = true) :
    member? name (members.filter fun m => p m.1) = member? name members := by
  induction members with
  | nil => rfl
  | cons m members ih =>
    rw [List.filter_cons, member?_cons]
    split_ifs with hp hname hname
    · rw [member?_cons, if_pos hname]
    · rw [member?_cons, if_neg hname, ih]
    · exact absurd (hname ▸ h) hp
    · exact ih

end Json

namespace RecordReader

variable {fields : List Field} {columns : List Column}

/-! ## What the cells depend on -/

/-- What a column holds has no members to put in order. -/
theorem canonical_of_accepts {scalar : Scalar} {v : Json} (h : scalar.accepts v = true) :
    v.canonical = v := by
  cases v with
  | arr _ | obj _ =>
    rw [accepts_of_isCompound rfl] at h
    exact nomatch h
  | null | bool _ | int _ | real _ | str _ => rfl

theorem member?_knownMembers {name : String} (hname : (field? fields name).isSome = true)
    (members : List (String × Json)) :
    Json.member? name (knownMembers fields members) = Json.member? name members :=
  Json.member?_filter (p := fun name => (field? fields name).isSome) hname

theorem isSome_field?_iff {name : String} :
    (field? fields name).isSome = true ↔ name ∈ fields.map (·.name) := by
  unfold field?
  rw [List.find?_isSome]
  simp

theorem isSome_field?_of_mem (hnames : columns.map (·.name) = fields.map (·.name))
    {column : Column} (h : column ∈ columns) : (field? fields column.name).isSome = true :=
  isSome_field?_iff.mpr (hnames ▸ List.mem_map_of_mem h)

/-- The member that is a column stands once, so it does not matter from which end it is sought, and
it has no members to put in order. -/
theorem MembersFit.member?_sortMembers {members : List (String × Json)}
    (h : MembersFit fields members) {name : String} (hname : (field? fields name).isSome = true) :
    Json.member? name (Json.sortMembers (Json.canonicalMembers members)) =
      Json.member? name members := by
  have hreverse : Json.member? name members.reverse = Json.member? name members := by
    rw [← member?_knownMembers hname, ← member?_knownMembers hname members]
    refine Json.member?_perm ?_ (membersFit_reverse.mpr h).distinct name
    exact (List.reverse_perm members).filter _
  rw [Json.member?_sortMembers, Json.canonicalMembers_eq_map, ← List.map_reverse,
    Json.member?_map, hreverse]
  cases hmember : Json.member? name members with
  | none => rfl
  | some v =>
    obtain ⟨field, hfield⟩ := Option.isSome_iff_exists.mp hname
    obtain ⟨m, hm, rfl⟩ := Option.map_eq_some_iff.mp hmember
    obtain rfl : m.1 = name := by simpa using List.find?_some hm
    rw [Option.map_some,
      canonical_of_accepts (h.fit m (List.mem_of_find?_eq_some hm) field hfield)]

theorem ItemsFit.canonicalItems_eq {items : List Json} (hlength : items.length ≤ fields.length)
    (h : ItemsFit fields items) : Json.canonicalItems items = items := by
  rw [Json.canonicalItems_eq_map]
  refine (List.map_congr_left fun v hv => ?_).trans (List.map_id items)
  obtain ⟨i, hi, rfl⟩ := List.getElem_of_mem hv
  have hfield := List.getElem?_eq_getElem (Nat.lt_of_lt_of_le hi hlength)
  exact canonical_of_accepts (h i _ _ hfield (List.getElem?_eq_getElem hi))

/-- The order of members makes no difference. -/
theorem IsRecord.cells?_canonical (hnames : columns.map (·.name) = fields.map (·.name)) {v : Json}
    (h : IsRecord fields v) : cells? columns v.canonical = cells? columns v := by
  cases h with
  | array hlength hitems => rw [Json.canonical, hitems.canonicalItems_eq hlength]
  | object hmembers =>
    exact congrArg some (List.map_congr_left fun column hcolumn =>
      hmembers.member?_sortMembers (isSome_field?_of_mem hnames hcolumn))

/-- Members that are no columns make no difference. -/
theorem Agree.cells?_eq (hnames : columns.map (·.name) = fields.map (·.name)) {v v' : Json}
    (h : Agree fields v v') : cells? columns v = cells? columns v' := by
  cases h with
  | same => rfl
  | object hmembers =>
    refine congrArg some (List.map_congr_left fun column hcolumn => ?_)
    have hname := isSome_field?_of_mem hnames hcolumn
    rw [← member?_knownMembers hname, hmembers, member?_knownMembers hname]

theorem MembersFit.congr {members members' : List (String × Json)}
    (hmembers : knownMembers fields members = knownMembers fields members')
    (h : MembersFit fields members) : MembersFit fields members' where
  fit m hm field hfield := by
    have hknown := mem_knownMembers.mpr ⟨hm, Option.isSome_iff_exists.mpr ⟨field, hfield⟩⟩
    rw [← hmembers] at hknown
    exact h.fit m (mem_knownMembers.mp hknown).1 field hfield
  distinct := hmembers ▸ h.distinct

theorem Agree.isRecord_iff {v v' : Json} (h : Agree fields v v') :
    IsRecord fields v ↔ IsRecord fields v' := by
  cases h with
  | same => rfl
  | object hmembers =>
    constructor
    · rintro (_ | ⟨hfit⟩)
      exact .object (hfit.congr hmembers)
    · rintro (_ | ⟨hfit⟩)
      exact .object (hfit.congr hmembers.symm)

/-! ## Records of texts -/

/-- A text spells a value, in full or with the members skipped that are no columns. What is skipped
only has to follow the grammar: it may hold numbers beyond all bounds and halves of surrogate pairs,
which are in no value. -/
def Denotes (fields : List Field) (text : String) (v : Json) : Prop :=
  Json.parse text = .ok v ∨ skim fields text = .ok v

theorem Denotes.exists_skim {text : String} {v : Json} (h : Denotes fields text v) :
    ∃ v', skim fields text = .ok v' ∧ Agree fields v v' := by
  rcases h with hparse | hskim
  · exact skim_of_parse hparse
  · exact ⟨v, hskim, .same⟩

end RecordReader

namespace Record

open RecordReader

/-- **Main theorem.** A record is read from a text exactly when the value that the text spells is a
record, and it is the record of this value. -/
theorem ofText?_eq_ok_iff {α : Type} [Record α] {fields : List Field} (hfields : fields ≠ [])
    (hnames : (columns α).map (·.name) = fields.map (·.name)) {text : String} {v : Json}
    (hdenotes : Denotes fields text v) {a : α} :
    ofText? fields text = .ok a ↔ IsRecord fields v ∧ ofJson? v = some a := by
  obtain ⟨v', hskim, hagree⟩ := hdenotes.exists_skim
  obtain ⟨hread, hrefuse⟩ := read_of_skim hfields hskim
  rw [hagree.isRecord_iff]
  by_cases hv : IsRecord fields v'
  · have hcells : (ofJson? v'.canonical : Option α) = ofJson? v := by
      rw [ofJson?, ofJson?, hv.cells?_canonical hnames, hagree.cells?_eq hnames]
    unfold ofText?
    rw [hread hv]
    simp only [bind, Except.bind, pure, Except.pure, hcells]
    cases (ofJson? v : Option α) <;> simp [hv]
  · obtain ⟨fault, hfault⟩ := hrefuse hv
    have hrefused : (ofText? fields text : Except Fault α) = .error fault := by
      unfold ofText?
      rw [hfault]
      rfl
    rw [hrefused]
    exact iff_of_false (by simp) fun h => hv h.1

end Record

end ArchDoc
