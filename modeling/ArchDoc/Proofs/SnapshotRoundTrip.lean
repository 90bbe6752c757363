import ArchDoc.Proofs.RecordForms
import ArchDoc.Proofs.SnapshotReading

/-!
# Facts are read back from snapshots

A snapshot of facts has one member for each table that is present, an empty one included, and each
row in any of its forms. Reading it gives the facts back, with every row counted and nothing left
out, whatever forms were chosen and in whatever order the tables stand.

Main definitions:

* `Spells`: the members that facts may be written as.

Results:

* `spells_arrays`: all facts can be written.
* `ofJson_reads_back`: and are read back from everything that they may be written as.
-/

namespace ArchDoc.Snapshot

open ArchDoc.Fact

/-- The members that facts may be written as: for each table an array, which has a form of each row
in order, under the name of its kind, and nothing else. -/
structure Spells (facts : Facts) (members : List (String × Json)) : Prop where
  distinct : (members.map Prod.fst).Nodup
  tables : ∀ (kind : Kind) (rows : List kind.Row), facts.table kind = some rows →
    ∃ items, (kind.name, .arr items) ∈ members ∧ List.Forall₂ Record.Spells rows items
  only : ∀ m ∈ members, ∃ (kind : Kind) (rows : List kind.Row),
    m.1 = kind.name ∧ facts.table kind = some rows

/-! ## Writing -/

/-- The members of facts with every row as an array. -/
def arrays (facts : Facts) : List (String × Json) :=
  Kind.all.filterMap fun kind =>
    (facts.table kind).map fun rows => (kind.name, .arr (rows.map Record.toArray))

theorem mem_arrays_iff {facts : Facts} {m : String × Json} :
    m ∈ arrays facts ↔ ∃ (kind : Kind) (rows : List kind.Row), facts.table kind = some rows ∧
      m = (kind.name, .arr (rows.map Record.toArray)) := by
  unfold arrays
  rw [List.mem_filterMap]
  constructor
  · rintro ⟨kind, _, hmember⟩
    obtain ⟨rows, htable, rfl⟩ := Option.map_eq_some_iff.mp hmember
    exact ⟨kind, rows, htable, rfl⟩
  · rintro ⟨kind, rows, htable, rfl⟩
    exact ⟨kind, kind.mem_all, by rw [htable, Option.map_some]⟩

/-- The names of these members are names of kinds, in the order of kinds. -/
theorem map_fst_arrays_sublist (facts : Facts) :
    ((arrays facts).map Prod.fst).Sublist Kind.names := by
  unfold arrays Kind.names
  induction Kind.all with
  | nil => exact List.Sublist.refl []
  | cons kind kinds ih =>
    rw [List.filterMap_cons, List.map_cons]
    cases facts.table kind with
    | none => exact ih.cons _
    | some rows => exact ih.cons_cons _

theorem spells_arrays (facts : Facts) : Spells facts (arrays facts) where
  distinct := List.Nodup.sublist (map_fst_arrays_sublist facts) (by decide)
  tables kind rows htable := by
    refine ⟨_, mem_arrays_iff.mpr ⟨kind, rows, htable, rfl⟩, ?_⟩
    rw [List.forall₂_map_right_iff, List.forall₂_same]
    exact fun row _ => .array
  only m hm := by
    obtain ⟨kind, rows, htable, rfl⟩ := mem_arrays_iff.mp hm
    exact ⟨kind, rows, rfl, htable⟩

/-! ## Reading -/

/-- Rows are read from their forms, and none is left out. -/
theorem filterMap_ofJson?_of_spells {kind : Kind} {rows : List kind.Row} {items : List Json}
    (h : List.Forall₂ Record.Spells rows items) : items.filterMap Record.ofJson? = rows := by
  induction h with
  | nil => rfl
  | cons hrow _ ih => rw [List.filterMap_cons, Record.ofJson?_of_spells hrow, ih]

theorem unreadable_of_spells {kind : Kind} {rows : List kind.Row} {items : List Json}
    (h : List.Forall₂ Record.Spells rows items) : unreadable (kind.name, .arr items) = 0 := by
  unfold unreadable
  simp only [kind.ofName?_name, Json.arr?, Option.getD_some]
  rw [← length_sub_length_readRows, readRows, filterMap_ofJson?_of_spells h, h.length_eq,
    Nat.sub_self]

variable {facts : Facts} {members : List (String × Json)}

namespace Spells

/-- Every member is a table. -/
theorem table_of_mem (h : Spells facts members) {m : String × Json} (hm : m ∈ members) :
    ∃ (kind : Kind) (rows : List kind.Row) (items : List Json),
      m = (kind.name, .arr items) ∧ facts.table kind = some rows ∧
        List.Forall₂ Record.Spells rows items := by
  obtain ⟨kind, rows, hname, htable⟩ := h.only m hm
  obtain ⟨items, hmem, hforms⟩ := h.tables kind rows htable
  exact ⟨kind, rows, items, List.inj_on_of_nodup_map h.distinct hm hmem hname, htable, hforms⟩

theorem not_misshapen (h : Spells facts members) : ∀ m ∈ members, ¬ Misshapen m := by
  intro m hm hmisshapen
  obtain ⟨kind, rows, items, rfl, _, _⟩ := h.table_of_mem hm
  exact absurd hmisshapen.2 (Option.some_ne_none _)

/-- Facts that account for the members are the facts. -/
theorem facts_eq (h : Spells facts members) {other : Facts} {report : Report}
    (haccount : Account members other report) : other = facts := by
  ext1 kind
  cases htable : facts.table kind with
  | none =>
    refine haccount.absent kind fun hname => ?_
    obtain ⟨m, hm, hkind⟩ := List.mem_map.mp hname
    obtain ⟨kind', rows, hname', htable'⟩ := h.only m hm
    obtain rfl := Kind.name_injective (hkind.symm.trans hname')
    exact Option.some_ne_none rows (htable'.symm.trans htable)
  | some rows =>
    obtain ⟨items, hmem, hforms⟩ := h.tables kind rows htable
    rw [haccount.present kind items hmem, filterMap_ofJson?_of_spells hforms]

theorem unreadable_eq_zero (h : Spells facts members) : (members.map unreadable).sum = 0 := by
  rw [List.sum_eq_zero_iff_forall_eq_nat]
  intro n hn
  obtain ⟨m, hm, rfl⟩ := List.mem_map.mp hn
  obtain ⟨kind, rows, items, rfl, _, hforms⟩ := h.table_of_mem hm
  exact unreadable_of_spells hforms

theorem unknown_eq_nil (h : Spells facts members) :
    (members.map Prod.fst).filter (· ∉ Kind.names) = [] := by
  rw [List.filter_eq_nil_iff]
  intro name hname
  obtain ⟨m, hm, rfl⟩ := List.mem_map.mp hname
  obtain ⟨kind, rows, hkind, _⟩ := h.only m hm
  simpa using Kind.mem_names_iff.mpr ⟨kind, hkind⟩

end Spells

/-- **Main theorem.** All facts can be written as a snapshot, and from every snapshot that they may
be written as exactly these facts are read: all rows are counted as loaded, none as skipped, and no
name is unknown. -/
theorem ofJson_reads_back (facts : Facts) :
    (∃ members, Spells facts members) ∧ ∀ members, Spells facts members →
      ofJson (.obj members) =
        .ok (facts, { rowsLoaded := facts.totalRows, rowsSkipped := 0, unknownTables := [] }) := by
  refine ⟨⟨_, spells_arrays facts⟩, ?_⟩
  intro members h
  obtain ⟨other, ⟨loaded, skipped, unknown⟩, hread, haccount⟩ :=
    ofJson_of_shapely h.distinct h.not_misshapen
  obtain rfl := h.facts_eq haccount
  have hskipped : skipped = 0 := haccount.skipped.trans h.unreadable_eq_zero
  have hunknown : unknown = [] := haccount.unknown.trans h.unknown_eq_nil
  have hloaded : loaded = other.totalRows := haccount.loaded
  rw [hread, hloaded, hskipped, hunknown]

/-- Two servers, and a table without rows. -/
def twoServers : Facts :=
  (Facts.empty.extend .serverConfiguration
    [{ port := 8443, sslEnabled := true }, { port := 80, protocol := some "AJP" }]).extend
    .methodCalls []

/-- One server as an object with a member too many and most columns left out, the other one as an
array. -/
def twoServersMembers : List (String × Json) :=
  [("method-calls", .arr []),
    ("server-configuration", .arr
      [.obj [("zone", .str "dmz"), ("ssl_enabled", .bool true), ("source_path", .null),
          ("port", .int 8443)],
        .arr [.int 80, .bool false, .str "AJP", .null, .null]])]

theorem spells_twoServersMembers : Spells twoServers twoServersMembers where
  distinct := by decide
  tables kind rows htable := by
    cases kind with
    | methodCalls =>
      obtain rfl : [] = rows := Option.some.inj htable
      exact ⟨[], .head _, .nil⟩
    | serverConfiguration =>
      obtain rfl : [_, _] = rows := Option.some.inj htable
      refine ⟨_, .tail _ (.head _), .cons (.object (by decide) ?_) (.cons .array .nil)⟩
      simp [Record.columns, Record.toCells, Cell.ofText?, Json.ofOption]
    | _ => exact absurd htable.symm (Option.some_ne_none rows)
  only m hm := by
    rcases hm with _ | ⟨_, _ | ⟨_, ⟨⟩⟩⟩
    · exact ⟨.methodCalls, _, rfl, rfl⟩
    · exact ⟨.serverConfiguration, _, rfl, rfl⟩

theorem ofJson_reads_back_twoServers :
    Spells twoServers twoServersMembers ∧
      ofJson (.obj twoServersMembers) =
        .ok (twoServers, { rowsLoaded := 2, rowsSkipped := 0, unknownTables := [] }) :=
  ⟨spells_twoServersMembers, (ofJson_reads_back twoServers).2 _ spells_twoServersMembers⟩

end ArchDoc.Snapshot
