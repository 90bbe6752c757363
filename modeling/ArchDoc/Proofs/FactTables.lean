import ArchDoc.Facts
import Mathlib.Tactic.SplitIfs

/-!
# Tables after a change

Rows that are added to one table stand behind those that were there, and no other table changes.
Every kind is found by its name, so tables that are keyed by name never mix.

Main definitions:

* `Facts.Includes`: facts that have all rows of others.

Results:

* `Kind.ofName?_eq_some_iff`, `Kind.ofName?_eq_none_iff`: names and kinds determine each other.
* `Facts.rows_setTable_self`, `Facts.rows_setTable_of_ne`: the rows after one table was replaced.
* `Facts.table_extend_self`, `Facts.table_extend_of_ne`: the tables after rows were added.
* `Facts.totalRows_extend`: and their number of rows.
* `Facts.isArchitectural_iff`: when facts justify a document.
-/

namespace ArchDoc

open ArchDoc.Fact

/-! ## Names of kinds -/

namespace Fact.Kind

/-- The names of all kinds. -/
def names : List String :=
  all.map name

theorem ofName?_name (kind : Kind) : ofName? kind.name = some kind := by
  cases kind <;> decide

theorem name_injective : Function.Injective name := by
  intro kind other h
  have hkind := kind.ofName?_name
  rw [h, ofName?_name] at hkind
  exact (Option.some.inj hkind).symm

theorem ofName?_eq_some_iff {n : String} {kind : Kind} : ofName? n = some kind ↔ n = kind.name := by
  constructor
  · intro h
    unfold ofName? at h
    have hname := List.find?_some h
    exact (beq_iff_eq.mp hname).symm
  · rintro rfl
    exact kind.ofName?_name

theorem mem_names_iff {n : String} : n ∈ names ↔ ∃ kind : Kind, n = kind.name := by
  constructor
  · intro h
    obtain ⟨kind, _, rfl⟩ := List.mem_map.mp h
    exact ⟨kind, rfl⟩
  · rintro ⟨kind, rfl⟩
    exact List.mem_map_of_mem (mem_all kind)

theorem ofName?_eq_none_iff {n : String} : ofName? n = none ↔ n ∉ names := by
  rw [mem_names_iff, Option.eq_none_iff_forall_ne_some, not_exists]
  exact forall_congr' fun kind => not_congr ofName?_eq_some_iff

end Fact.Kind

namespace Facts

variable {facts : Facts} {kind other : Kind}

/-! ## Other rows -/

theorem rows_of_table {rows : List kind.Row} (h : facts.table kind = some rows) :
    facts.rows kind = rows := by
  rw [Facts.rows, h, Option.getD_some]

theorem rows_of_absent (h : facts.table kind = none) : facts.rows kind = [] := by
  rw [Facts.rows, h, Option.getD_none]

theorem table_setTable_self (facts : Facts) (kind : Kind) (rows : List kind.Row) :
    (facts.setTable kind rows).table kind = some rows := by
  simp [setTable]

theorem table_setTable_of_ne (h : kind ≠ other) (rows : List kind.Row) :
    (facts.setTable kind rows).table other = facts.table other := by
  simp [setTable, h]

theorem rows_setTable_self (facts : Facts) (kind : Kind) (rows : List kind.Row) :
    (facts.setTable kind rows).rows kind = rows :=
  rows_of_table (table_setTable_self facts kind rows)

theorem rows_setTable_of_ne (h : kind ≠ other) (rows : List kind.Row) :
    (facts.setTable kind rows).rows other = facts.rows other :=
  congrArg (Option.getD · []) (table_setTable_of_ne h rows)

/-! ## More rows -/

theorem table_extend_self (facts : Facts) (kind : Kind) (rows : List kind.Row) :
    (facts.extend kind rows).table kind = some (facts.rows kind ++ rows) :=
  table_setTable_self facts kind _

theorem table_extend_of_ne (h : kind ≠ other) (rows : List kind.Row) :
    (facts.extend kind rows).table other = facts.table other :=
  table_setTable_of_ne h _

theorem count_extend (facts : Facts) (kind other : Kind) (rows : List kind.Row) :
    (facts.extend kind rows).count other =
      facts.count other + if kind = other then rows.length else 0 := by
  unfold count extend
  split_ifs with h
  · subst h
    rw [rows_setTable_self, List.length_append]
  · rw [rows_setTable_of_ne h, Nat.add_zero]

/-! ## All rows -/

theorem totalRows_extend (facts : Facts) (kind : Kind) (rows : List kind.Row) :
    (facts.extend kind rows).totalRows = facts.totalRows + rows.length := by
  unfold totalRows
  simp only [Kind.all, List.foldl_cons, List.foldl_nil, count_extend]
  cases kind <;> simp <;> omega

theorem isArchitectural_iff :
    facts.isArchitectural = true ↔
      ∃ kind : Kind, kind.isArchitectural = true ∧ facts.rows kind ≠ [] := by
  unfold isArchitectural count
  rw [List.any_eq_true]
  constructor
  · rintro ⟨kind, _, h⟩
    exact ⟨kind, by simpa [List.length_pos_iff] using h⟩
  · rintro ⟨kind, h⟩
    exact ⟨kind, kind.mem_all, by simpa [List.length_pos_iff] using h⟩

/-! ## Rows among others -/

/-- Facts that have all rows of others, anywhere in their tables. -/
def Includes (more facts : Facts) : Prop :=
  ∀ kind, facts.rows kind ⊆ more.rows kind

theorem Includes.isArchitectural {more : Facts} (h : more.Includes facts)
    (hfacts : facts.isArchitectural = true) : more.isArchitectural = true := by
  obtain ⟨kind, hkind, hrows⟩ := isArchitectural_iff.mp hfacts
  exact isArchitectural_iff.mpr
    ⟨kind, hkind, fun hnil => hrows (List.subset_nil.mp (hnil ▸ h kind))⟩

end Facts

end ArchDoc
