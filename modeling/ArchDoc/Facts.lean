import ArchDoc.Fact.Row

/-!
# Fact tables

All that is known about a codebase: for each kind of facts a table of rows, or no table. An
absent table reads as an empty one, but is told apart from it by equality.

Main definitions:

* `Facts`, `Facts.rows`: the tables and their rows.
* `Facts.extend`, `Facts.insert`: more rows at the end of a table.
* `Facts.counts`, `Facts.totalRows`, `Facts.isArchitectural`: what the tables hold.
-/

namespace ArchDoc

open ArchDoc.Fact

/-- The tables of facts by kind. -/
structure Facts where
  table : (kind : Kind) → Option (List kind.Row)

namespace Facts

/-- No tables. -/
def empty : Facts := ⟨fun _ => none⟩

/-- The rows of a kind, in order. -/
def rows (facts : Facts) (kind : Kind) : List kind.Row :=
  (facts.table kind).getD []

/-- The first row of a kind. -/
def first? (facts : Facts) (kind : Kind) : Option kind.Row :=
  (facts.rows kind).head?

/-! ## More rows -/

/-- The tables with one of them replaced. -/
def setTable (facts : Facts) (kind : Kind) (rows : List kind.Row) : Facts :=
  ⟨fun other => if h : kind = other then some (h ▸ rows) else facts.table other⟩

/-- The tables with rows added at the end of one of them, which is present afterwards. -/
def extend (facts : Facts) (kind : Kind) (rows : List kind.Row) : Facts :=
  facts.setTable kind (facts.rows kind ++ rows)

/-- The tables with one row added at the end of one of them. -/
def insert (facts : Facts) (kind : Kind) (row : kind.Row) : Facts :=
  facts.extend kind [row]

/-! ## What the tables hold -/

/-- The number of rows of a kind. -/
def count (facts : Facts) (kind : Kind) : Nat :=
  (facts.rows kind).length

/-- The number of rows of all kinds. -/
def totalRows (facts : Facts) : Nat :=
  Kind.all.foldl (fun total kind => total + facts.count kind) 0

/-- Whether there are no rows at all. -/
def isEmpty (facts : Facts) : Bool :=
  facts.totalRows == 0

/-- Whether some table that justifies a document has rows. -/
def isArchitectural (facts : Facts) : Bool :=
  Kind.all.any fun kind => kind.isArchitectural && 0 < facts.count kind

/-- The kinds that have rows, in order, with their numbers. -/
def counts (facts : Facts) : List (Kind × Nat) :=
  (Kind.all.map fun kind => (kind, facts.count kind)).filter fun c => 0 < c.2

/-! ## Equality -/

@[ext]
theorem ext {a b : Facts} (h : ∀ kind, a.table kind = b.table kind) : a = b := by
  cases a
  cases b
  congr
  funext kind
  exact h kind

/-- Tables are equal when they are equal for every kind. -/
theorem eq_iff_all {a b : Facts} :
    a = b ↔ Kind.all.all (fun kind => decide (a.table kind = b.table kind)) = true := by
  constructor
  · rintro rfl
    simp
  · intro h
    ext1 kind
    exact of_decide_eq_true (List.all_eq_true.mp h kind (Kind.mem_all kind))

instance : DecidableEq Facts := fun _ _ => decidable_of_iff' _ eq_iff_all

end Facts

end ArchDoc
