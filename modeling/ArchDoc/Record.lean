import ArchDoc.Json.Basic

/-!
# Records in JSON

A record is written as an object with a member for each column, or as an array of its columns in
order. Both forms are first brought into one row of cells, a cell for each column, and the cells
are then read by the type of the record.

An object may leave columns out, and members of other names count for nothing. An array may only
leave out columns at its end that have a default, and must not be longer than the columns.

Main definitions:

* `Column`, `cells?`: the columns of a record and the cells of a value.
* `Cell.text`, `Cell.text?`, `Cell.natural`, …: what a cell may hold.
* `Record`: a type with columns, read from cells and written into cells.
* `Record.ofJson?`, `Record.toJson`: the record of a value, and its object.
-/

namespace ArchDoc

/-! ## Columns and cells -/

/-- A column: its name, and whether an array may end before it. -/
structure Column where
  name : String
  hasDefault : Bool := false

/-- The cells of a value, one for each column; a column that is left out has none. -/
def cells? (columns : List Column) : Json → Option (List (Option Json))
  | .obj members => some (columns.map fun c => Json.member? c.name members)
  | .arr items =>
    let missing := columns.drop items.length
    if items.length ≤ columns.length ∧ missing.all (·.hasDefault) then
      some (items.map some ++ missing.map fun _ => none)
    else none
  | _ => none

namespace Cell

/-- A text that must be there. -/
def text : Option Json → Option String
  | some (.str s) => some s
  | _ => none

/-- A text that may be missing or `null`. -/
def text? : Option Json → Option (Option String)
  | none => some none
  | some .null => some none
  | some (.str s) => some (some s)
  | _ => none

/-- A natural number below a bound. -/
def natural (bound : Nat) : Option Json → Option Nat
  | some (.int n) => if 0 ≤ n ∧ n < bound then some n.toNat else none
  | _ => none

/-- A port number. -/
def port (cell : Option Json) : Option UInt16 :=
  (natural UInt16.size cell).map UInt16.ofNat

/-- A number of things. -/
def count (cell : Option Json) : Option UInt64 :=
  (natural UInt64.size cell).map UInt64.ofNat

/-- A truth value that is false when missing. -/
def flag : Option Json → Option Bool
  | none => some false
  | some (.bool b) => some b
  | _ => none

/-- A list of texts that is empty when missing. -/
def texts : Option Json → Option (List String)
  | none => some []
  | some (.arr items) => items.mapM Json.str?
  | _ => none

/-- The cell of a text that may be missing: `null` when it is. -/
def ofText? (s : Option String) : Json :=
  Json.ofOption .str s

/-- Reads a cell, or takes a default when it is missing. -/
def orDefault {α : Type} (read : Option Json → Option α) (default : α) (cell : Option Json) :
    Option α :=
  if cell.isNone then some default else read cell

end Cell

/-! ## Records -/

/-- A type whose values are rows of cells. -/
class Record (α : Type) where
  columns : List Column
  ofCells : List (Option Json) → Option α
  toCells : α → List Json

namespace Record

variable {α : Type} [Record α]

/-- The record that a value stands for. -/
def ofJson? (v : Json) : Option α :=
  (cells? (columns α) v).bind ofCells

/-- The object of a record, with a member for every column. -/
def toJson (a : α) : Json :=
  .obj ((columns α).map (·.name) |>.zip (toCells a))

/-- The array of a record. -/
def toArray (a : α) : Json :=
  .arr (toCells a)

end Record

end ArchDoc
