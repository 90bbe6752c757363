import ArchDoc.FileTree
import ArchDoc.Lifecycle.Cycle
import ArchDoc.Toml.Reader

/-!
# The settings file

A TOML file with a section for the synthesis and one for regeneration. Whatever it leaves out has
its default.

Main definitions:

* `Settings`, `Settings.ofText?`: the settings and how a text spells them.
* `Settings.load`: the settings of a file, or the defaults when no file is given.
-/

namespace ArchDoc

/-- All settings. -/
structure Settings where
  synthesis : Synthesis.Config := .default
  regeneration : Lifecycle.Config := .default

namespace Settings

/-! ## Sections -/

/-- The scalar that a TOML value stands for; `null`, which no setting holds, for any other
value. -/
def scalar : Toml → Json
  | .text s => .str s
  | .integer n => .int n
  | .boolean b => .bool b
  | _ => .null

/-- The first cells of columns from values in order. -/
def positional (columns : List Column) (items : List Toml) : List (Option Json) :=
  let given := items.take columns.length
  given.map (fun v => some (scalar v)) ++ (columns.drop given.length).map fun _ => none

/-- The cells of a section. A table names its cells, an array lists them in order, more items than
columns not counting, and a date has none. -/
def sectionCells? (columns : List Column) : Toml → Option (List (Option Json))
  | .table _ members =>
    some (columns.map fun c => (Toml.member? c.name members).map scalar)
  | .array items => some (positional columns items)
  | .elements tables => some (positional columns tables.reverse)
  | .date => some (columns.map fun _ => none)
  | _ => none

/-- The record in a section, or the default when there is no such section. -/
def readSection {α : Type} [Record α] (name : String) (default : α) (members : Toml.Members) :
    Option α :=
  match Toml.member? name members with
  | none => some default
  | some v => (sectionCells? (Record.columns α) v).bind Record.ofCells

/-- The settings of a text. -/
def ofText? (text : String) : Option Settings := do
  let members ← Toml.parse? text
  let synthesis ← readSection "synthesis" .default members
  let regeneration ← readSection "regen" .default members
  return ⟨synthesis, regeneration⟩

/-! ## Files -/

/-- Why settings cannot be loaded: the file cannot be read, or its text spells no settings. -/
inductive Error where
  | unreadable (path : String)
  | invalid (path : String)

/-- The wording of an error. -/
def Error.message : Error → String
  | unreadable path => "failed to read config " ++ path
  | invalid path => "invalid config " ++ path

/-- The settings of a file, or the defaults when no file is given. -/
def load (tree : FileTree) : Option String → Except Error Settings
  | none => .ok {}
  | some path =>
    match tree.readText path with
    | .error _ => .error (.unreadable path)
    | .ok text =>
      match ofText? text with
      | some settings => .ok settings
      | none => .error (.invalid path)

end Settings

end ArchDoc
