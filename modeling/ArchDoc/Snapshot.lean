import ArchDoc.Fact.Columns
import ArchDoc.Facts
import ArchDoc.FileTree
import ArchDoc.Journal
import ArchDoc.Json.Reader

/-!
# Snapshots

A snapshot is a JSON object that holds an array of rows for each kind of facts. Members of other
names and rows that cannot be read are left out and counted, so that one bad row never costs the
others.

Main definitions:

* `Snapshot.Report`: what was read and what was left out.
* `Snapshot.ofJson`: the facts of a value, or why it is no snapshot.
* `Snapshot.ofText`, `Snapshot.load`: the facts of a text and of a file.
* `Snapshot.remarks`: what is reported while a value is read.
-/

namespace ArchDoc.Snapshot

open ArchDoc.Fact

/-- Why a value is no snapshot: it is no object but of another type, or a table is no array. -/
inductive Error where
  | notAnObject (found : String)
  | tableNotArray (table found : String)
  deriving DecidableEq

/-- The wording of an error. -/
def Error.message : Error → String
  | notAnObject found => "snapshot must be a json object keyed by table name, got " ++ found
  | tableNotArray table found =>
    "table '" ++ table ++ "' must be a json array, got " ++ found

/-- How many rows were read and left out, and the names that are no kind of facts. -/
structure Report where
  rowsLoaded : Nat := 0
  rowsSkipped : Nat := 0
  unknownTables : List String := []
  deriving DecidableEq

/-! ## Reading -/

/-- The rows of a kind among values, in order; the others are left out. -/
def readRows (kind : Kind) (items : List Json) : List kind.Row :=
  items.filterMap Record.ofJson?

/-- Takes in one member of a snapshot. -/
def readMember (state : Facts × Report) (member : String × Json) :
    Except Error (Facts × Report) :=
  let (facts, report) := state
  let (name, value) := member
  match Kind.ofName? name with
  | none => .ok (facts, { report with unknownTables := report.unknownTables ++ [name] })
  | some kind =>
    match value.arr? with
    | none => .error (.tableNotArray name value.typeName)
    | some items =>
      let rows := readRows kind items
      .ok (facts.extend kind rows,
        { report with
          rowsLoaded := report.rowsLoaded + rows.length
          rowsSkipped := report.rowsSkipped + (items.length - rows.length) })

/-- The facts of a value whose members are in order. -/
def ofJson : Json → Except Error (Facts × Report)
  | .obj members => members.foldlM readMember (Facts.empty, {})
  | v => .error (.notAnObject v.typeName)

/-- Why a text is no snapshot: it is no JSON text, or its value is no snapshot. -/
inductive TextError where
  | json (fault : Fault)
  | shape (error : Error)

/-- The value of a text, with its members in order. -/
def valueOfText (text : String) : Except Fault Json :=
  (Json.parse text).map Json.canonical

/-- The facts of a text. -/
def ofText (text : String) : Except TextError (Facts × Report) := do
  let value ← (valueOfText text).mapError .json
  (ofJson value).mapError .shape

/-- Why a file is no snapshot: it cannot be read, or its text is none. -/
inductive LoadError where
  | unreadable (path : String) (cause : IoCause)
  | text (error : TextError)

/-- The wording of the error that a file cannot be read, or is no snapshot; faults of the text
have none. -/
def LoadError.message : LoadError → String
  | unreadable path cause => "io error reading " ++ path ++ ": " ++ cause.message
  | text (.shape error) => error.message
  | text (.json _) => ""

/-- The facts of a file. -/
def load (tree : FileTree) (path : String) : Except LoadError (Facts × Report) := do
  let text ← (tree.readText path).mapError (LoadError.unreadable path)
  (ofText text).mapError .text

/-! ## Writing -/

/-- The objects of the rows of a kind. -/
def rowsToJson (facts : Facts) (kind : Kind) : Json :=
  .arr ((facts.rows kind).map Record.toJson)

/-- The tables that have rows, as an object. -/
def toJson (facts : Facts) : Json :=
  .obj (facts.counts.map fun c => (c.1.name, rowsToJson facts c.1))

/-! ## What is reported -/

/-- The warnings about the rows of a kind that cannot be read, numbered from `start`. -/
def skippedRows (kind : Kind) : Nat → List Json → List Journal.Entry
  | _, [] => []
  | start, item :: items =>
    let rest := skippedRows kind (start + 1) items
    if (Record.ofJson? item : Option kind.Row).isSome then rest
    else
      ⟨.warn, .snapshot, "skipping malformed fact row",
        [("table", .text kind.name), ("index", .number start)]⟩ :: rest

/-- What is reported about members, up to the first one that is no table. -/
def memberRemarks : List (String × Json) → List Journal.Entry
  | [] => []
  | (name, value) :: members =>
    match Kind.ofName? name with
    | none =>
      ⟨.warn, .snapshot, "ignoring unknown fact table", [("table", .text name)]⟩ ::
        memberRemarks members
    | some kind =>
      match value.arr? with
      | none => []
      | some items => skippedRows kind 0 items ++ memberRemarks members

/-- What is reported while a value is read. -/
def remarks (value : Json) : List Journal.Entry :=
  (match value with
    | .obj members => memberRemarks members
    | _ => []) ++
  match ofJson value with
  | .error _ => []
  | .ok (_, report) =>
    [⟨.debug, .snapshot, "decoded fact snapshot",
      [("rows", .number report.rowsLoaded), ("skipped", .number report.rowsSkipped)]⟩]

end ArchDoc.Snapshot
