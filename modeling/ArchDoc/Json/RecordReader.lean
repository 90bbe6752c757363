import ArchDoc.Json.Reader
import ArchDoc.Record

/-!
# Reading records from texts

A record of scalar columns, read straight from a text. The machine of `Reader` does the reading
and is watched from outside: a value that does not fit its column is a mismatch as soon as it is
read, and so is an array or object as soon as it begins and a column that is given twice as soon
as its name is read. What stands under other names is skipped.

Main definitions:

* `Scalar`, `Field`: what a column holds.
* `watch`: the mismatch that a state of the machine shows.
* `Record.ofText?`: the record of a text.
-/

namespace ArchDoc

namespace RecordReader

open Reader

/-- What a column holds: a text, a port number or a number of things. -/
inductive Scalar where
  | text
  | port
  | count

/-- Whether a value is what a column holds. -/
def Scalar.accepts : Scalar → Json → Bool
  | text, v => (Cell.text (some v)).isSome
  | port, v => (Cell.port (some v)).isSome
  | count, v => (Cell.count (some v)).isSome

/-- A column of scalars. -/
structure Field where
  name : String
  scalar : Scalar

/-- The column of a name. -/
def field? (fields : List Field) (name : String) : Option Field :=
  fields.find? (·.name == name)

/-- Whether a value is an array or an object. -/
def isCompound : Json → Bool
  | .arr _ => true
  | .obj _ => true
  | _ => false

/-- Whether the part that is being read is kept: all but what stands under a name that is no
column. -/
def keeps (fields : List Field) (s : State) : Bool :=
  match s.around.getLast? with
  | some (.object _ name) => (field? fields name).isSome
  | _ => true

/-- Whether an array or object may begin inside the frame that stands around it alone. -/
def mayNest (fields : List Field) : Frame → Bool
  | .array _ => false
  | .object _ name => (field? fields name).isNone

/-- Refuses a state that shows a mismatch. -/
def watch (fields : List Field) (s : State) : Except Fault Unit :=
  let fits : Bool :=
    match s.phase, s.around with
    | .done v, [] => isCompound v
    | .firstItem, [frame] => mayNest fields frame
    | .firstName, [frame] => mayNest fields frame
    | .colon members name, [] =>
      (field? fields name).isNone || !members.any (·.1 == name)
    | .afterItem (v :: before), [] =>
      match fields[before.length]? with
      | some field => field.scalar.accepts v
      | none => true
    | .afterMember ((name, v) :: _), [] =>
      match field? fields name with
      | some field => field.scalar.accepts v
      | none => true
    | _, _ => true
  if fits then .ok () else .error .mismatch

/-- Refuses a comma after the last column of an array. -/
def checkComma (fields : List Field) (s : State) (c : Char) : Except Fault Unit :=
  match s.phase, s.around with
  | .afterItem items, [] =>
    if c = ',' ∧ fields.length ≤ items.length then .error .malformed else .ok ()
  | _, _ => .ok ()

/-- Reads one character. -/
def step (fields : List Field) (s : State) (c : Char) : Except Fault State := do
  let settled ← settle (keeps fields s) s (some c)
  watch fields settled
  checkComma fields settled c
  let next ← advance (keeps fields settled) settled c
  watch fields next
  return next

/-- The value when the text ends. -/
def finish (fields : List Field) (s : State) : Except Fault Json := do
  let settled ← settle (keeps fields s) s none
  watch fields settled
  result settled

/-- The value of a text that is a record of some columns. -/
def read (fields : List Field) (text : String) : Except Fault Json := do
  finish fields (← text.toList.foldlM (step fields) start)

end RecordReader

/-- The record of a text. -/
def Record.ofText? {α : Type} [Record α] (fields : List RecordReader.Field) (text : String) :
    Except Fault α := do
  match Record.ofJson? (← RecordReader.read fields text).canonical with
  | some a => return a
  | none => .error .mismatch

end ArchDoc
