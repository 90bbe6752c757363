import ArchDoc.Json.Basic

/-!
# The journal

What the program reports while it works. An entry is a message with named fields; it comes from
one part of the program, its topic, and has a level.

Main definitions:

* `Level`, `Topic`, `Entry`: how severe an entry is, where it comes from, and the entry.
* `Entry.toJson`: the entry as an object.
-/

namespace ArchDoc.Journal

/-- How severe an entry is, the most severe first. -/
inductive Level where
  | error
  | warn
  | info
  | debug
  | trace
  deriving DecidableEq

/-- The name of a level. -/
def Level.name : Level → String
  | error => "ERROR"
  | warn => "WARN"
  | info => "INFO"
  | debug => "DEBUG"
  | trace => "TRACE"

/-- The place of a level: the more severe, the lower. -/
def Level.rank : Level → Nat
  | error => 1
  | warn => 2
  | info => 3
  | debug => 4
  | trace => 5

/-- The parts of the program that report. -/
inductive Topic where
  | snapshot
  | graph
  | synthesis
  | cycle
  | store
  | command
  deriving DecidableEq

/-- The name by which a filter addresses a topic. -/
def Topic.address : Topic → String
  | snapshot => "calm_facts::snapshot"
  | graph => "calm_graph::builder"
  | synthesis => "calm_graph::synthesis"
  | cycle => "calm_regen::controller"
  | store => "calm_regen::store"
  | command => "calm"

/-- What a field of an entry holds. -/
inductive Datum where
  | text (s : String)
  | number (n : Nat)
  | flag (b : Bool)
  deriving DecidableEq

/-- The value of a datum. -/
def Datum.toJson : Datum → Json
  | text s => .str s
  | number n => .int n
  | flag b => .bool b

/-- A message with named fields. -/
structure Entry where
  level : Level
  topic : Topic
  message : String
  fields : List (String × Datum)
  deriving DecidableEq

/-- The level and the fields of an entry, of which the message is one. -/
def Entry.toJson (e : Entry) : Json :=
  .obj [("level", .str e.level.name),
    ("fields", .obj (("message", .str e.message) :: e.fields.map fun f => (f.1, f.2.toJson)))]

end ArchDoc.Journal
