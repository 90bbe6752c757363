import ArchDoc.Text.Blank

/-!
# Phases of a document

The life of a regenerated document. Its path is first reserved by a placeholder, which is then
either filled or deleted; what is filled is only ever filled anew.

Main definitions:

* `Phase`, `Phase.allowed`: the phases, and where each may lead.
* `isPlaceholder`, `Phase.classify`: the phase that a content shows.
-/

namespace ArchDoc.Lifecycle

/-- The phase of a document. -/
inductive Phase where
  | absent
  | placeholder
  | populated
  | deleted
  deriving DecidableEq

/-- The text of a placeholder. -/
def placeholderText : String := "\x7b\x7d"

/-- Whether a content reserves a path without describing anything: it is blank, or a placeholder
with blanks around it. -/
def isPlaceholder (content : String) : Bool :=
  let trimmed := Text.trim content
  trimmed.isEmpty || trimmed == placeholderText

namespace Phase

/-- The phases in order. -/
def all : List Phase := [absent, placeholder, populated, deleted]

/-- The name of a phase. -/
def name : Phase → String
  | absent => "absent"
  | placeholder => "placeholder"
  | populated => "populated"
  | deleted => "deleted"

/-- The phase of a name. -/
def ofName? (name : String) : Option Phase :=
  all.find? (·.name == name)

/-- The phases that may follow a phase. -/
def allowed : Phase → List Phase
  | absent => [absent, placeholder]
  | placeholder => [placeholder, populated, deleted]
  | populated => [populated]
  | deleted => []

/-- Whether no phase may follow. -/
def isTerminal (phase : Phase) : Bool :=
  phase.allowed.isEmpty

/-- Whether one phase may follow another. -/
def mayBecome (source target : Phase) : Bool :=
  source.allowed.contains target

/-- The phase that a content shows; a document that was deleted shows as absent. -/
def classify : Option String → Phase
  | none => absent
  | some content => if isPlaceholder content then placeholder else populated

end Phase

end ArchDoc.Lifecycle
