import ArchDoc.Lifecycle.Phase

/-!
# Actions on a document

What one cycle of regeneration does to its document, and how it decides.

Main definitions:

* `Action`, `Action.phaseAfter`: the actions, and the phase that each leads to.
* `consults`: whether the decision depends on the text that the facts give.
* `plan`: the decision.
-/

namespace ArchDoc.Lifecycle

/-- What a cycle does. -/
inductive Action where
  | createPlaceholder
  | write (text : String)
  | delete
  | unchanged
  deriving DecidableEq

namespace Action

/-- Whether an action changes the document. -/
def changesStore : Action → Bool
  | unchanged => false
  | createPlaceholder | write _ | delete => true

/-- The phase after an action. -/
def phaseAfter (source : Phase) : Action → Phase
  | createPlaceholder => .placeholder
  | write _ => .populated
  | delete => .deleted
  | unchanged => source

/-- The name of an action in the journal. -/
def label : Action → String
  | createPlaceholder => "create-placeholder"
  | write _ => "write"
  | delete => "delete"
  | unchanged => "unchanged"

end Action

/-- Whether the decision depends on the text that the facts give: only when there is a document
to compare it with. -/
def consults (current : Option String) : Bool :=
  current.isSome

/-- Decides what to do with a document, given its content, whether this is the first cycle, and
the text that the facts give. -/
def plan (current : Option String) (firstCycle : Bool) (synthesized : Option String) : Action :=
  match current, synthesized with
  | none, _ => if firstCycle then .createPlaceholder else .unchanged
  | some content, some text => if text = content then .unchanged else .write text
  | some content, none =>
    if Phase.classify (some content) = .placeholder then .delete else .unchanged

end ArchDoc.Lifecycle
