import ArchDoc.Document
import ArchDoc.Journal
import ArchDoc.Synthesis.Owners

/-!
# Drafts

A document in the making. A draft grows by steps, and only grows: a node or relationship whose
identifier is taken is absorbed by the one that has it.

Main definitions:

* `Draft`: the nodes and relationships so far, the owners of classes, and the system node.
* `Step`, `Draft.apply`: what is added to a draft.
* `Draft.remarks`: what is reported when a step is applied.
-/

namespace ArchDoc.Synthesis

/-- A document in the making. -/
structure Draft where
  nodes : List Node
  relationships : List Relationship
  owners : Owners
  systemId : Option String
  deriving DecidableEq

/-- A part of a draft, or something to report: `system` is the node of the whole project, `owner`
registers the class of a service, and `ownerCount` reports how many are registered. -/
inductive Step where
  | node (node : Node)
  | system (node : Node)
  | relationship (relationship : Relationship)
  | owner (className id : String)
  | note (message : String) (fields : List (String × Journal.Datum))
  | ownerCount

namespace Draft

/-- The draft before the first step. -/
def empty : Draft := ⟨[], [], .empty, none⟩

/-- Whether a node has an identifier. -/
def hasNode (draft : Draft) (id : String) : Bool :=
  draft.nodes.any (·.id == id)

/-- Whether a relationship has an identifier. -/
def hasRelationship (draft : Draft) (id : String) : Bool :=
  draft.relationships.any (·.id == id)

/-- Adds a node unless its identifier is taken. -/
def addNode (draft : Draft) (node : Node) : Draft :=
  if draft.hasNode node.id then draft else { draft with nodes := draft.nodes ++ [node] }

/-- Adds a relationship unless its identifier is taken. -/
def addRelationship (draft : Draft) (relationship : Relationship) : Draft :=
  if draft.hasRelationship relationship.id then draft
  else { draft with relationships := draft.relationships ++ [relationship] }

/-- Applies a step. A node becomes the system node only when it is added. -/
def apply (draft : Draft) : Step → Draft
  | .node node => draft.addNode node
  | .system node =>
    if draft.hasNode node.id then draft
    else { draft.addNode node with systemId := some node.id }
  | .relationship relationship => draft.addRelationship relationship
  | .owner className id => { draft with owners := draft.owners.register className id }
  | .note _ _ => draft
  | .ownerCount => draft

/-- Applies steps in order. -/
def applyAll (draft : Draft) (steps : List Step) : Draft :=
  steps.foldl apply draft

/-- The document of a draft. -/
def toDocument (draft : Draft) (schema : String) : Document :=
  ⟨draft.nodes, draft.relationships, schema⟩

/-! ## What is reported -/

/-- An entry about details of the graph. -/
def detail (message : String) (fields : List (String × Journal.Datum)) : Journal.Entry :=
  ⟨.debug, .graph, message, fields⟩

/-- What is reported about a node that is to be added. -/
def nodeRemarks (draft : Draft) (node : Node) : List Journal.Entry :=
  if draft.hasNode node.id then
    [detail "node already present, absorbing" [("id", .text node.id)]]
  else []

/-- What is reported when a step is applied. -/
def stepRemarks (draft : Draft) : Step → List Journal.Entry
  | .node node => draft.nodeRemarks node
  | .system node => draft.nodeRemarks node
  | .relationship relationship =>
    if draft.hasRelationship relationship.id then
      [detail "relationship already present, absorbing" [("id", .text relationship.id)]]
    else []
  | .owner _ _ => []
  | .note message fields => [detail message fields]
  | .ownerCount => [detail "service nodes added" [("services", .number draft.owners.count)]]

/-- What is reported when steps are applied in order. -/
def remarks (draft : Draft) : List Step → List Journal.Entry
  | [] => []
  | step :: steps => draft.stepRemarks step ++ remarks (draft.apply step) steps

end Draft

end ArchDoc.Synthesis
