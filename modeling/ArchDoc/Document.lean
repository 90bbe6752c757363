import ArchDoc.Json.Writer

/-!
# Architecture documents

The document that describes an architecture: nodes, relationships between them, and the address
of the schema that it follows.

Main definitions:

* `Node`, `Relationship`, `Document`: the document and its parts.
* `Document.node?`, `Document.nodesOf`, …: looking things up.
* `Document.toJson`, `Document.render`: the written form. An optional part that is missing is
  left out, and the ends of a relationship stand under the name of its kind.
-/

namespace ArchDoc

/-! ## Nodes -/

/-- The kind of a node. -/
inductive NodeKind where
  | system
  | service
  | database
  | dataAsset
  | webClient
  | network
  deriving DecidableEq

/-- The written name of a kind. -/
def NodeKind.name : NodeKind → String
  | system => "system"
  | service => "service"
  | database => "database"
  | dataAsset => "data-asset"
  | webClient => "webclient"
  | network => "network"

/-- The kinds of nodes. -/
def NodeKind.all : List NodeKind :=
  [system, service, database, dataAsset, webClient, network]

/-- The kind of a written name. -/
def NodeKind.ofName? (name : String) : Option NodeKind :=
  all.find? (·.name == name)

/-- A way to reach a node. -/
structure Interface where
  id : String
  protocol : Option String := none
  port : Option UInt16 := none
  deriving DecidableEq

/-- An element of an architecture. A node without interfaces is told apart from one with an empty
list of them. -/
structure Node where
  id : String
  kind : NodeKind
  name : String
  description : String
  interfaces : Option (List Interface) := none
  deriving DecidableEq

/-- The interface of an identifier. -/
def Node.interface? (node : Node) (id : String) : Option Interface :=
  (node.interfaces.getD []).find? (·.id == id)

/-! ## Relationships -/

/-- The kind of a relationship. -/
inductive RelationshipKind where
  | composedOf
  | connects
  | interacts
  deriving DecidableEq

/-- The written name of a kind, under which the ends of a relationship stand. -/
def RelationshipKind.name : RelationshipKind → String
  | composedOf => "composed-of"
  | connects => "connects"
  | interacts => "interacts"

/-- The kinds of relationships. -/
def RelationshipKind.all : List RelationshipKind :=
  [composedOf, connects, interacts]

/-- The kind of a written name. -/
def RelationshipKind.ofName? (name : String) : Option RelationshipKind :=
  all.find? (·.name == name)

/-- An end of a relationship: a node, or an interface of it. -/
structure Endpoint where
  node : String
  interface : Option String := none
  deriving DecidableEq

/-- A relationship between two nodes. -/
structure Relationship where
  id : String
  kind : RelationshipKind
  source : Endpoint
  destination : Endpoint
  protocol : Option String := none
  deriving DecidableEq

/-! ## Documents -/

/-- A document: its nodes and relationships in order, and the address of its schema. -/
structure Document where
  nodes : List Node
  relationships : List Relationship
  schema : String
  deriving DecidableEq

namespace Document

/-- The address of the schema that documents follow unless they name another. -/
def defaultSchema : String :=
  "https://calm.finos.org/draft/2025-03/meta/calm.json"

/-- The node of an identifier. -/
def node? (document : Document) (id : String) : Option Node :=
  document.nodes.find? (·.id == id)

/-- The relationship of an identifier. -/
def relationship? (document : Document) (id : String) : Option Relationship :=
  document.relationships.find? (·.id == id)

/-- The nodes of a kind. -/
def nodesOf (document : Document) (kind : NodeKind) : List Node :=
  document.nodes.filter (·.kind == kind)

/-- The relationships of a kind. -/
def relationshipsOf (document : Document) (kind : RelationshipKind) : List Relationship :=
  document.relationships.filter (·.kind == kind)

end Document

/-! ## The written form -/

/-- A member that is left out when its value is missing. -/
def optionalMember {α : Type} (name : String) (write : α → Json) :
    Option α → List (String × Json)
  | none => []
  | some a => [(name, write a)]

/-- The object of an interface. -/
def Interface.toJson (i : Interface) : Json :=
  .obj (("unique-id", .str i.id) :: (optionalMember "protocol" .str i.protocol ++
    optionalMember "port" (fun p : UInt16 => .int p.toNat) i.port))

/-- The object of a node. -/
def Node.toJson (n : Node) : Json :=
  .obj ([("unique-id", .str n.id), ("node-type", .str n.kind.name), ("name", .str n.name),
    ("description", .str n.description)] ++
    optionalMember "interfaces" (fun is => .arr (is.map Interface.toJson)) n.interfaces)

/-- The object of an end. -/
def Endpoint.toJson (e : Endpoint) : Json :=
  .obj (("node", .str e.node) :: optionalMember "interface" .str e.interface)

/-- The object of a relationship. -/
def Relationship.toJson (r : Relationship) : Json :=
  .obj ([("unique-id", .str r.id), ("relationship-type", .str r.kind.name),
    (r.kind.name, .obj [("source", r.source.toJson), ("destination", r.destination.toJson)])] ++
    optionalMember "protocol" .str r.protocol)

namespace Document

/-- The object of a document. -/
def toJson (document : Document) : Json :=
  .obj [("nodes", .arr (document.nodes.map Node.toJson)),
    ("relationships", .arr (document.relationships.map Relationship.toJson)),
    ("$schema", .str document.schema)]

/-- The text of a document. -/
def render (document : Document) : String :=
  document.toJson.pretty

/-- The text of a document on one line. -/
def renderCompact (document : Document) : String :=
  document.toJson.compact

end Document

end ArchDoc
