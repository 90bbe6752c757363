import ArchDoc.Proofs.KeepFirst
import ArchDoc.Synthesis

/-!
# The candidates of a document

What a document may hold, read off the tables of facts one table at a time: no candidate depends
on another one, and nothing is absorbed here. The document of the facts is then the first
candidate of each identifier, in the order of the passes (`referenceDocument`).

Main definitions:

* `exposingClasses`, `rowsOf`: the classes with endpoints, and the endpoints of a class.
* `registeredOwners`: the owners that these classes make.
* `candidateNodes`, `candidateRelationships`: the candidates of each pass, given the owners and
  the system.
* `referenceDocument`: the first candidate of each identifier.
-/

namespace ArchDoc.Synthesis

open ArchDoc.Fact Identifier

/-! ## Rows that name something -/

/-- The first project, if it has an artifact. -/
def namedProject (facts : Facts) : Option ProjectMetadata :=
  (facts.first? .projectMetadata).filter (!·.artifactId.isEmpty)

/-- The classes that expose endpoints, each once. -/
def exposingClasses (facts : Facts) : List String :=
  keepFirst id (((facts.rows .serviceEndpoints).map (·.serviceClass)).filter (!·.isEmpty))

/-- The endpoints of a class. -/
def rowsOf (rows : List ServiceEndpoint) (className : String) : List ServiceEndpoint :=
  rows.filter (·.serviceClass == className)

/-- The data assets that have a name. -/
def namedAssets (facts : Facts) : List DataAsset :=
  (facts.rows .dataAssets).filter (!·.simpleName.isEmpty)

/-- The database rows that name an entity. -/
def namedEntities (rows : List DatabaseConnection) : List DatabaseConnection :=
  rows.filter (!·.entityName.isEmpty)

/-- The calls that name a target. -/
def namedTargets (calls : List ExternalServiceCall) : List ExternalServiceCall :=
  calls.filter (!·.targetService.isEmpty)

/-- The messaging rows that name a destination. -/
def namedDestinations (rows : List MessagingConnection) : List MessagingConnection :=
  rows.filter (!·.destination.isEmpty)

/-! ## Owners and the system -/

/-- The classes that expose endpoints with the identifiers of their services. -/
def registeredOwners (facts : Facts) : Owners :=
  ⟨(exposingClasses facts).map fun className => (className, serviceId className)⟩

/-- The identifier of the system. -/
def projectId (facts : Facts) : Option String :=
  (namedProject facts).map fun project => slug project.artifactId

/-! ## The web client -/

/-- The service that browsers of other origins reach: that of the class registered first. -/
def primaryService (input : Input) (owners : Owners) : Option String :=
  if (input.facts.rows .securityConfiguration).any (·.isCors) then owners.entries.head?.map (·.2)
  else none

/-- The origins of the first setting that names some. -/
def clientOrigins (input : Input) : String :=
  ((corsRows input).findSome? fun row => nonEmpty row.allowedOrigins).getD "configured origins"

/-! ## Messaging -/

/-- The first row with the destination of a row, which names the node of the destination. -/
def namingRow (rows : List MessagingConnection) (row : MessagingConnection) :
    MessagingConnection :=
  (rows.find? fun other => other.destination = row.destination).getD row

/-- The connection that a messaging row stands for, if its class has an owner and its role is
known. -/
def messagingEdge (owners : Owners) (node : String) (row : MessagingConnection) :
    Option Relationship :=
  (owners.resolve row.className).bind fun service =>
    match row.messagingRole with
    | .producer => some (producerRelationship service node (messagingProtocol row.messagingType))
    | .consumer => some (consumerRelationship service node (messagingProtocol row.messagingType))
    | .other => none

/-! ## The candidates of each pass -/

/-- The service node of a class, with all its endpoints. -/
def serviceNode (input : Input) (className : String) : Node :=
  exposingNode input className (rowsOf (input.facts.rows .serviceEndpoints) className)

/-- The nodes that a pass has to offer. -/
def candidateNodes (input : Input) (owners : Owners) : Pass → List Node
  | .system => (namedProject input.facts).toList.map systemNode
  | .services => (exposingClasses input.facts).map (serviceNode input)
  | .dataAssets => (namedAssets input.facts).map dataAssetNode
  | .webClient =>
    (primaryService input owners).toList.map fun _ => webClientNode (clientOrigins input)
  | .databases => (namedEntities (input.facts.rows .databaseConnections)).map databaseNode
  | .externalServices =>
    (namedTargets (input.facts.rows .externalServiceCalls)).map externalServiceNode
  | .messaging =>
    (keepFirst (·.destination)
      (namedDestinations (input.facts.rows .messagingConnections))).map messagingNode
  | .composition => []

/-- The connections of the first row of each database. -/
def databaseEdges (owners : Owners) (rows : List DatabaseConnection) : List Relationship :=
  (keepFirst (fun row => databaseId row.entityName) (namedEntities rows)).filterMap fun row =>
    (databaseOwner owners row).map fun owner =>
      databaseRelationship owner (databaseId row.entityName)

/-- The connections of the first call of each target. -/
def externalServiceEdges (owners : Owners) (calls : List ExternalServiceCall) :
    List Relationship :=
  (keepFirst (fun call => slug call.targetService) (namedTargets calls)).filterMap fun call =>
    (owners.resolve call.clientClass).map fun caller => externalServiceRelationship caller call

/-- The connections of all messaging rows, each to the node that the first row of its destination
names. -/
def messagingEdges (owners : Owners) (rows : List MessagingConnection) : List Relationship :=
  (namedDestinations rows).filterMap fun row =>
    messagingEdge owners (messagingNode (namingRow (namedDestinations rows) row)).id row

/-- The relationships that a pass has to offer. -/
def candidateRelationships (input : Input) (owners : Owners) (system : Option String) :
    Pass → List Relationship
  | .system | .services | .dataAssets => []
  | .webClient =>
    (primaryService input owners).toList.map (webClientRelationship input.serverProtocol)
  | .databases => databaseEdges owners (input.facts.rows .databaseConnections)
  | .externalServices => externalServiceEdges owners (input.facts.rows .externalServiceCalls)
  | .messaging => messagingEdges owners (input.facts.rows .messagingConnections)
  | .composition =>
    system.toList.flatMap fun root =>
      (keepFirst id (owners.entries.map (·.2))).map (compositionRelationship root)

/-! ## The document -/

/-- The first candidate of each identifier, with the owners and the system that the facts
determine. -/
def referenceDocument (input : Input) : Document where
  nodes := keepFirst Node.id
    (Pass.inOrder.flatMap (candidateNodes input (registeredOwners input.facts)))
  relationships := keepFirst Relationship.id
    (Pass.inOrder.flatMap
      (candidateRelationships input (registeredOwners input.facts) (projectId input.facts)))
  schema := input.config.schema

end ArchDoc.Synthesis
