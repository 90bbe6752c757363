import ArchDoc.Facts
import ArchDoc.Identifier
import ArchDoc.Synthesis.Config
import ArchDoc.Synthesis.Draft

/-!
# Passes

The eight passes that turn facts into a document. A pass reads the facts, the owners registered
so far and the system node, and gives the steps to apply; it never looks at the nodes and
relationships themselves.

Main definitions:

* `Input`: what all passes share.
* `Pass`, `Pass.inOrder`: the passes, in the order of a complete synthesis.
* `Pass.steps`: the steps of a pass.
* `runPasses`: the draft after passes in any order.
-/

namespace ArchDoc.Synthesis

open ArchDoc.Fact Identifier

/-! ## What all passes share -/

/-- The facts and the settings. -/
structure Input where
  facts : Facts
  config : Config

/-- The text, unless it is missing or empty. -/
def nonEmpty : Option String → Option String
  | some s => if s.isEmpty then none else some s
  | none => none

namespace Input

/-- The protocol of services: that of the first server, else the default. -/
def serverProtocol (input : Input) : String :=
  match input.facts.first? .serverConfiguration with
  | some server => server.effectiveProtocol
  | none => input.config.defaultProtocol

/-- The port of services: that of the first server, else the default. -/
def serverPort (input : Input) : UInt16 :=
  match input.facts.first? .serverConfiguration with
  | some server => server.port
  | none => input.config.defaultPort

/-- The last description of a class that is not empty. -/
def description? (input : Input) (className : String) : Option String :=
  ((input.facts.rows .classDescriptions).reverse.find? fun row =>
    row.className == className && !row.description.isEmpty).map (·.description)

end Input

/-! ## The system -/

/-- The system node of a project. -/
def systemNode (project : ProjectMetadata) : Node where
  id := slug project.artifactId
  kind := .system
  name := (nonEmpty project.name).getD project.artifactId
  description := (nonEmpty project.description).getD
    ("System containing " ++ project.artifactId ++ " services")

/-- The system node of the first project, if it has an artifact. -/
def systemSteps (input : Input) : List Step :=
  match input.facts.first? .projectMetadata with
  | none => []
  | some project =>
    if project.artifactId.isEmpty then
      [.note "project metadata without artifact id, no system node" []]
    else [.system (systemNode project)]

/-! ## Services -/

/-- The endpoints in words: the first ones up to the limit, and how many more there are. -/
def endpointSummary (limit : Nat) (endpoints : List ServiceEndpoint) : String :=
  let listed := (endpoints.take limit).map fun e => e.httpMethod ++ " " ++ e.path
  "REST API with endpoints: " ++ ", ".intercalate listed ++
    if limit < endpoints.length then
      " and " ++ toString (endpoints.length - limit) ++ " more"
    else ""

/-- Endpoints gathered by class. -/
abbrev Groups := List (String × List ServiceEndpoint)

/-- Adds an endpoint to the group of its class, which comes last if it is new. An endpoint without a
class is passed over. -/
def addToGroup (groups : Groups) (row : ServiceEndpoint) : Groups :=
  if row.serviceClass = "" then groups
  else if row.serviceClass ∈ groups.map Prod.fst then
    groups.map fun group =>
      if group.1 = row.serviceClass then (group.1, group.2 ++ [row]) else group
  else groups ++ [(row.serviceClass, [row])]

/-- The endpoints gathered by their classes in one loop. -/
def grouped (rows : List ServiceEndpoint) : Groups :=
  rows.foldl addToGroup []

/-- The identifier of the service of a class. -/
def serviceId (className : String) : String :=
  slug (ClassName.simpleName className)

/-- The service node of a class with some endpoints. -/
def exposingNode (input : Input) (className : String) (endpoints : List ServiceEndpoint) :
    Node where
  id := serviceId className
  kind := .service
  name := ClassName.simpleName className
  description := (input.description? className).getD
    (endpointSummary input.config.endpointSummaryLimit.toNat endpoints)
  interfaces := some
    [⟨apiId (serviceId className), some input.serverProtocol, some input.serverPort⟩]

/-- A service for each class that exposes endpoints. -/
def serviceSteps (input : Input) : List Step :=
  ((input.facts.rows .serviceEndpoints).filter (·.serviceClass.isEmpty)).map (fun row =>
    .note "endpoint without owning class, skipping" [("path", .text row.path)]) ++
  (grouped (input.facts.rows .serviceEndpoints)).flatMap (fun group =>
    [.node (exposingNode input group.1 group.2), .owner group.1 (serviceId group.1)]) ++
  [.ownerCount]

/-! ## Data assets -/

/-- The node of a data asset. -/
def dataAssetNode (asset : DataAsset) : Node where
  id := dataAssetId asset.simpleName
  kind := .dataAsset
  name := asset.simpleName
  description := (nonEmpty asset.description).getD (asset.assetType ++ " " ++ asset.simpleName)

/-- A node for each data asset that has a name. -/
def dataAssetSteps (input : Input) : List Step :=
  (input.facts.rows .dataAssets).map fun asset =>
    if asset.simpleName.isEmpty then
      .note "data asset without name, skipping" [("asset_type", .text asset.assetType)]
    else .node (dataAssetNode asset)

/-! ## The web client -/

/-- The identifier of the web client. -/
def webClientId : String := "web-client"

/-- The node of the web client that comes from some origins. -/
def webClientNode (origins : String) : Node where
  id := webClientId
  kind := .webClient
  name := "Web Client"
  description := "Web application client accessing the API from " ++ origins

/-- The relationship of the web client with a service. -/
def webClientRelationship (protocol service : String) : Relationship where
  id := webClientId ++ "-interacts-" ++ service
  kind := .interacts
  source := ⟨webClientId, none⟩
  destination := ⟨service, some (apiId service)⟩
  protocol := some protocol

/-- The settings that let browsers of other origins in. -/
def corsRows (input : Input) : List SecurityConfiguration :=
  (input.facts.rows .securityConfiguration).filter (·.isCors)

/-- The web client of the first service, when browsers of other origins are let in. -/
def webClientSteps (input : Input) (owners : Owners) : List Step :=
  if (corsRows input).isEmpty then []
  else
    match owners.serviceIds.head? with
    | none => [.note "CORS configured but no service to reach" []]
    | some primary =>
      let origins :=
        ((corsRows input).findSome? fun row => nonEmpty row.allowedOrigins).getD
          "configured origins"
      [.node (webClientNode origins),
        .relationship (webClientRelationship input.serverProtocol primary)]

/-! ## Databases -/

/-- The node of the database behind an entity. -/
def databaseNode (row : DatabaseConnection) : Node where
  id := databaseId row.entityName
  kind := .database
  name := row.entityName ++ " Store"
  description :=
    (nonEmpty row.databaseType).getD "SQL" ++ " database for " ++ row.entityName ++ " data"

/-- The service that stores an entity: the owner of the repository class, else of the entity
class. -/
def databaseOwner (owners : Owners) (row : DatabaseConnection) : Option String :=
  (row.repositoryClass.bind owners.resolve).or (row.entityClass.bind owners.resolve)

/-- The connection of a service to a database. -/
def databaseRelationship (owner id : String) : Relationship where
  id := owner ++ "-to-" ++ id
  kind := .connects
  source := ⟨owner, none⟩
  destination := ⟨id, some "jdbc"⟩
  protocol := some "JDBC"

/-- A database for each entity that has a name and whose database is not among those seen. -/
def databaseSteps (owners : Owners) : List String → List DatabaseConnection → List Step
  | _, [] => []
  | seen, row :: rows =>
    let id := databaseId row.entityName
    if row.entityName.isEmpty then
      .note "database connection without entity, skipping" [] :: databaseSteps owners seen rows
    else if seen.contains id then databaseSteps owners seen rows
    else
      .node (databaseNode row) ::
        (match databaseOwner owners row with
          | none => .note "no owning service found" [("database", .text id)]
          | some owner => .relationship (databaseRelationship owner id)) ::
        databaseSteps owners (id :: seen) rows

/-! ## External services -/

/-- The node of an external service. -/
def externalServiceNode (call : ExternalServiceCall) : Node where
  id := slug call.targetService
  kind := .service
  name := call.targetService
  description := "External " ++ call.clientType ++ " service"

/-- The connection of a service to an external one. -/
def externalServiceRelationship (caller : String) (call : ExternalServiceCall) :
    Relationship where
  id := caller ++ "-to-" ++ slug call.targetService
  kind := .connects
  source := ⟨caller, none⟩
  destination := ⟨slug call.targetService, some "api"⟩
  protocol := some ((nonEmpty call.protocol).getD "HTTPS")

/-- An external service for each target that has a name and is not among those seen. -/
def externalServiceSteps (owners : Owners) : List String → List ExternalServiceCall → List Step
  | _, [] => []
  | seen, call :: calls =>
    let id := slug call.targetService
    if call.targetService.isEmpty then
      .note "external call without target, skipping" [("client", .text call.clientClass)] ::
        externalServiceSteps owners seen calls
    else if seen.contains id then externalServiceSteps owners seen calls
    else
      .node (externalServiceNode call) ::
        (match owners.resolve call.clientClass with
          | none => .note "no calling service found" [("external", .text id)]
          | some caller => .relationship (externalServiceRelationship caller call)) ::
        externalServiceSteps owners (id :: seen) calls

/-! ## Messaging -/

/-- Whether a list occurs in another one as a block. -/
def occursIn (block : List Char) : List Char → Bool
  | [] => block.isEmpty
  | c :: cs => block.isPrefixOf (c :: cs) || occursIn block cs

/-- The protocol of a messaging system. -/
def messagingProtocol (messagingType : String) : String :=
  if occursIn "Kafka".toList messagingType.toList then "TCP" else "AMQP"

/-- The node of the destination of a messaging row. -/
def messagingNode (row : MessagingConnection) : Node where
  id := messagingId row.destination row.messagingType
  kind := .network
  name := row.destination
  description := row.messagingType ++
    match row.messagingRole with
    | .consumer => " topic/queue"
    | _ => " destination"

/-- The connection of a service that produces to a destination. -/
def producerRelationship (service node protocol : String) : Relationship where
  id := service ++ "-publishes-to-" ++ node
  kind := .connects
  source := ⟨service, none⟩
  destination := ⟨node, none⟩
  protocol := some protocol

/-- The connection of a service that consumes from a destination. -/
def consumerRelationship (service node protocol : String) : Relationship where
  id := node ++ "-consumed-by-" ++ service
  kind := .connects
  source := ⟨node, none⟩
  destination := ⟨service, none⟩
  protocol := some protocol

/-- What a messaging row says about its destination, whose node has an identifier. -/
def messagingLink (owners : Owners) (row : MessagingConnection) (id : String) : Step :=
  match owners.resolve row.className with
  | none => .note "no owning service found" [("destination", .text id)]
  | some service =>
    match row.messagingRole with
    | .producer =>
      .relationship (producerRelationship service id (messagingProtocol row.messagingType))
    | .consumer =>
      .relationship (consumerRelationship service id (messagingProtocol row.messagingType))
    | .other =>
      .note "unrecognized messaging role"
        [("role", .text row.role), ("destination", .text id)]

/-- A node for each destination that has a name, named by its first row, and a connection for
each row. The destinations seen so far stand with the identifiers of their nodes. -/
def messagingSteps (owners : Owners) :
    List (String × String) → List MessagingConnection → List Step
  | _, [] => []
  | seen, row :: rows =>
    if row.destination.isEmpty then
      .note "messaging row without destination, skipping" [("class", .text row.className)] ::
        messagingSteps owners seen rows
    else
      match seen.find? (·.1 == row.destination) with
      | some (_, id) => messagingLink owners row id :: messagingSteps owners seen rows
      | none =>
        let id := messagingId row.destination row.messagingType
        .node (messagingNode row) :: messagingLink owners row id ::
          messagingSteps owners ((row.destination, id) :: seen) rows

/-! ## Composition -/

/-- The relationship of the system with a service in it. -/
def compositionRelationship (system service : String) : Relationship where
  id := system ++ "-contains-" ++ service
  kind := .composedOf
  source := ⟨system, none⟩
  destination := ⟨service, none⟩

/-- The system is composed of every registered service. -/
def compositionSteps (systemId : Option String) (owners : Owners) : List Step :=
  match systemId with
  | none => []
  | some system =>
    owners.serviceIds.map fun service => .relationship (compositionRelationship system service)

/-! ## All passes -/

/-- The passes. -/
inductive Pass where
  | system
  | services
  | dataAssets
  | webClient
  | databases
  | externalServices
  | messaging
  | composition
  deriving DecidableEq

namespace Pass

/-- The passes in the order of a complete synthesis. -/
def inOrder : List Pass :=
  [system, services, dataAssets, webClient, databases, externalServices, messaging, composition]

/-- The steps of a pass that starts from a draft. -/
def steps (input : Input) (draft : Draft) : Pass → List Step
  | system => systemSteps input
  | services => serviceSteps input
  | dataAssets => dataAssetSteps input
  | webClient => webClientSteps input draft.owners
  | databases => databaseSteps draft.owners [] (input.facts.rows .databaseConnections)
  | externalServices =>
    externalServiceSteps draft.owners [] (input.facts.rows .externalServiceCalls)
  | messaging => messagingSteps draft.owners [] (input.facts.rows .messagingConnections)
  | composition => compositionSteps draft.systemId draft.owners

end Pass

/-- The draft after a pass. -/
def runPass (input : Input) (draft : Draft) (pass : Pass) : Draft :=
  draft.applyAll (pass.steps input draft)

/-- The draft after passes in some order. -/
def runPasses (input : Input) (draft : Draft) (passes : List Pass) : Draft :=
  passes.foldl (runPass input) draft

/-- What is reported during passes. -/
def passRemarks (input : Input) (draft : Draft) : List Pass → List Journal.Entry
  | [] => []
  | pass :: passes =>
    draft.remarks (pass.steps input draft) ++ passRemarks input (runPass input draft pass) passes

end ArchDoc.Synthesis
