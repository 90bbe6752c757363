import ArchDoc.ClassName
import ArchDoc.Fact.Kind

/-!
# Rows of facts

One flat record for each kind of facts, with what a row says beyond its columns: the name of a
service, the role of a class in messaging, the protocol of a server.

Main definitions:

* `ServiceEndpoint`, `DatabaseConnection`, …: the rows, each with its columns.
* `Kind.Row`: the type of the rows of a kind.
-/

namespace ArchDoc.Fact

/-- An HTTP endpoint that a controller class exposes. -/
structure ServiceEndpoint where
  serviceClass : String
  httpMethod : String
  path : String
  framework : String
  entityId : Option String := none
  sourcePath : Option String := none
  methodName : Option String := none
  produces : Option String := none
  consumes : Option String := none
  methodSignature : Option String := none
  deriving DecidableEq

/-- The name of the service: the simple name of its class. -/
def ServiceEndpoint.serviceName (row : ServiceEndpoint) : String :=
  ClassName.simpleName row.serviceClass

/-- An entity that is stored in a database, with the classes that store it. -/
structure DatabaseConnection where
  entityName : String
  entityClass : Option String := none
  repositoryClass : Option String := none
  connectionType : Option String := none
  databaseType : Option String := none
  sourcePath : Option String := none
  deriving DecidableEq

/-- A call of a service outside the codebase. -/
structure ExternalServiceCall where
  clientClass : String
  targetService : String
  clientType : String
  protocol : Option String := none
  baseUrl : Option String := none
  sourcePath : Option String := none
  deriving DecidableEq

/-- What a class does with a messaging destination. -/
inductive MessagingRole where
  | producer
  | consumer
  | other
  deriving DecidableEq

/-- A class that produces to or consumes from a messaging destination. -/
structure MessagingConnection where
  className : String
  destination : String
  role : String
  messagingType : String
  entityId : Option String := none
  methodName : Option String := none
  methodSignature : Option String := none
  sourcePath : Option String := none
  deriving DecidableEq

/-- The role that the column spells, letter by letter. -/
def MessagingConnection.messagingRole (row : MessagingConnection) : MessagingRole :=
  if row.role = "producer" then .producer
  else if row.role = "consumer" then .consumer
  else .other

/-- The port and the security of the server. -/
structure ServerConfiguration where
  port : UInt16
  sslEnabled : Bool := false
  protocol : Option String := none
  contextPath : Option String := none
  sourcePath : Option String := none
  deriving DecidableEq

/-- The protocol of the column, or the one that fits `sslEnabled`. -/
def ServerConfiguration.effectiveProtocol (row : ServerConfiguration) : String :=
  row.protocol.getD (if row.sslEnabled then "HTTPS" else "HTTP")

/-- An entity, transfer object or record of the data model. -/
structure DataAsset where
  simpleName : String
  assetType : String
  className : Option String := none
  description : Option String := none
  fields : Option String := none
  sourcePath : Option String := none
  deriving DecidableEq

/-- The identity of the project. -/
structure ProjectMetadata where
  artifactId : String
  groupId : Option String := none
  name : Option String := none
  description : Option String := none
  version : Option String := none
  sourcePath : Option String := none
  deriving DecidableEq

/-- A security setting. -/
structure SecurityConfiguration where
  configurationType : String
  authMethod : Option String := none
  allowedOrigins : Option String := none
  description : Option String := none
  sourcePath : Option String := none
  deriving DecidableEq

/-- The type of the settings that let browsers of other origins in. -/
def SecurityConfiguration.corsType : String := "CORS"

/-- Whether the setting lets browsers of other origins in. -/
def SecurityConfiguration.isCors (row : SecurityConfiguration) : Bool :=
  row.configurationType == corsType

/-- The setting that lets browsers of some origins in. -/
def SecurityConfiguration.cors (allowedOrigins : Option String) : SecurityConfiguration where
  configurationType := corsType
  allowedOrigins := allowedOrigins

/-- A description of a class in words. -/
structure ClassDescription where
  className : String
  description : String
  responsibility : Option String := none
  patterns : List String := []
  checksum : Option String := none
  sourcePath : Option String := none
  deriving DecidableEq

/-- A call of one method by another. -/
structure MethodCall where
  fromClass : String
  fromMethodSignature : String
  toClass : String
  toMethodSignature : String
  callerEntityId : Option String := none
  calledEntityId : Option String := none
  sourcePath : Option String := none
  deriving DecidableEq

/-! ## The rows of a kind -/

/-- The type of the rows of a kind. -/
abbrev Kind.Row : Kind → Type
  | .serviceEndpoints => ServiceEndpoint
  | .databaseConnections => DatabaseConnection
  | .externalServiceCalls => ExternalServiceCall
  | .messagingConnections => MessagingConnection
  | .serverConfiguration => ServerConfiguration
  | .dataAssets => DataAsset
  | .projectMetadata => ProjectMetadata
  | .securityConfiguration => SecurityConfiguration
  | .classDescriptions => ClassDescription
  | .methodCalls => MethodCall

instance (kind : Kind) : DecidableEq kind.Row :=
  match kind with
  | .serviceEndpoints => inferInstanceAs (DecidableEq ServiceEndpoint)
  | .databaseConnections => inferInstanceAs (DecidableEq DatabaseConnection)
  | .externalServiceCalls => inferInstanceAs (DecidableEq ExternalServiceCall)
  | .messagingConnections => inferInstanceAs (DecidableEq MessagingConnection)
  | .serverConfiguration => inferInstanceAs (DecidableEq ServerConfiguration)
  | .dataAssets => inferInstanceAs (DecidableEq DataAsset)
  | .projectMetadata => inferInstanceAs (DecidableEq ProjectMetadata)
  | .securityConfiguration => inferInstanceAs (DecidableEq SecurityConfiguration)
  | .classDescriptions => inferInstanceAs (DecidableEq ClassDescription)
  | .methodCalls => inferInstanceAs (DecidableEq MethodCall)

end ArchDoc.Fact
