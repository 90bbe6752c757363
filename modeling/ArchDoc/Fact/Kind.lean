/-!
# Kinds of facts

The closed set of fact tables that an architecture is derived from. The name of a kind is its key
in a snapshot.

Main definitions:

* `Kind`, `Kind.all`: the kinds, in the order in which they are listed.
* `Kind.name`, `Kind.ofName?`: the names, and the kind of a name.
* `Kind.isArchitectural`: whether rows of the kind justify a document on their own.
-/

namespace ArchDoc.Fact

/-- The kind of a fact table. -/
inductive Kind where
  | serviceEndpoints
  | databaseConnections
  | externalServiceCalls
  | messagingConnections
  | serverConfiguration
  | dataAssets
  | projectMetadata
  | securityConfiguration
  | classDescriptions
  | methodCalls
  deriving DecidableEq, Repr

namespace Kind

/-- Every kind, in order. -/
def all : List Kind :=
  [serviceEndpoints, databaseConnections, externalServiceCalls, messagingConnections,
    serverConfiguration, dataAssets, projectMetadata, securityConfiguration, classDescriptions,
    methodCalls]

/-- The name of a kind. -/
def name : Kind → String
  | serviceEndpoints => "service-endpoints"
  | databaseConnections => "database-connections"
  | externalServiceCalls => "external-service-calls"
  | messagingConnections => "messaging-connections"
  | serverConfiguration => "server-configuration"
  | dataAssets => "data-assets"
  | projectMetadata => "project-metadata"
  | securityConfiguration => "security-configuration"
  | classDescriptions => "class-descriptions"
  | methodCalls => "method-calls"

/-- The kind of a name. -/
def ofName? (name : String) : Option Kind :=
  all.find? (·.name == name)

/-- The wording of the error that a name is no kind. -/
def unknownMessage (name : String) : String :=
  "unknown fact table: '" ++ name ++ "'"

/-- Whether rows of the kind justify a document on their own; the other kinds only decorate
one. -/
def isArchitectural : Kind → Bool
  | serviceEndpoints | databaseConnections | externalServiceCalls | messagingConnections => true
  | serverConfiguration | dataAssets | projectMetadata | securityConfiguration
  | classDescriptions | methodCalls => false

/-- The place of a kind in the order of kinds. -/
def index (kind : Kind) : Nat :=
  all.idxOf kind

/-- Every kind is listed. -/
theorem mem_all (kind : Kind) : kind ∈ all := by
  cases kind <;> decide

end Kind

end ArchDoc.Fact
