import ArchDoc.Fact.Row
import ArchDoc.Record

/-!
# Columns of facts

The columns of the rows of each kind, in order, with what a cell of each may hold. A column that
is not an `Option` must be there for a row to be read, except that `ssl_enabled` and `patterns`
have defaults.
-/

namespace ArchDoc.Fact

instance : Record ServiceEndpoint where
  columns :=
    [⟨"service_class", false⟩, ⟨"http_method", false⟩, ⟨"path", false⟩, ⟨"framework", false⟩,
      ⟨"entity_id", false⟩, ⟨"source_path", false⟩, ⟨"method_name", false⟩, ⟨"produces", false⟩,
      ⟨"consumes", false⟩, ⟨"method_signature", false⟩]
  ofCells
    | [a, b, c, d, e, f, g, h, i, j] => do
      return {
        serviceClass := ← Cell.text a
        httpMethod := ← Cell.text b
        path := ← Cell.text c
        framework := ← Cell.text d
        entityId := ← Cell.text? e
        sourcePath := ← Cell.text? f
        methodName := ← Cell.text? g
        produces := ← Cell.text? h
        consumes := ← Cell.text? i
        methodSignature := ← Cell.text? j }
    | _ => none
  toCells row :=
    [.str row.serviceClass, .str row.httpMethod, .str row.path, .str row.framework,
      Cell.ofText? row.entityId, Cell.ofText? row.sourcePath, Cell.ofText? row.methodName,
      Cell.ofText? row.produces, Cell.ofText? row.consumes, Cell.ofText? row.methodSignature]

instance : Record DatabaseConnection where
  columns :=
    [⟨"entity_name", false⟩, ⟨"entity_class", false⟩, ⟨"repository_class", false⟩,
      ⟨"connection_type", false⟩, ⟨"database_type", false⟩, ⟨"source_path", false⟩]
  ofCells
    | [a, b, c, d, e, f] => do
      return {
        entityName := ← Cell.text a
        entityClass := ← Cell.text? b
        repositoryClass := ← Cell.text? c
        connectionType := ← Cell.text? d
        databaseType := ← Cell.text? e
        sourcePath := ← Cell.text? f }
    | _ => none
  toCells row :=
    [.str row.entityName, Cell.ofText? row.entityClass, Cell.ofText? row.repositoryClass,
      Cell.ofText? row.connectionType, Cell.ofText? row.databaseType, Cell.ofText? row.sourcePath]

instance : Record ExternalServiceCall where
  columns :=
    [⟨"client_class", false⟩, ⟨"target_service", false⟩, ⟨"client_type", false⟩,
      ⟨"protocol", false⟩, ⟨"base_url", false⟩, ⟨"source_path", false⟩]
  ofCells
    | [a, b, c, d, e, f] => do
      return {
        clientClass := ← Cell.text a
        targetService := ← Cell.text b
        clientType := ← Cell.text c
        protocol := ← Cell.text? d
        baseUrl := ← Cell.text? e
        sourcePath := ← Cell.text? f }
    | _ => none
  toCells row :=
    [.str row.clientClass, .str row.targetService, .str row.clientType, Cell.ofText? row.protocol,
      Cell.ofText? row.baseUrl, Cell.ofText? row.sourcePath]

instance : Record MessagingConnection where
  columns :=
    [⟨"class_name", false⟩, ⟨"destination", false⟩, ⟨"role", false⟩, ⟨"messaging_type", false⟩,
      ⟨"entity_id", false⟩, ⟨"method_name", false⟩, ⟨"method_signature", false⟩,
      ⟨"source_path", false⟩]
  ofCells
    | [a, b, c, d, e, f, g, h] => do
      return {
        className := ← Cell.text a
        destination := ← Cell.text b
        role := ← Cell.text c
        messagingType := ← Cell.text d
        entityId := ← Cell.text? e
        methodName := ← Cell.text? f
        methodSignature := ← Cell.text? g
        sourcePath := ← Cell.text? h }
    | _ => none
  toCells row :=
    [.str row.className, .str row.destination, .str row.role, .str row.messagingType,
      Cell.ofText? row.entityId, Cell.ofText? row.methodName, Cell.ofText? row.methodSignature,
      Cell.ofText? row.sourcePath]

instance : Record ServerConfiguration where
  columns :=
    [⟨"port", false⟩, ⟨"ssl_enabled", true⟩, ⟨"protocol", false⟩, ⟨"context_path", false⟩,
      ⟨"source_path", false⟩]
  ofCells
    | [a, b, c, d, e] => do
      return {
        port := ← Cell.port a
        sslEnabled := ← Cell.flag b
        protocol := ← Cell.text? c
        contextPath := ← Cell.text? d
        sourcePath := ← Cell.text? e }
    | _ => none
  toCells row :=
    [.int row.port.toNat, .bool row.sslEnabled, Cell.ofText? row.protocol,
      Cell.ofText? row.contextPath, Cell.ofText? row.sourcePath]

instance : Record DataAsset where
  columns :=
    [⟨"simple_name", false⟩, ⟨"asset_type", false⟩, ⟨"class_name", false⟩,
      ⟨"description", false⟩, ⟨"fields", false⟩, ⟨"source_path", false⟩]
  ofCells
    | [a, b, c, d, e, f] => do
      return {
        simpleName := ← Cell.text a
        assetType := ← Cell.text b
        className := ← Cell.text? c
        description := ← Cell.text? d
        fields := ← Cell.text? e
        sourcePath := ← Cell.text? f }
    | _ => none
  toCells row :=
    [.str row.simpleName, .str row.assetType, Cell.ofText? row.className,
      Cell.ofText? row.description, Cell.ofText? row.fields, Cell.ofText? row.sourcePath]

instance : Record ProjectMetadata where
  columns :=
    [⟨"artifact_id", false⟩, ⟨"group_id", false⟩, ⟨"name", false⟩, ⟨"description", false⟩,
      ⟨"version", false⟩, ⟨"source_path", false⟩]
  ofCells
    | [a, b, c, d, e, f] => do
      return {
        artifactId := ← Cell.text a
        groupId := ← Cell.text? b
        name := ← Cell.text? c
        description := ← Cell.text? d
        version := ← Cell.text? e
        sourcePath := ← Cell.text? f }
    | _ => none
  toCells row :=
    [.str row.artifactId, Cell.ofText? row.groupId, Cell.ofText? row.name,
      Cell.ofText? row.description, Cell.ofText? row.version, Cell.ofText? row.sourcePath]

instance : Record SecurityConfiguration where
  columns :=
    [⟨"configuration_type", false⟩, ⟨"auth_method", false⟩, ⟨"allowed_origins", false⟩,
      ⟨"description", false⟩, ⟨"source_path", false⟩]
  ofCells
    | [a, b, c, d, e] => do
      return {
        configurationType := ← Cell.text a
        authMethod := ← Cell.text? b
        allowedOrigins := ← Cell.text? c
        description := ← Cell.text? d
        sourcePath := ← Cell.text? e }
    | _ => none
  toCells row :=
    [.str row.configurationType, Cell.ofText? row.authMethod, Cell.ofText? row.allowedOrigins,
      Cell.ofText? row.description, Cell.ofText? row.sourcePath]

instance : Record ClassDescription where
  columns :=
    [⟨"class_name", false⟩, ⟨"description", false⟩, ⟨"responsibility", false⟩,
      ⟨"patterns", true⟩, ⟨"checksum", false⟩, ⟨"source_path", false⟩]
  ofCells
    | [a, b, c, d, e, f] => do
      return {
        className := ← Cell.text a
        description := ← Cell.text b
        responsibility := ← Cell.text? c
        patterns := ← Cell.texts d
        checksum := ← Cell.text? e
        sourcePath := ← Cell.text? f }
    | _ => none
  toCells row :=
    [.str row.className, .str row.description, Cell.ofText? row.responsibility,
      .arr (row.patterns.map .str), Cell.ofText? row.checksum, Cell.ofText? row.sourcePath]

instance : Record MethodCall where
  columns :=
    [⟨"from_class", false⟩, ⟨"from_method_signature", false⟩, ⟨"to_class", false⟩,
      ⟨"to_method_signature", false⟩, ⟨"caller_entity_id", false⟩, ⟨"called_entity_id", false⟩,
      ⟨"source_path", false⟩]
  ofCells
    | [a, b, c, d, e, f, g] => do
      return {
        fromClass := ← Cell.text a
        fromMethodSignature := ← Cell.text b
        toClass := ← Cell.text c
        toMethodSignature := ← Cell.text d
        callerEntityId := ← Cell.text? e
        calledEntityId := ← Cell.text? f
        sourcePath := ← Cell.text? g }
    | _ => none
  toCells row :=
    [.str row.fromClass, .str row.fromMethodSignature, .str row.toClass,
      .str row.toMethodSignature, Cell.ofText? row.callerEntityId,
      Cell.ofText? row.calledEntityId, Cell.ofText? row.sourcePath]

/-! ## The columns of a kind -/

instance (kind : Kind) : Record kind.Row :=
  match kind with
  | .serviceEndpoints => inferInstanceAs (Record ServiceEndpoint)
  | .databaseConnections => inferInstanceAs (Record DatabaseConnection)
  | .externalServiceCalls => inferInstanceAs (Record ExternalServiceCall)
  | .messagingConnections => inferInstanceAs (Record MessagingConnection)
  | .serverConfiguration => inferInstanceAs (Record ServerConfiguration)
  | .dataAssets => inferInstanceAs (Record DataAsset)
  | .projectMetadata => inferInstanceAs (Record ProjectMetadata)
  | .securityConfiguration => inferInstanceAs (Record SecurityConfiguration)
  | .classDescriptions => inferInstanceAs (Record ClassDescription)
  | .methodCalls => inferInstanceAs (Record MethodCall)

end ArchDoc.Fact
