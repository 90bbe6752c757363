import ArchDoc.Proofs.FactTables
import ArchDoc.Proofs.Offers

/-!
# What a document depends on

Passes read some columns of each row, of servers and projects the first row only, and calls of
methods not at all. Facts that agree in what is read make the same document, so whatever else is
reported about a codebase may change without a change of its document. Reading is taken apart into
the rows and columns that are read, and the columns whose empty text is read as a missing one; the
essence of facts is what is left.

Main definitions:

* `Facts.rowsRead`, `Fact.Kind.columnsRead`: the rows and the columns that are read.
* `Facts.Agrees`: facts of which the same is read.
* `Facts.essence`: facts with nothing but what is read.

Results:

* `steps_essence`: a pass does the same steps for facts and for their essence.
* `synthesize_essence`: and the document is the same.
* `steps_config`: what passes read of the settings.
* `synthesize_of_agrees`: facts that agree in what is read make the same document.
-/

namespace ArchDoc

open ArchDoc.Fact Identifier Synthesis

/-! ## What is read -/

namespace Fact.Kind

/-- A row with the columns that passes read, and with nothing in the others. Of the security of a
server they read the protocol that follows from it. -/
def columnsRead : (kind : Kind) → kind.Row → kind.Row
  | .serviceEndpoints, row =>
    { serviceClass := row.serviceClass, httpMethod := row.httpMethod, path := row.path,
      framework := "" }
  | .databaseConnections, row =>
    { entityName := row.entityName, entityClass := row.entityClass,
      repositoryClass := row.repositoryClass, databaseType := row.databaseType }
  | .externalServiceCalls, row =>
    { clientClass := row.clientClass, targetService := row.targetService,
      clientType := row.clientType, protocol := row.protocol }
  | .messagingConnections, row =>
    { className := row.className, destination := row.destination, role := row.role,
      messagingType := row.messagingType }
  | .serverConfiguration, row => { port := row.port, protocol := some row.effectiveProtocol }
  | .dataAssets, row =>
    { simpleName := row.simpleName, assetType := row.assetType, description := row.description }
  | .projectMetadata, row =>
    { artifactId := row.artifactId, name := row.name, description := row.description }
  | .securityConfiguration, row =>
    { configurationType := row.configurationType, allowedOrigins := row.allowedOrigins }
  | .classDescriptions, row => { className := row.className, description := row.description }
  | .methodCalls, row => row

/-- A row without the empty columns that passes read as missing ones. -/
def withoutEmpty : (kind : Kind) → kind.Row → kind.Row
  | .databaseConnections, row => { row with databaseType := nonEmpty row.databaseType }
  | .externalServiceCalls, row => { row with protocol := nonEmpty row.protocol }
  | .dataAssets, row => { row with description := nonEmpty row.description }
  | .projectMetadata, row =>
    { row with name := nonEmpty row.name, description := nonEmpty row.description }
  | .securityConfiguration, row => { row with allowedOrigins := nonEmpty row.allowedOrigins }
  | .serviceEndpoints, row | .messagingConnections, row | .serverConfiguration, row
  | .classDescriptions, row | .methodCalls, row => row

/-- What a row says to passes. -/
def essence (kind : Kind) (row : kind.Row) : kind.Row :=
  kind.withoutEmpty (kind.columnsRead row)

end Fact.Kind

namespace Facts

/-- The rows that passes read. -/
def rowsRead (facts : Facts) : (kind : Kind) → List kind.Row
  | .serverConfiguration => (facts.rows .serverConfiguration).take 1
  | .projectMetadata => (facts.rows .projectMetadata).take 1
  | .methodCalls => []
  | kind => facts.rows kind

/-- Facts of which passes read the same, row by row. -/
def Agrees (other facts : Facts) : Prop :=
  ∀ kind : Kind,
    (other.rowsRead kind).map kind.columnsRead = (facts.rowsRead kind).map kind.columnsRead

/-- What facts say to passes. -/
def essence (facts : Facts) : Facts :=
  ⟨fun kind => some ((facts.rowsRead kind).map kind.essence)⟩

theorem rows_essence (facts : Facts) (kind : Kind) :
    facts.essence.rows kind = (facts.rowsRead kind).map kind.essence :=
  rfl

theorem first?_server_essence (facts : Facts) :
    facts.essence.first? .serverConfiguration =
      (facts.first? .serverConfiguration).map (Kind.essence .serverConfiguration) := by
  unfold first?
  rw [rows_essence, rowsRead]
  cases facts.rows .serverConfiguration <;> rfl

theorem first?_project_essence (facts : Facts) :
    facts.essence.first? .projectMetadata =
      (facts.first? .projectMetadata).map (Kind.essence .projectMetadata) := by
  unfold first?
  rw [rows_essence, rowsRead]
  cases facts.rows .projectMetadata <;> rfl

end Facts

namespace Synthesis

/-- No text is left empty twice. -/
@[simp] theorem nonEmpty_nonEmpty (s : Option String) : nonEmpty (nonEmpty s) = nonEmpty s := by
  cases s with
  | none => rfl
  | some s => by_cases h : s.isEmpty = true <;> simp [nonEmpty, h]

/-! ## Passes read the essence of facts -/

section

variable (facts : Facts) (config : Config)

theorem serverProtocol_essence :
    Input.serverProtocol ⟨facts.essence, config⟩ = Input.serverProtocol ⟨facts, config⟩ := by
  unfold Input.serverProtocol
  rw [Facts.first?_server_essence]
  cases facts.first? .serverConfiguration <;> rfl

theorem serverPort_essence :
    Input.serverPort ⟨facts.essence, config⟩ = Input.serverPort ⟨facts, config⟩ := by
  unfold Input.serverPort
  rw [Facts.first?_server_essence]
  cases facts.first? .serverConfiguration <;> rfl

theorem systemSteps_essence :
    systemSteps ⟨facts.essence, config⟩ = systemSteps ⟨facts, config⟩ := by
  unfold systemSteps
  rw [Facts.first?_project_essence]
  cases facts.first? .projectMetadata with
  | none => rfl
  | some project =>
    simp [Kind.essence, Kind.columnsRead, Kind.withoutEmpty, systemNode]

/-! ### Services -/

theorem description?_essence (className : String) :
    Input.description? ⟨facts.essence, config⟩ className =
      Input.description? ⟨facts, config⟩ className := by
  unfold Input.description?
  rw [Facts.rows_essence, ← List.map_reverse, List.find?_map, Option.map_map]
  rfl

theorem exposingClasses_essence : exposingClasses facts.essence = exposingClasses facts := by
  unfold exposingClasses
  rw [Facts.rows_essence, List.map_map]
  rfl

theorem endpointSummary_map_essence (limit : Nat) (endpoints : List ServiceEndpoint) :
    endpointSummary limit (endpoints.map (Kind.essence .serviceEndpoints)) =
      endpointSummary limit endpoints := by
  unfold endpointSummary
  rw [← List.map_take, List.map_map, List.length_map]
  rfl

theorem serviceNode_essence (className : String) :
    serviceNode ⟨facts.essence, config⟩ className = serviceNode ⟨facts, config⟩ className := by
  have hendpoints : rowsOf (facts.essence.rows .serviceEndpoints) className =
      (rowsOf (facts.rows .serviceEndpoints) className).map (Kind.essence .serviceEndpoints) := by
    rw [Facts.rows_essence]
    exact List.filter_map
  unfold serviceNode exposingNode
  dsimp only
  rw [description?_essence, serverProtocol_essence, serverPort_essence, hendpoints,
    endpointSummary_map_essence]

theorem serviceSteps_essence :
    serviceSteps ⟨facts.essence, config⟩ = serviceSteps ⟨facts, config⟩ := by
  rw [serviceSteps_eq, serviceSteps_eq]
  dsimp only
  rw [exposingClasses_essence, Facts.rows_essence, List.filter_map, List.map_map]
  simp only [serviceNode_essence]
  rfl

/-! ### The other passes -/

theorem dataAssetSteps_essence :
    dataAssetSteps ⟨facts.essence, config⟩ = dataAssetSteps ⟨facts, config⟩ := by
  unfold dataAssetSteps
  rw [Facts.rows_essence, List.map_map]
  apply List.map_congr_left
  intro asset _
  simp [Kind.essence, Kind.columnsRead, Kind.withoutEmpty, dataAssetNode]

theorem webClientSteps_essence (owners : Owners) :
    webClientSteps ⟨facts.essence, config⟩ owners = webClientSteps ⟨facts, config⟩ owners := by
  have hrows : corsRows ⟨facts.essence, config⟩ =
      (corsRows ⟨facts, config⟩).map (Kind.essence .securityConfiguration) :=
    List.filter_map
  have horigins : ∀ rows : List SecurityConfiguration,
      (rows.map (Kind.essence .securityConfiguration)).findSome?
          (fun row => nonEmpty row.allowedOrigins) =
        rows.findSome? fun row => nonEmpty row.allowedOrigins := by
    intro rows
    rw [List.findSome?_map]
    congr 1
    funext row
    exact nonEmpty_nonEmpty row.allowedOrigins
  unfold webClientSteps
  rw [hrows, horigins, serverProtocol_essence, List.isEmpty_map]

theorem databaseSteps_map_essence (owners : Owners) (rows : List DatabaseConnection) :
    ∀ seen, databaseSteps owners seen (rows.map (Kind.essence .databaseConnections)) =
      databaseSteps owners seen rows := by
  induction rows with
  | nil => intro seen; rfl
  | cons row rows ih =>
    intro seen
    have hnode : databaseNode (Kind.essence .databaseConnections row) = databaseNode row := by
      simp [Kind.essence, Kind.columnsRead, Kind.withoutEmpty, databaseNode]
    rw [List.map_cons, databaseSteps, databaseSteps, ih, ih, hnode]
    rfl

theorem externalServiceSteps_map_essence (owners : Owners) (calls : List ExternalServiceCall) :
    ∀ seen, externalServiceSteps owners seen (calls.map (Kind.essence .externalServiceCalls)) =
      externalServiceSteps owners seen calls := by
  induction calls with
  | nil => intro seen; rfl
  | cons call calls ih =>
    intro seen
    have hlink : ∀ caller,
        externalServiceRelationship caller (Kind.essence .externalServiceCalls call) =
          externalServiceRelationship caller call := by
      intro caller
      simp [Kind.essence, Kind.columnsRead, Kind.withoutEmpty, externalServiceRelationship]
    rw [List.map_cons, externalServiceSteps, externalServiceSteps, ih, ih]
    simp only [hlink]
    rfl

theorem messagingSteps_map_essence (owners : Owners) (rows : List MessagingConnection) :
    ∀ seen, messagingSteps owners seen (rows.map (Kind.essence .messagingConnections)) =
      messagingSteps owners seen rows := by
  induction rows with
  | nil => intro seen; rfl
  | cons row rows ih =>
    intro seen
    rw [List.map_cons, messagingSteps, messagingSteps, ih]
    simp only [ih]
    rfl

/-- A pass does the same steps for facts and for their essence. -/
theorem steps_essence (draft : Draft) (pass : Pass) :
    pass.steps ⟨facts.essence, config⟩ draft = pass.steps ⟨facts, config⟩ draft := by
  cases pass with
  | system => exact systemSteps_essence facts config
  | services => exact serviceSteps_essence facts config
  | dataAssets => exact dataAssetSteps_essence facts config
  | webClient => exact webClientSteps_essence facts config draft.owners
  | databases => exact databaseSteps_map_essence draft.owners _ []
  | externalServices => exact externalServiceSteps_map_essence draft.owners _ []
  | messaging => exact messagingSteps_map_essence draft.owners _ []
  | composition => rfl

end

/-! ## Documents -/

/-- Passes that do the same steps from every draft make the same draft. -/
theorem runPasses_congr {input other : Input}
    (h : ∀ draft (pass : Pass), pass.steps other draft = pass.steps input draft) (draft : Draft)
    (passes : List Pass) : runPasses other draft passes = runPasses input draft passes := by
  have hpass : runPass other = runPass input := by
    funext draft pass
    rw [runPass, runPass, h]
  rw [runPasses, runPasses, hpass]

/-- Whether facts justify a document depends on how many rows the tables have that do. -/
theorem isArchitectural_congr {facts other : Facts}
    (h : ∀ kind : Kind, kind.isArchitectural = true → other.count kind = facts.count kind) :
    other.isArchitectural = facts.isArchitectural := by
  unfold Facts.isArchitectural
  congr 1
  funext kind
  cases hkind : kind.isArchitectural with
  | false => rfl
  | true => rw [h kind hkind]

theorem isArchitectural_essence (facts : Facts) :
    facts.essence.isArchitectural = facts.isArchitectural := by
  apply isArchitectural_congr
  intro kind h
  cases kind with
  | serviceEndpoints | databaseConnections | externalServiceCalls | messagingConnections =>
    exact List.length_map _
  | serverConfiguration | dataAssets | projectMetadata | securityConfiguration
  | classDescriptions | methodCalls => exact absurd h Bool.false_ne_true

/-- Facts and their essence make the same document. -/
theorem synthesize_essence (facts : Facts) (config : Config) :
    synthesize facts.essence config = synthesize facts config := by
  have hdraft : finalDraft facts.essence config = finalDraft facts config :=
    runPasses_congr (steps_essence facts config) _ _
  rw [synthesize, synthesize, isArchitectural_essence, hdraft]

/-! ## Settings -/

/-- Of the settings, passes read how many endpoints a description lists, and the rest only where the
facts know no server. -/
theorem steps_config {facts : Facts} (hserver : facts.rows .serverConfiguration ≠ [])
    {config other : Config} (hlimit : other.endpointSummaryLimit = config.endpointSummaryLimit)
    (draft : Draft) (pass : Pass) :
    pass.steps ⟨facts, other⟩ draft = pass.steps ⟨facts, config⟩ draft := by
  obtain ⟨server, rest, hrows⟩ := List.exists_cons_of_ne_nil hserver
  have hprotocol : Input.serverProtocol ⟨facts, other⟩ = Input.serverProtocol ⟨facts, config⟩ := by
    simp only [Input.serverProtocol, Facts.first?, hrows, List.head?_cons]
  have hport : Input.serverPort ⟨facts, other⟩ = Input.serverPort ⟨facts, config⟩ := by
    simp only [Input.serverPort, Facts.first?, hrows, List.head?_cons]
  have hnode : ∀ className,
      serviceNode ⟨facts, other⟩ className = serviceNode ⟨facts, config⟩ className := by
    intro className
    unfold serviceNode exposingNode
    dsimp only
    rw [hprotocol, hport, hlimit]
    rfl
  cases pass with
  | services =>
    rw [Pass.steps, Pass.steps, serviceSteps_eq, serviceSteps_eq]
    simp only [hnode]
  | webClient =>
    rw [Pass.steps, Pass.steps, webClientSteps, webClientSteps, hprotocol]
    rfl
  | system | dataAssets | databases | externalServices | messaging | composition => rfl

theorem synthesize_config {facts : Facts} (hserver : facts.rows .serverConfiguration ≠ [])
    {config other : Config} (hschema : other.schema = config.schema)
    (hlimit : other.endpointSummaryLimit = config.endpointSummaryLimit) :
    synthesize facts other = synthesize facts config := by
  have hdraft : finalDraft facts other = finalDraft facts config :=
    runPasses_congr (steps_config hserver hlimit) _ _
  rw [synthesize, synthesize, hdraft, hschema]

end Synthesis

/-! ## Facts that agree -/

namespace Facts

variable {facts other : Facts}

theorem Agrees.essence_eq (h : other.Agrees facts) : other.essence = facts.essence := by
  ext1 kind
  have hkind := congrArg (List.map kind.withoutEmpty) (h kind)
  rw [List.map_map, List.map_map] at hkind
  exact congrArg some hkind

theorem rowsRead_congr {kind : Kind} (h : other.rows kind = facts.rows kind) :
    other.rowsRead kind = facts.rowsRead kind := by
  cases kind <;> simp only [rowsRead, h]

/-- A change of one table of which the same is read. -/
theorem agrees_setTable {kind : Kind} {rows : List kind.Row}
    (h : (facts.setTable kind rows).rowsRead kind = facts.rowsRead kind) :
    (facts.setTable kind rows).Agrees facts := by
  intro read
  by_cases hkind : kind = read
  · subst hkind
    rw [h]
  · rw [rowsRead_congr (rows_setTable_of_ne hkind rows)]

theorem agrees_setTable_methodCalls (facts : Facts) (calls : List MethodCall) :
    (facts.setTable .methodCalls calls).Agrees facts :=
  agrees_setTable rfl

/-- A table without rows may be there or not. -/
theorem agrees_setTable_nil {kind : Kind} (h : facts.rows kind = []) :
    (facts.setTable kind []).Agrees facts :=
  agrees_setTable (rowsRead_congr ((rows_setTable_self facts kind []).trans h.symm))

/-- After the first server and the first project come no others that are read. -/
theorem agrees_extend {kind : Kind} (hkind : kind = .serverConfiguration ∨ kind = .projectMetadata)
    (h : facts.rows kind ≠ []) (later : List kind.Row) :
    (facts.extend kind later).Agrees facts := by
  have htake : (facts.rows kind ++ later).take 1 = (facts.rows kind).take 1 :=
    List.take_append_of_le_length (List.length_pos_iff.mpr h)
  have hrows := rows_setTable_self facts kind (facts.rows kind ++ later)
  apply agrees_setTable
  rcases hkind with rfl | rfl
  · rw [rowsRead, rowsRead, hrows, htake]
  · rw [rowsRead, rowsRead, hrows, htake]

end Facts

namespace Synthesis

theorem synthesize_congr {facts other : Facts} (h : other.Agrees facts) (config : Config) :
    synthesize other config = synthesize facts config := by
  rw [← synthesize_essence other, h.essence_eq, synthesize_essence]

/-- **Main theorem.** Facts of which the same is read make the same document. So it makes no
difference which calls of methods there are, which servers and projects after the first ones, and
whether a table without rows is there; nor do the default protocol and port where there is a
server. -/
theorem synthesize_of_agrees (facts : Facts) (config : Config) :
    (∀ other : Facts, other.Agrees facts →
      synthesize other config = synthesize facts config) ∧
    (∀ calls, synthesize (facts.setTable .methodCalls calls) config = synthesize facts config) ∧
    (∀ kind, kind = .serverConfiguration ∨ kind = .projectMetadata → facts.rows kind ≠ [] →
      ∀ later, synthesize (facts.extend kind later) config = synthesize facts config) ∧
    (∀ kind, facts.rows kind = [] →
      synthesize (facts.setTable kind []) config = synthesize facts config) ∧
    (facts.rows .serverConfiguration ≠ [] → ∀ protocol port,
      synthesize facts { config with defaultProtocol := protocol, defaultPort := port } =
        synthesize facts config) := by
  refine ⟨fun other h => synthesize_congr h config, ?_, ?_, ?_, ?_⟩
  · intro calls
    exact synthesize_congr (facts.agrees_setTable_methodCalls calls) config
  · intro kind hkind hrows later
    exact synthesize_congr (Facts.agrees_extend hkind hrows later) config
  · intro kind hrows
    exact synthesize_congr (Facts.agrees_setTable_nil hrows) config
  · intro hserver protocol port
    exact synthesize_config hserver rfl rfl

/-- A service behind a server. -/
def servedOrders : Facts :=
  (Facts.empty.insert .serviceEndpoints
      { serviceClass := "shop.OrderService", httpMethod := "GET", path := "/",
        framework := "Spring" }).insert
    .serverConfiguration { port := 8443, sslEnabled := true }

/-- The same, as far as it is read: the endpoint is declared by another framework, the server names
the protocol that it has, and there is another server. -/
def servedOrdersAnew : Facts :=
  ((Facts.empty.insert .serviceEndpoints
      { serviceClass := "shop.OrderService", httpMethod := "GET", path := "/",
        framework := "Micronaut", methodName := some "orders" }).insert
    .serverConfiguration
      { port := 8443, protocol := some "HTTPS", contextPath := some "/shop" }).insert
    .serverConfiguration { port := 80 }

/-- A service that moves to another framework keeps its document. -/
theorem synthesize_of_agrees_servedOrders :
    servedOrdersAnew.Agrees servedOrders ∧ servedOrders.rows .serverConfiguration ≠ [] ∧
      ∃ document, synthesize servedOrders .default = some document ∧
        synthesize servedOrdersAnew .default = some document ∧
        synthesize (servedOrders.extend .serverConfiguration [{ port := 80 }]) .default =
          some document ∧
        synthesize servedOrders { defaultProtocol := "gRPC", defaultPort := 9090 } =
          some document := by
  have hagrees : servedOrdersAnew.Agrees servedOrders := by
    intro kind
    cases kind <;> rfl
  have hserver : servedOrders.rows .serverConfiguration ≠ [] := by decide
  obtain ⟨hsame, _, hlater, _, hdefaults⟩ := synthesize_of_agrees servedOrders .default
  obtain ⟨document, hdocument⟩ : ∃ document, synthesize servedOrders .default = some document :=
    ⟨_, rfl⟩
  refine ⟨hagrees, hserver, document, hdocument, (hsame _ hagrees).trans hdocument, ?_, ?_⟩
  · exact (hlater .serverConfiguration (.inl rfl) hserver _).trans hdocument
  · exact (hdefaults hserver "gRPC" 9090).trans hdocument

end Synthesis

end ArchDoc
