import ArchDoc.Proofs.Absorption
import ArchDoc.Proofs.EndpointGroups

/-!
# What passes offer

Each pass offers its candidates and nothing else, whatever the draft holds when it starts: the
loops with their sets of identifiers seen are filters for the first row of each key.

Results:

* `relationships_steps`: the relationships of a pass are its candidates.
* `keepFirst_nodes_steps`: the nodes of a pass are its candidates, up to candidates whose
  identifier an earlier one has.
* `owners_steps`, `systems_steps`: only the services pass registers classes, and only the system
  pass offers a system node.
-/

namespace ArchDoc.Synthesis

open ArchDoc.Fact Identifier

variable {β ρ : Type}

/-! ## Loops that act once for each key -/

/-- The relationship, or a report that there is none. -/
def linkOr (message : String) (fields : List (String × Journal.Datum)) :
    Option Relationship → Step
  | none => .note message fields
  | some relationship => .relationship relationship

/-- What a loop over rows does that reports the rows without a name and gives, for the first row
of each key, a node and a relationship or a report. -/
structure RowLoop (ρ : Type) where
  key : ρ → String
  named : ρ → Bool
  node : ρ → Node
  edge : ρ → Option Relationship
  unnamed : ρ → String × List (String × Journal.Datum)
  unlinked : ρ → String × List (String × Journal.Datum)

namespace RowLoop

/-- The steps for one row that is the first of its key. -/
def act (loop : RowLoop ρ) (row : ρ) : List Step :=
  [.node (loop.node row), linkOr (loop.unlinked row).1 (loop.unlinked row).2 (loop.edge row)]

/-- The steps of a loop, with the keys seen so far. -/
def steps (loop : RowLoop ρ) : List String → List ρ → List Step
  | _, [] => []
  | seen, row :: rows =>
    if loop.named row then
      if seen.contains (loop.key row) then loop.steps seen rows
      else loop.act row ++ loop.steps (loop.key row :: seen) rows
    else .note (loop.unnamed row).1 (loop.unnamed row).2 :: loop.steps seen rows

/-- A loop is a filter for rows with a name and for first rows. -/
theorem filterMap_steps (loop : RowLoop ρ) {f : Step → Option β}
    (hnote : ∀ message fields, f (.note message fields) = none) :
    ∀ (rows : List ρ) (seen : List String),
      (loop.steps seen rows).filterMap f =
        ((keepFirst loop.key (rows.filter loop.named)).filter fun row =>
          loop.key row ∉ seen).flatMap fun row => (loop.act row).filterMap f := by
  intro rows
  induction rows with
  | nil => intro seen; rfl
  | cons row rows ih =>
    intro seen
    rw [steps, List.filter_cons]
    split_ifs with hnamed hseen
    · have hmem : loop.key row ∈ seen := by simpa using hseen
      rw [ih, filter_keepFirst_cons_of_mem hmem]
    · have hmem : loop.key row ∉ seen := by simpa using hseen
      rw [List.filterMap_append, ih, filter_keepFirst_cons_of_not_mem hmem, List.flatMap_cons]
    · rw [List.filterMap_cons, hnote]
      exact ih seen

theorem filterMap_steps_nil (loop : RowLoop ρ) {f : Step → Option β}
    (hnote : ∀ message fields, f (.note message fields) = none) (rows : List ρ) :
    (loop.steps [] rows).filterMap f =
      (keepFirst loop.key (rows.filter loop.named)).flatMap fun row =>
        (loop.act row).filterMap f := by
  rw [loop.filterMap_steps hnote]
  simp only [List.not_mem_nil, not_false_eq_true, decide_true, List.filter_true]

theorem nodes_steps (loop : RowLoop ρ) (rows : List ρ) :
    (loop.steps [] rows).filterMap Step.node? =
      (keepFirst loop.key (rows.filter loop.named)).map loop.node := by
  rw [loop.filterMap_steps_nil fun _ _ => rfl, List.map_eq_flatMap]
  apply List.flatMap_congr
  intro row _
  unfold act
  cases loop.edge row <;> rfl

theorem relationships_steps (loop : RowLoop ρ) (rows : List ρ) :
    (loop.steps [] rows).filterMap Step.relationship? =
      (keepFirst loop.key (rows.filter loop.named)).filterMap loop.edge := by
  rw [loop.filterMap_steps_nil fun _ _ => rfl, List.filterMap_eq_flatMap_toList]
  apply List.flatMap_congr
  intro row _
  unfold act
  cases loop.edge row <;> rfl

/-- A loop offers nodes and relationships only. -/
theorem filterMap_steps_eq_nil (loop : RowLoop ρ) {f : Step → Option β}
    (hnote : ∀ message fields, f (.note message fields) = none)
    (hnode : ∀ node, f (.node node) = none)
    (hlink : ∀ relationship, f (.relationship relationship) = none) (rows : List ρ) :
    (loop.steps [] rows).filterMap f = [] := by
  rw [loop.filterMap_steps_nil hnote, List.flatMap_eq_nil_iff]
  intro row _
  rw [act, List.filterMap_cons, hnode, List.filterMap_cons]
  cases loop.edge row with
  | none => rw [linkOr, hnote]; rfl
  | some relationship => rw [linkOr, hlink]; rfl

end RowLoop

/-! ## Databases and external services -/

/-- The loop over database rows. -/
def databaseLoop (owners : Owners) : RowLoop DatabaseConnection where
  key row := databaseId row.entityName
  named row := !row.entityName.isEmpty
  node := databaseNode
  edge row := (databaseOwner owners row).map fun owner =>
    databaseRelationship owner (databaseId row.entityName)
  unnamed _ := ("database connection without entity, skipping", [])
  unlinked row := ("no owning service found", [("database", .text (databaseId row.entityName))])

theorem databaseSteps_eq (owners : Owners) (rows : List DatabaseConnection) :
    ∀ seen : List String,
      databaseSteps owners seen rows = (databaseLoop owners).steps seen rows := by
  induction rows with
  | nil => intro seen; rfl
  | cons row rows ih =>
    intro seen
    rw [databaseSteps, RowLoop.steps, ih, ih]
    by_cases hname : row.entityName.isEmpty = true
    · simp [databaseLoop, hname]
    · cases h : databaseOwner owners row <;>
        simp [databaseLoop, RowLoop.act, linkOr, hname, h]

/-- The loop over external calls. -/
def externalServiceLoop (owners : Owners) : RowLoop ExternalServiceCall where
  key call := slug call.targetService
  named call := !call.targetService.isEmpty
  node := externalServiceNode
  edge call := (owners.resolve call.clientClass).map fun caller =>
    externalServiceRelationship caller call
  unnamed call := ("external call without target, skipping", [("client", .text call.clientClass)])
  unlinked call := ("no calling service found", [("external", .text (slug call.targetService))])

theorem externalServiceSteps_eq (owners : Owners) (calls : List ExternalServiceCall) :
    ∀ seen : List String,
      externalServiceSteps owners seen calls = (externalServiceLoop owners).steps seen calls := by
  induction calls with
  | nil => intro seen; rfl
  | cons call calls ih =>
    intro seen
    rw [externalServiceSteps, RowLoop.steps, ih, ih]
    by_cases hname : call.targetService.isEmpty = true
    · simp [externalServiceLoop, hname]
    · cases h : owners.resolve call.clientClass <;>
        simp [externalServiceLoop, RowLoop.act, linkOr, hname, h]

/-! ## Messaging -/

theorem node?_messagingLink (owners : Owners) (row : MessagingConnection) (id : String) :
    (messagingLink owners row id).node? = none := by
  unfold messagingLink
  cases owners.resolve row.className <;> cases row.messagingRole <;> rfl

theorem relationship?_messagingLink (owners : Owners) (row : MessagingConnection) (id : String) :
    (messagingLink owners row id).relationship? = messagingEdge owners id row := by
  unfold messagingLink messagingEdge
  cases owners.resolve row.className <;> cases row.messagingRole <;> rfl

theorem nodes_messagingSteps (owners : Owners) (rows : List MessagingConnection) :
    ∀ seen : List (String × String),
      (messagingSteps owners seen rows).filterMap Step.node? =
        ((keepFirst (·.destination) (namedDestinations rows)).filter fun row =>
          row.destination ∉ seen.map Prod.fst).map messagingNode := by
  induction rows with
  | nil => intro seen; rfl
  | cons row rows ih =>
    intro seen
    rw [messagingSteps, namedDestinations, List.filter_cons]
    by_cases hname : row.destination.isEmpty = true
    · simp only [hname, if_true, Bool.not_true, Bool.false_eq_true, if_false]
      exact ih seen
    · simp only [hname, Bool.false_eq_true, if_false, Bool.not_false, if_true]
      cases hfind : seen.find? fun e => e.1 == row.destination with
      | some e =>
        have hmem : row.destination ∈ seen.map Prod.fst := by
          have heq := List.find?_some hfind
          exact List.mem_map.mpr ⟨e, List.mem_of_find?_eq_some hfind, by simpa using heq⟩
        rw [filter_keepFirst_cons_of_mem hmem]
        simp only [List.filterMap_cons, node?_messagingLink]
        exact ih seen
      | none =>
        have hmem : row.destination ∉ seen.map Prod.fst := by
          intro h
          obtain ⟨e, he, heq⟩ := List.mem_map.mp h
          simpa [heq] using List.find?_eq_none.mp hfind e he
        rw [filter_keepFirst_cons_of_not_mem hmem]
        simp only [List.filterMap_cons, Step.node?_node, node?_messagingLink, List.map_cons]
        exact congrArg (messagingNode row :: ·) (ih _)

/-- The destinations seen stand with the identifiers that the first rows read name for them. -/
def Remembers (seen : List (String × String)) (read : List MessagingConnection) : Prop :=
  ∀ destination, (seen.find? fun e => e.1 == destination).map Prod.snd =
    (read.find? fun row => row.destination = destination).map fun row => (messagingNode row).id

/-- A row whose destination was seen changes nothing, and its node has the identifier seen. -/
theorem Remembers.again {seen : List (String × String)} {read : List MessagingConnection}
    (h : Remembers seen read) {row : MessagingConnection} {e : String × String}
    (hfind : (seen.find? fun e => e.1 == row.destination) = some e) :
    Remembers seen (read ++ [row]) ∧
      ∀ later, (messagingNode (namingRow (read ++ later) row)).id = e.2 := by
  have hread := h row.destination
  rw [hfind, Option.map_some, eq_comm, Option.map_eq_some_iff] at hread
  obtain ⟨first, hfirst, hid⟩ := hread
  constructor
  · intro destination
    rw [h destination, List.find?_append]
    by_cases hd : row.destination = destination
    · rw [← hd, hfirst]
      rfl
    · rw [List.find?_singleton, if_neg (by simpa using hd), Option.or_none]
  · intro later
    rw [namingRow, List.find?_append, hfirst]
    exact hid

/-- A row with a new destination names its node. -/
theorem Remembers.new {seen : List (String × String)} {read : List MessagingConnection}
    (h : Remembers seen read) {row : MessagingConnection}
    (hfind : (seen.find? fun e => e.1 == row.destination) = none) :
    Remembers ((row.destination, (messagingNode row).id) :: seen) (read ++ [row]) ∧
      ∀ later, namingRow (read ++ row :: later) row = row := by
  have hread := h row.destination
  rw [hfind, Option.map_none, eq_comm, Option.map_eq_none_iff] at hread
  constructor
  · intro destination
    rw [List.find?_cons, List.find?_append]
    by_cases hd : row.destination = destination
    · rw [← hd, hread]
      simp
    · have hd' : (row.destination == destination) = false := by simpa using hd
      simp only [hd']
      rw [h destination, List.find?_singleton, if_neg (by simpa using hd), Option.or_none]
  · intro later
    rw [namingRow, List.find?_append, hread]
    simp

theorem relationships_messagingSteps (owners : Owners) (rows : List MessagingConnection) :
    ∀ (read : List MessagingConnection) (seen : List (String × String)), Remembers seen read →
      (messagingSteps owners seen rows).filterMap Step.relationship? =
        (namedDestinations rows).filterMap fun row =>
          messagingEdge owners (messagingNode (namingRow (read ++ namedDestinations rows) row)).id
            row := by
  induction rows with
  | nil => intro read seen _; rfl
  | cons row rows ih =>
    intro read seen h
    rw [messagingSteps, namedDestinations, List.filter_cons]
    by_cases hname : row.destination.isEmpty = true
    · simp only [hname, if_true, Bool.not_true, Bool.false_eq_true, if_false]
      exact ih read seen h
    · simp only [hname, Bool.false_eq_true, if_false, Bool.not_false, if_true]
      -- the row read last moves from the rows to come to the rows read
      have hmove : read ++ row :: namedDestinations rows =
          (read ++ [row]) ++ namedDestinations rows := by simp
      cases hfind : seen.find? fun e => e.1 == row.destination with
      | some e =>
        obtain ⟨hnext, hid⟩ := h.again hfind
        simp only [List.filterMap_cons, relationship?_messagingLink, ih _ _ hnext]
        rw [← namedDestinations, hid, hmove]
      | none =>
        obtain ⟨hnext, hrow⟩ := h.new hfind
        simp only [List.filterMap_cons, Step.relationship?_node, relationship?_messagingLink]
        rw [← namedDestinations, hrow, hmove]
        rw [← ih _ _ hnext]
        rfl

/-- Messaging steps offer nodes and relationships only. -/
theorem filterMap_messagingSteps {f : Step → Option β}
    (hnote : ∀ message fields, f (.note message fields) = none)
    (hnode : ∀ node, f (.node node) = none)
    (hlink : ∀ relationship, f (.relationship relationship) = none) (owners : Owners)
    (rows : List MessagingConnection) :
    ∀ seen : List (String × String), (messagingSteps owners seen rows).filterMap f = [] := by
  have hlinks : ∀ row id, f (messagingLink owners row id) = none := by
    intro row id
    unfold messagingLink
    cases owners.resolve row.className with
    | none => exact hnote _ _
    | some service => cases row.messagingRole <;> first | exact hlink _ | exact hnote _ _
  induction rows with
  | nil => intro seen; rfl
  | cons row rows ih =>
    intro seen
    rw [messagingSteps]
    split_ifs with hname
    · rw [List.filterMap_cons, hnote]
      exact ih seen
    · cases seen.find? fun e => e.1 == row.destination with
      | some e =>
        simp only [List.filterMap_cons, hlinks]
        exact ih seen
      | none =>
        simp only [List.filterMap_cons, hnode, hlinks]
        exact ih _

/-! ## Services and the web client -/

theorem serviceIds_eq (owners : Owners) :
    owners.serviceIds = keepFirst id (owners.entries.map (·.2)) :=
  eraseDups_eq_keepFirst _

/-- The services pass offers a service for each class with endpoints. -/
theorem serviceSteps_eq (input : Input) :
    serviceSteps input =
      ((input.facts.rows .serviceEndpoints).filter (·.serviceClass.isEmpty)).map (fun row =>
        .note "endpoint without owning class, skipping" [("path", .text row.path)]) ++
      (exposingClasses input.facts).flatMap (fun className =>
        [.node (serviceNode input className), .owner className (serviceId className)]) ++
      [.ownerCount] := by
  rw [serviceSteps, grouped_eq, filtered, List.flatMap_map]
  rfl

/-- What the services pass offers of one kind. -/
theorem filterMap_serviceSteps {f : Step → Option β}
    (hnote : ∀ message fields, f (.note message fields) = none) (hcount : f .ownerCount = none)
    (input : Input) :
    (serviceSteps input).filterMap f = (exposingClasses input.facts).flatMap fun className =>
      [Step.node (serviceNode input className), .owner className (serviceId className)].filterMap
        f := by
  have hnotes : ∀ rows : List ServiceEndpoint, (rows.map fun row =>
      Step.note "endpoint without owning class, skipping" [("path", .text row.path)]).filterMap f =
        [] := by
    intro rows
    rw [List.filterMap_eq_nil_iff]
    intro step hstep
    obtain ⟨row, _, rfl⟩ := List.mem_map.mp hstep
    exact hnote _ _
  rw [serviceSteps_eq, List.filterMap_append, List.filterMap_append, hnotes,
    List.filterMap_flatMap, List.nil_append, List.filterMap_cons, hcount]
  exact List.append_nil _

theorem primaryService_eq (input : Input) (owners : Owners) :
    primaryService input owners =
      if (corsRows input).isEmpty then none else owners.serviceIds.head? := by
  have hhead : owners.serviceIds.head? = owners.entries.head?.map (·.2) := by
    rw [serviceIds_eq, head?_keepFirst, List.head?_map]
  have hcors : (corsRows input).isEmpty = true ↔
      ¬(input.facts.rows .securityConfiguration).any (·.isCors) = true := by
    simp [corsRows]
  rw [primaryService, hhead]
  split_ifs with hany hempty hempty
  · exact absurd hany (hcors.mp hempty)
  · rfl
  · rfl
  · exact absurd (hcors.mpr hany) hempty

/-- What the web client pass offers of one kind. -/
theorem filterMap_webClientSteps {f : Step → Option β}
    (hnote : ∀ message fields, f (.note message fields) = none) (input : Input) (owners : Owners) :
    (webClientSteps input owners).filterMap f =
      (primaryService input owners).toList.flatMap fun primary =>
        [Step.node (webClientNode (clientOrigins input)),
          .relationship (webClientRelationship input.serverProtocol primary)].filterMap f := by
  rw [primaryService_eq, webClientSteps]
  split_ifs with hcors
  · rfl
  · cases owners.serviceIds.head? with
    | none =>
      rw [List.filterMap_cons, hnote]
      rfl
    | some primary =>
      rw [Option.toList_some, List.flatMap_singleton]
      rfl

/-! ## The system and data assets -/

/-- What the system pass offers of one kind. -/
theorem filterMap_systemSteps {f : Step → Option β}
    (hnote : ∀ message fields, f (.note message fields) = none) (input : Input) :
    (systemSteps input).filterMap f =
      (namedProject input.facts).toList.flatMap fun project =>
        [Step.system (systemNode project)].filterMap f := by
  unfold systemSteps namedProject
  cases input.facts.first? .projectMetadata with
  | none => rfl
  | some project =>
    by_cases hname : project.artifactId.isEmpty = true
    · simp only [hname, if_true, Option.filter_some, Bool.not_true, Bool.false_eq_true, if_false]
      rw [List.filterMap_cons, hnote]
      rfl
    · simp only [hname, Bool.false_eq_true, if_false, Option.filter_some, Bool.not_false, if_true]
      rw [Option.toList_some, List.flatMap_singleton]

/-- What the data assets pass offers of one kind. -/
theorem filterMap_dataAssetSteps {f : Step → Option β}
    (hnote : ∀ message fields, f (.note message fields) = none) (input : Input) :
    (dataAssetSteps input).filterMap f =
      (namedAssets input.facts).flatMap fun asset =>
        [Step.node (dataAssetNode asset)].filterMap f := by
  unfold dataAssetSteps namedAssets
  induction input.facts.rows .dataAssets with
  | nil => rfl
  | cons asset assets ih =>
    rw [List.map_cons, List.filterMap_cons, List.filter_cons]
    by_cases hname : asset.simpleName.isEmpty = true
    · simp only [hname, if_true, hnote, Bool.not_true, Bool.false_eq_true, if_false]
      exact ih
    · simp only [hname, Bool.false_eq_true, if_false, Bool.not_false, if_true, List.flatMap_cons,
        ← ih]
      rw [List.filterMap_cons]
      cases f (.node (dataAssetNode asset)) <;> rfl

/-! ## Composition -/

/-- What the composition pass offers of one kind. -/
theorem filterMap_compositionSteps (f : Step → Option β) (system : Option String)
    (owners : Owners) :
    (compositionSteps system owners).filterMap f = system.toList.flatMap fun root =>
      (keepFirst id (owners.entries.map (·.2))).flatMap fun service =>
        [Step.relationship (compositionRelationship root service)].filterMap f := by
  unfold compositionSteps
  cases system with
  | none => rfl
  | some root =>
    rw [Option.toList_some, List.flatMap_singleton, ← serviceIds_eq, ← List.filterMap_flatMap,
      ← List.map_eq_flatMap]

/-! ## All passes -/

/-- The relationships of a pass are its candidates. -/
theorem relationships_steps (input : Input) (draft : Draft) (pass : Pass) :
    (pass.steps input draft).filterMap Step.relationship? =
      candidateRelationships input draft.owners draft.systemId pass := by
  cases pass with
  | system =>
    rw [Pass.steps, filterMap_systemSteps fun _ _ => rfl, List.flatMap_eq_nil_iff.mpr]
    · rfl
    · intro project _; rfl
  | services =>
    rw [Pass.steps, filterMap_serviceSteps (fun _ _ => rfl) rfl, List.flatMap_eq_nil_iff.mpr]
    · rfl
    · intro className _; rfl
  | dataAssets =>
    rw [Pass.steps, filterMap_dataAssetSteps fun _ _ => rfl, List.flatMap_eq_nil_iff.mpr]
    · rfl
    · intro asset _; rfl
  | webClient =>
    rw [Pass.steps, filterMap_webClientSteps fun _ _ => rfl, candidateRelationships,
      List.map_eq_flatMap]
    rfl
  | databases =>
    rw [Pass.steps, databaseSteps_eq, RowLoop.relationships_steps]
    rfl
  | externalServices =>
    rw [Pass.steps, externalServiceSteps_eq, RowLoop.relationships_steps]
    rfl
  | messaging =>
    rw [Pass.steps, relationships_messagingSteps _ _ [] [] fun _ => rfl]
    rfl
  | composition =>
    rw [Pass.steps, filterMap_compositionSteps, candidateRelationships]
    simp only [List.map_eq_flatMap]
    rfl

/-- The nodes of a pass are its candidates, up to candidates whose identifier an earlier one
has. -/
theorem keepFirst_nodes_steps (input : Input) (draft : Draft) (pass : Pass) :
    keepFirst Node.id ((pass.steps input draft).filterMap Step.node?) =
      keepFirst Node.id (candidateNodes input draft.owners pass) := by
  cases pass with
  | system =>
    rw [Pass.steps, filterMap_systemSteps fun _ _ => rfl, candidateNodes, List.map_eq_flatMap]
    rfl
  | services =>
    rw [Pass.steps, filterMap_serviceSteps (fun _ _ => rfl) rfl, candidateNodes,
      List.map_eq_flatMap]
    rfl
  | dataAssets =>
    rw [Pass.steps, filterMap_dataAssetSteps fun _ _ => rfl, candidateNodes, List.map_eq_flatMap]
    rfl
  | webClient =>
    rw [Pass.steps, filterMap_webClientSteps fun _ _ => rfl, candidateNodes, List.map_eq_flatMap]
    rfl
  | databases =>
    rw [Pass.steps, databaseSteps_eq, RowLoop.nodes_steps, candidateNodes, keepFirst_map,
      keepFirst_map]
    exact congrArg (List.map databaseNode) (keepFirst_idem _ _)
  | externalServices =>
    rw [Pass.steps, externalServiceSteps_eq, RowLoop.nodes_steps, candidateNodes, keepFirst_map,
      keepFirst_map]
    exact congrArg (List.map externalServiceNode) (keepFirst_idem _ _)
  | messaging =>
    rw [Pass.steps, nodes_messagingSteps]
    simp only [List.map_nil, List.not_mem_nil, not_false_eq_true, decide_true, List.filter_true]
    rfl
  | composition =>
    rw [Pass.steps, filterMap_compositionSteps, List.flatMap_eq_nil_iff.mpr]
    · rfl
    · intro root _
      rw [List.flatMap_eq_nil_iff]
      intro service _; rfl

/-- Only the services pass registers classes: those that expose endpoints. -/
theorem owners_steps (input : Input) (draft : Draft) (pass : Pass) :
    (pass.steps input draft).filterMap Step.owner? =
      if pass = .services then (registeredOwners input.facts).entries else [] := by
  cases pass with
  | system =>
    rw [Pass.steps, filterMap_systemSteps fun _ _ => rfl, List.flatMap_eq_nil_iff.mpr]
    · rfl
    · intro project _; rfl
  | services =>
    rw [Pass.steps, filterMap_serviceSteps (fun _ _ => rfl) rfl, registeredOwners,
      List.map_eq_flatMap]
    rfl
  | dataAssets =>
    rw [Pass.steps, filterMap_dataAssetSteps fun _ _ => rfl, List.flatMap_eq_nil_iff.mpr]
    · rfl
    · intro asset _; rfl
  | webClient =>
    rw [Pass.steps, filterMap_webClientSteps fun _ _ => rfl, List.flatMap_eq_nil_iff.mpr]
    · rfl
    · intro primary _; rfl
  | databases =>
    rw [Pass.steps, databaseSteps_eq,
      RowLoop.filterMap_steps_eq_nil _ (fun _ _ => rfl) (fun _ => rfl) fun _ => rfl]
    rfl
  | externalServices =>
    rw [Pass.steps, externalServiceSteps_eq,
      RowLoop.filterMap_steps_eq_nil _ (fun _ _ => rfl) (fun _ => rfl) fun _ => rfl]
    rfl
  | messaging =>
    rw [Pass.steps, filterMap_messagingSteps (fun _ _ => rfl) (fun _ => rfl) fun _ => rfl]
    rfl
  | composition =>
    rw [Pass.steps, filterMap_compositionSteps, List.flatMap_eq_nil_iff.mpr]
    · rfl
    · intro root _
      rw [List.flatMap_eq_nil_iff]
      intro service _; rfl

/-- Only the system pass offers a system node: that of the first project. -/
theorem systems_steps (input : Input) (draft : Draft) (pass : Pass) :
    (pass.steps input draft).filterMap Step.system? =
      if pass = .system then (namedProject input.facts).toList.map systemNode else [] := by
  cases pass with
  | system =>
    rw [Pass.steps, filterMap_systemSteps fun _ _ => rfl, List.map_eq_flatMap]
    rfl
  | services =>
    rw [Pass.steps, filterMap_serviceSteps (fun _ _ => rfl) rfl, List.flatMap_eq_nil_iff.mpr]
    · rfl
    · intro className _; rfl
  | dataAssets =>
    rw [Pass.steps, filterMap_dataAssetSteps fun _ _ => rfl, List.flatMap_eq_nil_iff.mpr]
    · rfl
    · intro asset _; rfl
  | webClient =>
    rw [Pass.steps, filterMap_webClientSteps fun _ _ => rfl, List.flatMap_eq_nil_iff.mpr]
    · rfl
    · intro primary _; rfl
  | databases =>
    rw [Pass.steps, databaseSteps_eq,
      RowLoop.filterMap_steps_eq_nil _ (fun _ _ => rfl) (fun _ => rfl) fun _ => rfl]
    rfl
  | externalServices =>
    rw [Pass.steps, externalServiceSteps_eq,
      RowLoop.filterMap_steps_eq_nil _ (fun _ _ => rfl) (fun _ => rfl) fun _ => rfl]
    rfl
  | messaging =>
    rw [Pass.steps, filterMap_messagingSteps (fun _ _ => rfl) (fun _ => rfl) fun _ => rfl]
    rfl
  | composition =>
    rw [Pass.steps, filterMap_compositionSteps, List.flatMap_eq_nil_iff.mpr]
    · rfl
    · intro root _
      rw [List.flatMap_eq_nil_iff]
      intro service _; rfl

end ArchDoc.Synthesis
