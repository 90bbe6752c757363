import ArchDoc.Proofs.FactTables
import ArchDoc.Proofs.NodeIdentifiers

/-!
# More facts never take an element away

Rows that are added at the end of tables leave all decisions in place that are taken by the first
row of something: which project names the system, which row names the node of a destination, which
row of a database has the say about its connection. So the identifiers of a document stay when facts
are added. Those of its relationships depend on the owners of classes besides, and stay as long as
no endpoint is added. What stands under an identifier may change: an added project may put the
system in the place of a service.

Main definitions:

* `Facts.Extends`: facts with more rows behind those of other facts.

Results:

* `Extends.nodeIds_subset`: every pass has the nodes it had.
* `Extends.relationshipIds_subset`: and the relationships, when the owners are the same.
* `synthesize_of_extends`: what becomes of the document.
-/

namespace ArchDoc

open ArchDoc.Fact Identifier Synthesis

variable {facts more : Facts}

/-- The row that names a destination stays the first one. -/
theorem Synthesis.namingRow_append {rows : List MessagingConnection} {row : MessagingConnection}
    (h : row ∈ rows) (added : List MessagingConnection) :
    namingRow (rows ++ added) row = namingRow rows row := by
  have hsome : (rows.find? fun other => other.destination = row.destination).isSome = true :=
    List.find?_isSome.mpr ⟨row, h, by simp⟩
  obtain ⟨naming, hnaming⟩ := Option.isSome_iff_exists.mp hsome
  rw [namingRow, namingRow, List.find?_append, hnaming, Option.some_or]

/-- The tables of some facts have those of others in front of them. -/
def Facts.Extends (more facts : Facts) : Prop :=
  ∀ kind, facts.rows kind <+: more.rows kind

namespace Facts.Extends

theorem trans {most : Facts} (h : more.Extends facts) (h' : most.Extends more) :
    most.Extends facts :=
  fun kind => (h kind).trans (h' kind)

theorem extend (facts : Facts) (kind : Kind) (rows : List kind.Row) :
    (facts.extend kind rows).Extends facts := by
  intro other
  by_cases hkind : kind = other
  · subst hkind
    have hrows : (facts.extend kind rows).rows kind = facts.rows kind ++ rows :=
      Facts.rows_setTable_self facts kind _
    exact hrows ▸ List.prefix_append _ _
  · have hrows : (facts.extend kind rows).rows other = facts.rows other :=
      Facts.rows_setTable_of_ne hkind _
    exact hrows ▸ List.prefix_rfl

theorem first? (h : more.Extends facts) {kind : Kind} {row : kind.Row}
    (hrow : facts.first? kind = some row) : more.first? kind = some row := by
  obtain ⟨rest, hrows⟩ := List.head?_eq_some_iff.mp hrow
  obtain ⟨added, hadded⟩ := h kind
  rw [Facts.first?, ← hadded, hrows, List.cons_append, List.head?_cons]

theorem includes (h : more.Extends facts) : more.Includes facts :=
  fun kind => (h kind).subset

/-! ## Nodes -/

theorem projectId (h : more.Extends facts) {root : String}
    (hroot : Synthesis.projectId facts = some root) : Synthesis.projectId more = some root := by
  obtain ⟨project, hnamed, rfl⟩ := Option.map_eq_some_iff.mp hroot
  obtain ⟨hfirst, hname⟩ := Option.filter_eq_some_iff.mp hnamed
  rw [Synthesis.projectId, namedProject, h.first? hfirst, Option.filter_some, if_pos hname,
    Option.map_some]

/-- Every pass has the nodes it had. -/
theorem nodeIds_subset (h : more.Extends facts) (pass : Pass) :
    nodeIds facts pass ⊆ nodeIds more pass := by
  cases pass with
  | system =>
    intro id hid
    exact Option.mem_toList.mpr (h.projectId (Option.mem_toList.mp hid))
  | messaging =>
    exact ((prefix_keepFirst _ ((h .messagingConnections).filter _)).map destinationId).subset
  | services | dataAssets | webClient | databases | externalServices | composition =>
    exact h.includes.nodeIds_subset nofun nofun

/-! ## Relationships -/

theorem primaryService (h : more.Extends facts) {config : Config} {owners : Owners}
    {primary : String} (hprimary : Synthesis.primaryService ⟨facts, config⟩ owners = some primary) :
    Synthesis.primaryService ⟨more, config⟩ owners = some primary := by
  unfold Synthesis.primaryService at hprimary ⊢
  split_ifs at hprimary with hcors
  obtain ⟨row, hrow, hopen⟩ := List.any_eq_true.mp hcors
  rw [if_pos (List.any_eq_true.mpr ⟨row, h.includes .securityConfiguration hrow, hopen⟩)]
  exact hprimary

theorem messagingEdges_prefix (h : more.Extends facts) (owners : Owners) :
    messagingEdges owners (facts.rows .messagingConnections) <+:
      messagingEdges owners (more.rows .messagingConnections) := by
  obtain ⟨added, hadded⟩ := h .messagingConnections
  unfold messagingEdges namedDestinations
  rw [← hadded, List.filter_append, List.filterMap_append]
  refine ⟨_, congrArg (· ++ _) (List.filterMap_congr fun row hrow => ?_)⟩
  rw [namingRow_append hrow]

/-- The relationships of every pass have the identifiers they had, when the owners are the same. -/
theorem relationshipIds_subset (h : more.Extends facts) (config : Config) (owners : Owners)
    (pass : Pass) :
    (candidateRelationships ⟨facts, config⟩ owners (Synthesis.projectId facts) pass).map
        Relationship.id ⊆
      (candidateRelationships ⟨more, config⟩ owners (Synthesis.projectId more) pass).map
        Relationship.id := by
  cases pass with
  | system | services | dataAssets => exact List.Subset.refl []
  | webClient =>
    intro id hid
    obtain ⟨r, hr, rfl⟩ := List.mem_map.mp hid
    obtain ⟨primary, hprimary, rfl⟩ := List.mem_map.mp hr
    have hmore := h.primaryService (Option.mem_toList.mp hprimary)
    -- the protocol may be that of an added server, but it is no part of the identifier
    refine List.mem_map.mpr ⟨webClientRelationship (Input.serverProtocol ⟨more, config⟩) primary,
      List.mem_map_of_mem (Option.mem_toList.mpr hmore), rfl⟩
  | databases =>
    exact ((prefix_keepFirst _ ((h .databaseConnections).filter _)).filterMap _).map _ |>.subset
  | externalServices =>
    exact ((prefix_keepFirst _ ((h .externalServiceCalls).filter _)).filterMap _).map _ |>.subset
  | messaging => exact ((h.messagingEdges_prefix owners).map _).subset
  | composition =>
    apply List.map_subset
    intro r hr
    obtain ⟨root, hroot, hservice⟩ := List.mem_flatMap.mp hr
    exact List.mem_flatMap.mpr
      ⟨root, Option.mem_toList.mpr (h.projectId (Option.mem_toList.mp hroot)), hservice⟩

end Facts.Extends

namespace Synthesis

theorem registeredOwners_congr
    (h : more.rows .serviceEndpoints = facts.rows .serviceEndpoints) :
    registeredOwners more = registeredOwners facts := by
  unfold registeredOwners exposingClasses
  rw [h]

/-- **Main theorem.** Facts with more rows at the end of their tables make a document if they made
one before. It has all identifiers of nodes that the document had, and those of its relationships as
well unless endpoints were added. -/
theorem synthesize_of_extends (h : more.Extends facts) {config : Config} {document : Document}
    (hdocument : synthesize facts config = some document) :
    ∃ larger, synthesize more config = some larger ∧
      document.nodes.map Node.id ⊆ larger.nodes.map Node.id ∧
      (more.rows .serviceEndpoints = facts.rows .serviceEndpoints →
        document.relationships.map Relationship.id ⊆ larger.relationships.map Relationship.id) := by
  obtain ⟨larger, hlarger⟩ := h.includes.exists_synthesize hdocument
  refine ⟨larger, hlarger, ?_, ?_⟩
  · intro id hid
    obtain ⟨pass, hpass⟩ := (mem_ids_iff hdocument).mp hid
    exact (mem_ids_iff hlarger).mpr ⟨pass, h.nodeIds_subset pass hpass⟩
  · intro hendpoints id hid
    rw [relationships_of_synthesize hdocument, mem_map_keepFirst, offeredRelationships,
      List.map_flatMap, List.mem_flatMap] at hid
    obtain ⟨pass, hpass, hid⟩ := hid
    rw [relationships_of_synthesize hlarger, mem_map_keepFirst, offeredRelationships,
      List.map_flatMap, List.mem_flatMap, registeredOwners_congr hendpoints]
    exact ⟨pass, hpass, h.relationshipIds_subset config _ pass hid⟩

/-- A service that keeps orders in a database. -/
def orders : Facts :=
  (Facts.empty.insert .serviceEndpoints
      { serviceClass := "shop.OrderService", httpMethod := "GET", path := "/",
        framework := "" }).insert
    .databaseConnections { entityName := "Order", repositoryClass := some "shop.OrderService" }

/-- The same with a project that has the identifier of the service, and with another connection to
the database. -/
def moreOrders : Facts :=
  (orders.insert .projectMetadata { artifactId := "OrderService" }).insert
    .databaseConnections { entityName := "order", repositoryClass := some "shop.Other" }

/-- The system takes the place of the service, and the identifiers stay. -/
theorem synthesize_of_extends_moreOrders :
    moreOrders.Extends orders ∧
      moreOrders.rows .serviceEndpoints = orders.rows .serviceEndpoints ∧
      ∃ larger, synthesize moreOrders .default = some larger ∧
        "order-service" ∈ larger.nodes.map Node.id ∧
        "order-service-to-order-db" ∈ larger.relationships.map Relationship.id := by
  have hextends : moreOrders.Extends orders := (Facts.Extends.extend _ _ _).trans (.extend _ _ _)
  have hendpoints : moreOrders.rows .serviceEndpoints = orders.rows .serviceEndpoints := rfl
  have hdocument : synthesize orders .default = some _ :=
    synthesize_of_architectural (by decide +kernel)
  obtain ⟨larger, hlarger, hnodes, hrelationships⟩ := synthesize_of_extends hextends hdocument
  exact ⟨hextends, hendpoints, larger, hlarger, hnodes (by decide +kernel),
    hrelationships hendpoints (by decide +kernel)⟩

end Synthesis

end ArchDoc
