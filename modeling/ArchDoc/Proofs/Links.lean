import ArchDoc.Proofs.PassRuns

/-!
# No relationship dangles

Nodes are absorbed when their identifier is taken, while owners, the system and the ends of
relationships are recorded by identifier all the same. Every identifier that is recorded still
belongs to a node of the draft, whatever passes run in whatever order.

Results:

* `anchored_of_mem_candidateRelationships`: the ends of what a pass offers are owners, the system,
  or nodes of the same pass.
* `Draft.Linked.runPass`: the invariant, kept by every pass.
* `runPasses_ends_mem`: both ends of every relationship of the document are nodes of it.
-/

namespace ArchDoc.Synthesis

open ArchDoc.Fact Identifier

variable {input : Input} {draft : Draft} {owners : Owners} {system : Option String}

/-! ## Owners are registered services -/

namespace Owners

theorem findByPackage_mem {test : String → Bool} {id : String}
    (h : owners.findByPackage test = some id) : id ∈ owners.entries.map (·.2) := by
  obtain ⟨entry, hfind, rfl⟩ := Option.map_eq_some_iff.mp h
  exact List.mem_map_of_mem (List.mem_of_find?_eq_some hfind)

theorem registered?_mem {className id : String} (h : owners.registered? className = some id) :
    id ∈ owners.entries.map (·.2) := by
  obtain ⟨entry, hfind, rfl⟩ := Option.map_eq_some_iff.mp h
  exact List.mem_map_of_mem (List.mem_of_find?_eq_some hfind)

/-- What a class resolves to is the service of a registered class. -/
theorem resolve_mem {className id : String} (h : owners.resolve className = some id) :
    id ∈ owners.entries.map (·.2) := by
  unfold resolve byPackage? at h
  rcases Option.or_eq_some_iff.mp h with hexact | ⟨_, hnear⟩
  · exact registered?_mem hexact
  · rcases Option.or_eq_some_iff.mp hnear with hown | ⟨_, hparent⟩
    · exact findByPackage_mem hown
    · exact findByPackage_mem hparent

end Owners

theorem databaseOwner_mem {row : DatabaseConnection} {id : String}
    (h : databaseOwner owners row = some id) : id ∈ owners.entries.map (·.2) := by
  unfold databaseOwner at h
  rcases Option.or_eq_some_iff.mp h with hrepository | ⟨_, hentity⟩
  · obtain ⟨className, _, hresolve⟩ := Option.bind_eq_some_iff.mp hrepository
    exact Owners.resolve_mem hresolve
  · obtain ⟨className, _, hresolve⟩ := Option.bind_eq_some_iff.mp hentity
    exact Owners.resolve_mem hresolve

theorem primaryService_mem {id : String} (h : primaryService input owners = some id) :
    id ∈ owners.entries.map (·.2) := by
  unfold primaryService at h
  split_ifs at h
  obtain ⟨entry, hhead, rfl⟩ := Option.map_eq_some_iff.mp h
  exact List.mem_map_of_mem (List.mem_of_head? hhead)

/-! ## The ends of candidates -/

/-- The identifiers that a pass may mention: services of owners, the system, and the nodes that it
offers itself. -/
def Anchored (input : Input) (owners : Owners) (system : Option String) (pass : Pass)
    (id : String) : Prop :=
  id ∈ owners.entries.map (·.2) ∨ system = some id ∨
    id ∈ (candidateNodes input owners pass).map Node.id

theorem anchored_of_mem_databaseEdges {r : Relationship}
    (h : r ∈ databaseEdges owners (input.facts.rows .databaseConnections)) :
    Anchored input owners system .databases r.source.node ∧
      Anchored input owners system .databases r.destination.node := by
  obtain ⟨row, hrow, hedge⟩ := List.mem_filterMap.mp h
  obtain ⟨owner, howner, rfl⟩ := Option.map_eq_some_iff.mp hedge
  have hnode : databaseNode row ∈ candidateNodes input owners .databases :=
    List.mem_map_of_mem (mem_of_mem_keepFirst hrow)
  exact ⟨Or.inl (databaseOwner_mem howner), Or.inr (Or.inr (List.mem_map_of_mem hnode))⟩

theorem anchored_of_mem_externalServiceEdges {r : Relationship}
    (h : r ∈ externalServiceEdges owners (input.facts.rows .externalServiceCalls)) :
    Anchored input owners system .externalServices r.source.node ∧
      Anchored input owners system .externalServices r.destination.node := by
  obtain ⟨call, hcall, hedge⟩ := List.mem_filterMap.mp h
  obtain ⟨caller, hcaller, rfl⟩ := Option.map_eq_some_iff.mp hedge
  have hnode : externalServiceNode call ∈ candidateNodes input owners .externalServices :=
    List.mem_map_of_mem (mem_of_mem_keepFirst hcall)
  exact ⟨Or.inl (Owners.resolve_mem hcaller), Or.inr (Or.inr (List.mem_map_of_mem hnode))⟩

/-- The row that names the node of a destination is the one kept for the destination. -/
theorem namingRow_mem {rows : List MessagingConnection} {row : MessagingConnection}
    (h : row ∈ rows) : namingRow rows row ∈ keepFirst (·.destination) rows := by
  have hsome : (rows.find? fun other => other.destination = row.destination).isSome = true := by
    rw [List.find?_isSome]
    exact ⟨row, h, by simp⟩
  obtain ⟨first, hfirst⟩ := Option.isSome_iff_exists.mp hsome
  rw [namingRow, hfirst, Option.getD_some]
  rw [← find?_keepFirst] at hfirst
  exact List.mem_of_find?_eq_some hfirst

theorem anchored_of_mem_messagingEdges {r : Relationship}
    (h : r ∈ messagingEdges owners (input.facts.rows .messagingConnections)) :
    Anchored input owners system .messaging r.source.node ∧
      Anchored input owners system .messaging r.destination.node := by
  obtain ⟨row, hrow, hedge⟩ := List.mem_filterMap.mp h
  obtain ⟨service, hservice, hrole⟩ := Option.bind_eq_some_iff.mp hedge
  have hnode := List.mem_map_of_mem (f := messagingNode) (namingRow_mem hrow)
  have hservice' : Anchored input owners system .messaging service :=
    Or.inl (Owners.resolve_mem hservice)
  have hnode' : Anchored input owners system .messaging _ :=
    Or.inr (Or.inr (List.mem_map_of_mem (f := Node.id) hnode))
  cases hcase : row.messagingRole with
  | producer =>
    rw [hcase] at hrole
    rw [← Option.some.inj hrole]
    exact ⟨hservice', hnode'⟩
  | consumer =>
    rw [hcase] at hrole
    rw [← Option.some.inj hrole]
    exact ⟨hnode', hservice'⟩
  | other =>
    rw [hcase] at hrole
    exact absurd hrole.symm (Option.some_ne_none r)

/-- Both ends of everything that a pass offers are anchored. -/
theorem anchored_of_mem_candidateRelationships {pass : Pass} {r : Relationship}
    (h : r ∈ candidateRelationships input owners system pass) :
    Anchored input owners system pass r.source.node ∧
      Anchored input owners system pass r.destination.node := by
  cases pass with
  | system | services | dataAssets => exact absurd h List.not_mem_nil
  | webClient =>
    obtain ⟨primary, hprimary, rfl⟩ := List.mem_map.mp h
    have hnode : webClientNode (clientOrigins input) ∈ candidateNodes input owners .webClient :=
      List.mem_map.mpr ⟨primary, hprimary, rfl⟩
    exact ⟨Or.inr (Or.inr (List.mem_map_of_mem hnode)),
      Or.inl (primaryService_mem (Option.mem_toList.mp hprimary))⟩
  | databases => exact anchored_of_mem_databaseEdges h
  | externalServices => exact anchored_of_mem_externalServiceEdges h
  | messaging => exact anchored_of_mem_messagingEdges h
  | composition =>
    obtain ⟨root, hroot, hservice⟩ := List.mem_flatMap.mp h
    obtain ⟨service, hkept, rfl⟩ := List.mem_map.mp hservice
    exact ⟨Or.inr (Or.inl (Option.mem_toList.mp hroot)), Or.inl (mem_of_mem_keepFirst hkept)⟩

/-! ## The invariant -/

/-- Every identifier that a draft records is that of a node. -/
structure Draft.Linked (draft : Draft) : Prop where
  sources : ∀ r ∈ draft.relationships, r.source.node ∈ draft.nodes.map Node.id
  destinations : ∀ r ∈ draft.relationships, r.destination.node ∈ draft.nodes.map Node.id
  owners : ∀ id ∈ draft.owners.entries.map (·.2), id ∈ draft.nodes.map Node.id
  system : ∀ id, draft.systemId = some id → id ∈ draft.nodes.map Node.id

theorem Draft.linked_empty : Draft.empty.Linked where
  sources _ h := absurd h List.not_mem_nil
  destinations _ h := absurd h List.not_mem_nil
  owners _ h := absurd h List.not_mem_nil
  system _ h := absurd h.symm (Option.some_ne_none _)

/-- The identifiers of nodes after a pass: those before it and those of its candidates. -/
theorem mem_ids_runPass (h : draft.Distinct) (pass : Pass) (id : String) :
    id ∈ (runPass input draft pass).nodes.map Node.id ↔
      id ∈ draft.nodes.map Node.id ∨
        id ∈ (candidateNodes input draft.owners pass).map Node.id := by
  rw [nodes_runPass input h, mem_map_keepFirst, List.map_append, List.mem_append]

theorem mem_ids_of_anchored (h : draft.Distinct) (hlinked : draft.Linked) {pass : Pass}
    {id : String} (hanchored : Anchored input draft.owners draft.systemId pass id) :
    id ∈ (runPass input draft pass).nodes.map Node.id := by
  rw [mem_ids_runPass h]
  rcases hanchored with howner | hsystem | hnode
  · exact Or.inl (hlinked.owners id howner)
  · exact Or.inl (hlinked.system id hsystem)
  · exact Or.inr hnode

/-- The services that a pass registers have candidates of the same pass. -/
theorem registered_mem_candidates {pass : Pass} {id : String}
    (h : id ∈ (if pass = .services then (registeredOwners input.facts).entries else []).map
      Prod.snd) : id ∈ (candidateNodes input owners pass).map Node.id := by
  split_ifs at h with hpass
  · subst hpass
    simpa [registeredOwners, candidateNodes, serviceNode, exposingNode] using h
  · exact absurd h List.not_mem_nil

/-- The system of a draft after a pass is the system before it or the node of the pass. -/
theorem mem_ids_of_systemId (h : draft.Distinct) (hlinked : draft.Linked) {pass : Pass}
    {id : String} (hid : (runPass input draft pass).systemId = some id) :
    id ∈ (runPass input draft pass).nodes.map Node.id := by
  rw [mem_ids_runPass h]
  by_cases hpass : pass = .system
  · subst hpass
    rw [systemId_runPass_system] at hid
    cases hproject : projectId input.facts with
    | none =>
      rw [hproject] at hid
      exact Or.inl (hlinked.system id hid)
    | some root =>
      rw [hproject] at hid
      simp only at hid
      split_ifs at hid with htaken
      · exact Or.inl (hlinked.system id hid)
      · -- the system node is the only candidate of its pass
        obtain ⟨project, hnamed, rfl⟩ := Option.map_eq_some_iff.mp hproject
        rw [candidateNodes, hnamed, ← Option.some.inj hid]
        exact Or.inr (List.mem_singleton.mpr rfl)
  · rw [systemId_runPass_of_ne input hpass] at hid
    exact Or.inl (hlinked.system id hid)

theorem Draft.Linked.runPass (h : draft.Distinct) (hlinked : draft.Linked) (pass : Pass) :
    (runPass input draft pass).Linked := by
  have hkeep : ∀ id ∈ draft.nodes.map Node.id,
      id ∈ (Synthesis.runPass input draft pass).nodes.map Node.id :=
    fun id hid => (mem_ids_runPass h pass id).mpr (Or.inl hid)
  have hends : ∀ r ∈ (Synthesis.runPass input draft pass).relationships,
      r.source.node ∈ (Synthesis.runPass input draft pass).nodes.map Node.id ∧
        r.destination.node ∈ (Synthesis.runPass input draft pass).nodes.map Node.id := by
    intro r hr
    rw [relationships_runPass input h] at hr
    rcases List.mem_append.mp (mem_of_mem_keepFirst hr) with hold | hnew
    · exact ⟨hkeep _ (hlinked.sources r hold), hkeep _ (hlinked.destinations r hold)⟩
    · obtain ⟨hsource, hdestination⟩ := anchored_of_mem_candidateRelationships hnew
      exact ⟨mem_ids_of_anchored h hlinked hsource, mem_ids_of_anchored h hlinked hdestination⟩
  refine ⟨fun r hr => (hends r hr).1, fun r hr => (hends r hr).2, ?_, ?_⟩
  · intro id hid
    rw [entries_runPass input h] at hid
    have hall := (keepFirst_sublist Prod.fst _).map Prod.snd |>.subset hid
    rw [List.map_append, List.mem_append] at hall
    rcases hall with hold | hnew
    · exact hkeep id (hlinked.owners id hold)
    · exact (mem_ids_runPass h pass id).mpr (Or.inr (registered_mem_candidates hnew))
  · intro id hid
    exact mem_ids_of_systemId h hlinked hid

theorem linked_runPasses (h : draft.Distinct) (hlinked : draft.Linked) (passes : List Pass) :
    (runPasses input draft passes).Linked := by
  induction passes generalizing draft with
  | nil => exact hlinked
  | cons pass passes ih => exact ih (h.runPass pass) (hlinked.runPass h pass)

/-- **Main theorem.** After any passes in any order, repeated or left out, both ends of every
relationship of the document are nodes of the document. -/
theorem runPasses_ends_mem (input : Input) (passes : List Pass) :
    let document := (runPasses input .empty passes).toDocument input.config.schema
    ∀ r ∈ document.relationships,
      (∃ n ∈ document.nodes, n.id = r.source.node) ∧
        ∃ n ∈ document.nodes, n.id = r.destination.node := by
  intro document r hr
  have hlinked : (runPasses input .empty passes).Linked :=
    linked_runPasses Draft.distinct_empty Draft.linked_empty passes
  exact ⟨List.mem_map.mp (hlinked.sources r hr), List.mem_map.mp (hlinked.destinations r hr)⟩

/-- The node of a service whose identifier the system has is absorbed, and the relationship between
the two has both of its ends at the node that is left. -/
theorem runPasses_ends_mem_of_absorbed :
    let facts := (Facts.empty.insert .projectMetadata { artifactId := "OrderService" }).insert
      .serviceEndpoints
      { serviceClass := "shop.OrderService", httpMethod := "GET", path := "/", framework := "" }
    let document := (runPasses ⟨facts, .default⟩ .empty
      [.system, .services, .services, .composition]).toDocument Document.defaultSchema
    let r := compositionRelationship "order-service" "order-service"
    r ∈ document.relationships ∧ (∃ n ∈ document.nodes, n.id = r.source.node) ∧
      ∃ n ∈ document.nodes, n.id = r.destination.node := by
  intro facts document r
  have hr : r ∈ document.relationships := by decide +kernel
  exact ⟨hr,
    runPasses_ends_mem ⟨facts, .default⟩ [.system, .services, .services, .composition] r hr⟩

end ArchDoc.Synthesis
