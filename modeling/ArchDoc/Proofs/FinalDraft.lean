import ArchDoc.Proofs.Links

/-!
# What a synthesis offers

The document of facts, as far as statements about its nodes and relationships need it: they are
the first ones of their identifiers among all that the passes offer, and the passes offer them in
a fixed order for owners and a system that the facts determine.

Main definitions:

* `offeredNodes`, `offeredRelationships`: the candidates of all passes, in order.
* `Form`: the forms that relationships are offered in.

Results:

* `owners_finalDraft`, `systemId_finalDraft`: the owners and the system are those of the facts.
* `nodes_finalDraft`, `relationships_finalDraft`: the document, in terms of what is offered.
* `kept_of_offered`: what is offered has its identifier in the document.
* `node?_of_first`: the node under an identifier is that of the first pass that offers one.
* `form_of_offered`: nothing is offered in another form.
-/

namespace ArchDoc.Synthesis

open ArchDoc.Fact Identifier

/-- The nodes that all passes have to offer. -/
def offeredNodes (input : Input) : List Node :=
  Pass.inOrder.flatMap (candidateNodes input (registeredOwners input.facts))

/-- The relationships that all passes have to offer. -/
def offeredRelationships (input : Input) : List Relationship :=
  Pass.inOrder.flatMap
    (candidateRelationships input (registeredOwners input.facts) (projectId input.facts))

variable {facts : Facts} {config : Config} {document : Document}

/-! ## The final draft -/

/-- The passes that run on a draft that the first two passes have settled. -/
theorem finalDraft_eq (facts : Facts) (config : Config) :
    finalDraft facts config =
      runPasses ⟨facts, config⟩ (runPasses ⟨facts, config⟩ .empty [.system, .services])
        [.dataAssets, .webClient, .databases, .externalServices, .messaging, .composition] :=
  rfl

theorem Settled.runPasses {input : Input} {draft : Draft} (h : Settled input draft)
    (passes : List Pass) : Settled input (runPasses input draft passes) := by
  induction passes generalizing draft with
  | nil => exact h
  | cons pass passes ih => exact ih (h.runPass pass)

theorem settled_finalDraft (facts : Facts) (config : Config) :
    Settled ⟨facts, config⟩ (finalDraft facts config) := by
  rw [finalDraft_eq]
  exact (settled_start _).runPasses _

theorem owners_finalDraft (facts : Facts) (config : Config) :
    (finalDraft facts config).owners = registeredOwners facts :=
  (settled_finalDraft facts config).owners

theorem systemId_finalDraft (facts : Facts) (config : Config) :
    (finalDraft facts config).systemId = projectId facts :=
  (settled_finalDraft facts config).system

theorem nodes_finalDraft (facts : Facts) (config : Config) :
    (finalDraft facts config).nodes = keepFirst Node.id (offeredNodes ⟨facts, config⟩) :=
  nodes_runPasses_start ⟨facts, config⟩ _

theorem relationships_finalDraft (facts : Facts) (config : Config) :
    (finalDraft facts config).relationships =
      keepFirst Relationship.id (offeredRelationships ⟨facts, config⟩) :=
  relationships_runPasses_start ⟨facts, config⟩ _

/-! ## The document -/

theorem synthesize_of_architectural (h : facts.isArchitectural = true) :
    synthesize facts config = some ((finalDraft facts config).toDocument config.schema) :=
  if_pos h

theorem isArchitectural_of_synthesize (h : synthesize facts config = some document) :
    facts.isArchitectural = true := by
  unfold synthesize at h
  split_ifs at h with harchitectural
  exact harchitectural

theorem eq_of_synthesize (h : synthesize facts config = some document) :
    document = (finalDraft facts config).toDocument config.schema := by
  unfold synthesize at h
  split_ifs at h with harchitectural
  exact (Option.some.inj h).symm

theorem nodes_of_synthesize (h : synthesize facts config = some document) :
    document.nodes = keepFirst Node.id (offeredNodes ⟨facts, config⟩) := by
  rw [eq_of_synthesize h, ← nodes_finalDraft]
  rfl

theorem relationships_of_synthesize (h : synthesize facts config = some document) :
    document.relationships = keepFirst Relationship.id (offeredRelationships ⟨facts, config⟩) := by
  rw [eq_of_synthesize h, ← relationships_finalDraft]
  rfl

/-- Every relationship of a document was offered. -/
theorem offered_of_mem (h : synthesize facts config = some document) {r : Relationship}
    (hr : r ∈ document.relationships) : r ∈ offeredRelationships ⟨facts, config⟩ := by
  rw [relationships_of_synthesize h] at hr
  exact mem_of_mem_keepFirst hr

/-- What is offered is in the document, or a relationship with its identifier is. -/
theorem kept_of_offered (h : synthesize facts config = some document) {r : Relationship}
    (hr : r ∈ offeredRelationships ⟨facts, config⟩) :
    ∃ kept ∈ document.relationships, kept.id = r.id := by
  have hid : r.id ∈ (keepFirst Relationship.id (offeredRelationships ⟨facts, config⟩)).map
      Relationship.id := mem_map_keepFirst.mpr (List.mem_map_of_mem hr)
  rw [relationships_of_synthesize h]
  exact List.mem_map.mp hid

/-! ## Nodes by identifier -/

/-- The node that a document has under an identifier is the first one offered under it. -/
theorem node?_of_synthesize (h : synthesize facts config = some document) (id : String) :
    document.node? id = (offeredNodes ⟨facts, config⟩).find? fun n => n.id = id := by
  show document.nodes.find? (fun n => n.id = id) = _
  rw [nodes_of_synthesize h, find?_keepFirst]

/-- The first pass that offers a node of an identifier decides what stands under it. -/
theorem node?_of_first (h : synthesize facts config = some document) (before : List Pass)
    (pass : Pass) {after : List Pass} (horder : Pass.inOrder = before ++ pass :: after)
    {id : String} {n : Node}
    (hbefore : ∀ earlier ∈ before,
      ∀ m ∈ candidateNodes ⟨facts, config⟩ (registeredOwners facts) earlier, m.id ≠ id)
    (hn : (candidateNodes ⟨facts, config⟩ (registeredOwners facts) pass).find?
      (fun m => m.id = id) = some n) : document.node? id = some n := by
  have hnone : (before.flatMap (candidateNodes ⟨facts, config⟩ (registeredOwners facts))).find?
      (fun m => m.id = id) = none := by
    rw [List.find?_eq_none]
    intro m hm
    obtain ⟨earlier, hearlier, hmem⟩ := List.mem_flatMap.mp hm
    simpa using hbefore earlier hearlier m hmem
  rw [node?_of_synthesize h, offeredNodes, horder, List.flatMap_append, List.find?_append, hnone,
    Option.none_or, List.flatMap_cons, List.find?_append, hn, Option.some_or]

/-! ## The forms of relationships -/

/-- The forms that relationships are offered in: from the web client to the primary service, from a
service to a database, an external service or a destination of messages, from such a destination to
a service, and from the system to a registered service. -/
inductive Form (input : Input) : Relationship → Prop where
  | interaction {primary : String}
      (hprimary : primaryService input (registeredOwners input.facts) = some primary) :
      Form input (webClientRelationship input.serverProtocol primary)
  | database (owner id : String) : Form input (databaseRelationship owner id)
  | externalService (caller : String) (call : ExternalServiceCall) :
      Form input (externalServiceRelationship caller call)
  | producer (service node protocol : String) :
      Form input (producerRelationship service node protocol)
  | consumer (service node protocol : String) :
      Form input (consumerRelationship service node protocol)
  | composition {root service : String} (hroot : projectId input.facts = some root)
      (hservice : service ∈ (registeredOwners input.facts).entries.map (·.2)) :
      Form input (compositionRelationship root service)

theorem form_of_messagingEdge {input : Input} {owners : Owners} {node : String}
    {row : MessagingConnection} {r : Relationship} (h : messagingEdge owners node row = some r) :
    Form input r := by
  obtain ⟨service, _, hrole⟩ := Option.bind_eq_some_iff.mp h
  cases hcase : row.messagingRole with
  | producer =>
    rw [hcase] at hrole
    rw [← Option.some.inj hrole]
    exact .producer service node _
  | consumer =>
    rw [hcase] at hrole
    rw [← Option.some.inj hrole]
    exact .consumer service node _
  | other =>
    rw [hcase] at hrole
    exact absurd hrole.symm (Option.some_ne_none r)

theorem form_of_offered {input : Input} {r : Relationship} (h : r ∈ offeredRelationships input) :
    Form input r := by
  obtain ⟨pass, _, hpass⟩ := List.mem_flatMap.mp h
  cases pass with
  | system | services | dataAssets => exact absurd hpass List.not_mem_nil
  | webClient =>
    obtain ⟨primary, hprimary, rfl⟩ := List.mem_map.mp hpass
    exact .interaction (Option.mem_toList.mp hprimary)
  | databases =>
    obtain ⟨row, _, hedge⟩ := List.mem_filterMap.mp hpass
    obtain ⟨owner, _, rfl⟩ := Option.map_eq_some_iff.mp hedge
    exact .database owner _
  | externalServices =>
    obtain ⟨call, _, hedge⟩ := List.mem_filterMap.mp hpass
    obtain ⟨caller, _, rfl⟩ := Option.map_eq_some_iff.mp hedge
    exact .externalService caller call
  | messaging =>
    obtain ⟨row, _, hedge⟩ := List.mem_filterMap.mp hpass
    exact form_of_messagingEdge hedge
  | composition =>
    obtain ⟨root, hroot, hservice⟩ := List.mem_flatMap.mp hpass
    obtain ⟨service, hkept, rfl⟩ := List.mem_map.mp hservice
    exact .composition (Option.mem_toList.mp hroot) (mem_of_mem_keepFirst hkept)

end ArchDoc.Synthesis
