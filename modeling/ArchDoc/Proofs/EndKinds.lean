import ArchDoc.Proofs.FinalDraft

/-!
# The kinds of the ends of relationships

Systems, services, web clients and the elements outside share one namespace, and the node that
comes first has the identifier. Owners and edges are recorded by identifier whether or not a node
was absorbed. What stands under an identifier follows from the order of the passes: the system
comes before the services, and the services before the web client, so the kind of an end differs
from what its relationship calls for only where one of these earlier nodes has the identifier.

Main definitions:

* `Document.kindOf?`, `Document.interface?`: what stands at an end.

Results:

* `kindOf?_system`, `node?_service`, `node?_webClient`: what stands under the identifiers of the
  system, of registered services and of the web client.
* `synthesize_end_kinds`: the kinds and interfaces of the ends of relationships.
* `synthesize_end_kinds_absorbed`: the two ways in which an earlier node takes the place.
-/

namespace ArchDoc

namespace Document

/-- The kind of the node under an identifier. -/
def kindOf? (document : Document) (id : String) : Option NodeKind :=
  (document.node? id).map Node.kind

/-- The interface that an end names, if its node has it. -/
def interface? (document : Document) (e : Endpoint) : Option Interface :=
  e.interface.bind fun id => (document.node? e.node).bind (·.interface? id)

theorem kindOf?_of_node? {document : Document} {id : String} {n : Node}
    (h : document.node? id = some n) : document.kindOf? id = some n.kind := by
  rw [kindOf?, h, Option.map_some]

end Document

namespace Synthesis

open ArchDoc.Fact Identifier

variable {facts : Facts} {config : Config} {document : Document}

/-! ## Identifiers of candidates -/

theorem projectId_of_mem_system {input : Input} {owners : Owners} {n : Node}
    (h : n ∈ candidateNodes input owners .system) : projectId input.facts = some n.id := by
  obtain ⟨project, hproject, rfl⟩ := List.mem_map.mp h
  rw [projectId, Option.mem_toList.mp hproject]
  rfl

theorem registered_of_mem_services {input : Input} {owners : Owners} {n : Node}
    (h : n ∈ candidateNodes input owners .services) :
    n.id ∈ (registeredOwners input.facts).entries.map (·.2) := by
  obtain ⟨className, hclass, rfl⟩ := List.mem_map.mp h
  refine List.mem_map.mpr ⟨(className, serviceId className), ?_, rfl⟩
  exact List.mem_map_of_mem hclass

/-- The identifiers of data assets end otherwise than that of the web client. -/
theorem dataAssetId_ne_webClientId (name : String) : dataAssetId name ≠ webClientId := by
  intro h
  have hlast : (dataAssetId name).toList.getLast? = webClientId.toList.getLast? := by rw [h]
  simp [dataAssetId, webClientId, String.toList_append] at hlast

/-! ## What stands under an identifier -/

/-- The system node comes first of all. -/
theorem kindOf?_system (h : synthesize facts config = some document) {root : String}
    (hroot : projectId facts = some root) :
    document.kindOf? root = some .system := by
  obtain ⟨project, hproject, rfl⟩ := Option.map_eq_some_iff.mp hroot
  have hsystem : candidateNodes ⟨facts, config⟩ (registeredOwners facts) .system =
      [systemNode project] := by
    show (namedProject facts).toList.map systemNode = _
    rw [hproject]
    rfl
  refine Document.kindOf?_of_node? (n := systemNode project) ?_
  refine node?_of_first h [] .system rfl ?_ ?_
  · intro earlier hearlier
    exact absurd hearlier List.not_mem_nil
  · rw [hsystem]
    exact List.find?_cons_of_pos (by simp [systemNode])

/-- A registered service stands under its identifier unless the system does. -/
theorem node?_service (h : synthesize facts config = some document) {id : String}
    (hid : id ∈ (registeredOwners facts).entries.map (·.2)) (hroot : projectId facts ≠ some id) :
    ∃ className, serviceId className = id ∧
      document.node? id = some (serviceNode ⟨facts, config⟩ className) := by
  have hsome : ((candidateNodes ⟨facts, config⟩ (registeredOwners facts) .services).find?
      (fun n => n.id = id)).isSome = true := by
    obtain ⟨entry, hentry, rfl⟩ := List.mem_map.mp hid
    obtain ⟨className, hclass, rfl⟩ := List.mem_map.mp hentry
    rw [List.find?_isSome]
    exact ⟨serviceNode ⟨facts, config⟩ className, List.mem_map_of_mem hclass,
      by simp [serviceNode, exposingNode]⟩
  obtain ⟨n, hn⟩ := Option.isSome_iff_exists.mp hsome
  have hnid : n.id = id := by simpa using List.find?_some hn
  obtain ⟨className, _, rfl⟩ := List.mem_map.mp (List.mem_of_find?_eq_some hn)
  refine ⟨className, hnid, node?_of_first h [.system] .services rfl ?_ hn⟩
  intro earlier hearlier m hm heq
  rw [List.mem_singleton.mp hearlier] at hm
  rw [projectId_of_mem_system hm, heq] at hroot
  exact hroot rfl

/-- Such a service carries its interface, with the protocol and the port of the server. -/
theorem served (h : synthesize facts config = some document) {id : String}
    (hid : id ∈ (registeredOwners facts).entries.map (·.2)) (hroot : projectId facts ≠ some id) :
    document.kindOf? id = some .service ∧
      document.interface? ⟨id, some (apiId id)⟩ = some ⟨apiId id,
        some (Input.serverProtocol ⟨facts, config⟩), some (Input.serverPort ⟨facts, config⟩)⟩ := by
  obtain ⟨className, hclass, hnode⟩ := node?_service h hid hroot
  constructor
  · rw [Document.kindOf?_of_node? hnode]
    rfl
  · rw [Document.interface?, Option.bind_some, hnode, Option.bind_some]
    subst hclass
    simp [Node.interface?, serviceNode, exposingNode]

/-- The web client stands under its identifier unless the system or a service does. -/
theorem node?_webClient (h : synthesize facts config = some document) {primary : String}
    (hprimary : primaryService ⟨facts, config⟩ (registeredOwners facts) = some primary)
    (hroot : projectId facts ≠ some webClientId)
    (hservices : webClientId ∉ (registeredOwners facts).entries.map (·.2)) :
    document.node? webClientId = some (webClientNode (clientOrigins ⟨facts, config⟩)) := by
  have hclient : candidateNodes ⟨facts, config⟩ (registeredOwners facts) .webClient =
      [webClientNode (clientOrigins ⟨facts, config⟩)] := by
    show (primaryService ⟨facts, config⟩ (registeredOwners facts)).toList.map _ = _
    rw [hprimary]
    rfl
  refine node?_of_first h [.system, .services, .dataAssets] .webClient rfl ?_ ?_
  · intro earlier hearlier m hm heq
    simp only [List.mem_cons, List.not_mem_nil, or_false] at hearlier
    rcases hearlier with rfl | rfl | rfl
    · rw [projectId_of_mem_system hm, heq] at hroot
      exact hroot rfl
    · rw [← heq] at hservices
      exact hservices (registered_of_mem_services hm)
    · obtain ⟨asset, _, rfl⟩ := List.mem_map.mp hm
      exact dataAssetId_ne_webClientId asset.simpleName heq
  · rw [hclient]
    exact List.find?_cons_of_pos (by simp [webClientNode])

/-! ## The ends of relationships -/

/-- A composition goes from the system node, to another node, a service, unless the system has the
identifier of the service. -/
theorem composition_ends (h : synthesize facts config = some document) {r : Relationship}
    (hr : r ∈ document.relationships) (hkind : r.kind = .composedOf) :
    document.kindOf? r.source.node = some .system ∧
      (projectId facts ≠ some r.destination.node →
        r.destination.node ≠ r.source.node ∧
          document.kindOf? r.destination.node = some .service) := by
  cases form_of_offered (offered_of_mem h hr) with
  | interaction | database | externalService | producer | consumer => cases hkind
  | composition hproject hservice =>
    refine ⟨kindOf?_system h hproject, ?_⟩
    intro hroot
    refine ⟨?_, (served h hservice hroot).1⟩
    intro heq
    exact hroot (hproject.trans (congrArg some heq.symm))

/-- An interaction goes from a web client, unless the system or a service has its identifier, to a
service with the interface that it names, unless the system has the identifier of the service. -/
theorem interaction_ends (h : synthesize facts config = some document) {r : Relationship}
    (hr : r ∈ document.relationships) (hkind : r.kind = .interacts) :
    (projectId facts ≠ some webClientId →
      webClientId ∉ (registeredOwners facts).entries.map (·.2) →
        document.kindOf? r.source.node = some .webClient) ∧
    (projectId facts ≠ some r.destination.node →
      document.kindOf? r.destination.node = some .service ∧
        ∃ i, document.interface? r.destination = some i ∧ i.protocol = r.protocol) := by
  cases form_of_offered (offered_of_mem h hr) with
  | composition | database | externalService | producer | consumer => cases hkind
  | interaction hprimary =>
    constructor
    · intro hroot hservices
      exact Document.kindOf?_of_node? (node?_webClient h hprimary hroot hservices)
    · intro hroot
      obtain ⟨hservice, hinterface⟩ := served h (primaryService_mem hprimary) hroot
      exact ⟨hservice, _, hinterface, rfl⟩

/-- **Main theorem.** In the document of any facts, every registered service whose identifier is
not that of the system is a service node with its interface; compositions go from the system node,
and to another node, a service, unless the system has the identifier of the service; and
interactions go from a web client, unless the system or a service has its identifier, to a service
with the interface that the interaction names and with its protocol, unless the system has the
identifier of the service. -/
theorem synthesize_end_kinds (h : synthesize facts config = some document) :
    let draft := finalDraft facts config
    (∀ id ∈ draft.owners.serviceIds, draft.systemId ≠ some id →
      document.kindOf? id = some .service ∧
        document.interface? ⟨id, some (apiId id)⟩ = some ⟨apiId id,
          some (Input.serverProtocol ⟨facts, config⟩),
          some (Input.serverPort ⟨facts, config⟩)⟩) ∧
    (∀ r ∈ document.relationships, r.kind = .composedOf →
      document.kindOf? r.source.node = some .system ∧
        (draft.systemId ≠ some r.destination.node →
          r.destination.node ≠ r.source.node ∧
            document.kindOf? r.destination.node = some .service)) ∧
    ∀ r ∈ document.relationships, r.kind = .interacts →
      (draft.systemId ≠ some webClientId → webClientId ∉ draft.owners.serviceIds →
        document.kindOf? r.source.node = some .webClient) ∧
      (draft.systemId ≠ some r.destination.node →
        document.kindOf? r.destination.node = some .service ∧
          ∃ i, document.interface? r.destination = some i ∧ i.protocol = r.protocol) := by
  intro draft
  have hsystem : draft.systemId = projectId facts := systemId_finalDraft facts config
  have hids : ∀ id, id ∈ draft.owners.serviceIds ↔
      id ∈ (registeredOwners facts).entries.map (·.2) := by
    intro id
    rw [← owners_finalDraft facts config]
    exact List.mem_eraseDups
  rw [hsystem, hids]
  refine ⟨?_, ?_, ?_⟩
  · intro id hid hroot
    exact served h ((hids id).mp hid) hroot
  · intro r hr hkind
    exact composition_ends h hr hkind
  · intro r hr hkind
    exact interaction_ends h hr hkind

/-- The endpoint of a class. -/
def endpointOf (className : String) : ServiceEndpoint :=
  { serviceClass := className, httpMethod := "GET", path := "/", framework := "" }

/-- A project with one service, which browsers of other origins may reach. -/
def openProject (artifactId className : String) : Facts :=
  ((Facts.empty.insert .projectMetadata { artifactId }).insert
    .serviceEndpoints (endpointOf className)).insert
    .securityConfiguration { configurationType := "CORS" }

theorem synthesize_end_kinds_shop :
    ∃ document, synthesize (openProject "Shop" "shop.Order") .default = some document ∧
      document.kindOf? "order" = some .service ∧
      ∀ r ∈ document.relationships, r.kind = .interacts →
        document.kindOf? r.source.node = some .webClient := by
  have hdocument : synthesize (openProject "Shop" "shop.Order") .default = some _ :=
    synthesize_of_architectural (by decide +kernel)
  obtain ⟨hservices, _, hinteractions⟩ := synthesize_end_kinds hdocument
  refine ⟨_, hdocument, (hservices "order" (by decide +kernel) (by decide +kernel)).1, ?_⟩
  intro r hr hkind
  exact (hinteractions r hr hkind).1 (by decide +kernel) (by decide +kernel)

/-- A service with the identifier of the system is absorbed, so that the system is composed of
itself and the interaction names an interface that is not there; and a service with the identifier
of the web client takes its place. -/
theorem synthesize_end_kinds_absorbed :
    (∃ document, synthesize (openProject "OrderService" "shop.OrderService") .default =
        some document ∧
      "order-service" ∈
        (finalDraft (openProject "OrderService" "shop.OrderService") .default).owners.serviceIds ∧
      document.kindOf? "order-service" = some .system ∧
      (∃ r ∈ document.relationships, r.kind = .composedOf ∧
        r.destination.node = r.source.node) ∧
      ∃ r ∈ document.relationships, r.kind = .interacts ∧
        document.interface? r.destination = none) ∧
    ∃ document, synthesize (openProject "Shop" "shop.WebClient") .default = some document ∧
      ∃ r ∈ document.relationships, r.kind = .interacts ∧
        document.kindOf? r.source.node = some .service := by
  constructor
  · refine ⟨_, synthesize_of_architectural (by decide +kernel), ?_⟩
    decide +kernel
  · refine ⟨_, synthesize_of_architectural (by decide +kernel), ?_⟩
    decide +kernel

end Synthesis

end ArchDoc
