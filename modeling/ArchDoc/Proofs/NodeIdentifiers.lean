import ArchDoc.Proofs.FactTables
import ArchDoc.Proofs.FinalDraft

/-!
# The identifiers of the nodes of a document

Which identifiers the nodes of a document have is decided by the facts alone, table by table: a
name gives its identifier whatever stands in the other columns of its row and in the other tables.
Absorbing a node loses its kind and its name, but not its identifier.

Main definitions:

* `nodeIds`: the identifiers that the facts give to the nodes of each pass.

Results:

* `map_id_candidateNodes`: they are those of the candidates.
* `mem_ids_iff`: and the document has all of them and no others.
* `Includes.exists_synthesize`, `Includes.nodeIds_subset`: more rows still make a document, and most
  passes give them no fewer identifiers.
-/

namespace ArchDoc

open ArchDoc.Fact Identifier

namespace Synthesis

/-- Whether there is a service, and browsers of other origins are let in. -/
def servesBrowsers (facts : Facts) : Bool :=
  (facts.rows .securityConfiguration).any (·.isCors) && !(exposingClasses facts).isEmpty

/-- The identifier that a messaging row gives to the node of its destination. -/
def destinationId (row : MessagingConnection) : String :=
  messagingId row.destination row.messagingType

/-- The identifiers of the nodes of a pass. -/
def nodeIds (facts : Facts) : Pass → List String
  | .system => (projectId facts).toList
  | .services => (exposingClasses facts).map serviceId
  | .dataAssets => (namedAssets facts).map fun asset => dataAssetId asset.simpleName
  | .webClient => if servesBrowsers facts then [webClientId] else []
  | .databases =>
    (namedEntities (facts.rows .databaseConnections)).map fun row => databaseId row.entityName
  | .externalServices =>
    (namedTargets (facts.rows .externalServiceCalls)).map fun call => slug call.targetService
  | .messaging =>
    (keepFirst (·.destination)
      (namedDestinations (facts.rows .messagingConnections))).map destinationId
  | .composition => []

theorem map_id_webClient (input : Input) :
    (candidateNodes input (registeredOwners input.facts) .webClient).map Node.id =
      nodeIds input.facts .webClient := by
  unfold candidateNodes nodeIds primaryService servesBrowsers registeredOwners
  rw [List.head?_map]
  cases (input.facts.rows .securityConfiguration).any (·.isCors) with
  | false => rfl
  | true => cases exposingClasses input.facts <;> rfl

theorem map_id_candidateNodes (input : Input) (pass : Pass) :
    (candidateNodes input (registeredOwners input.facts) pass).map Node.id =
      nodeIds input.facts pass := by
  cases pass with
  | system =>
    unfold candidateNodes nodeIds projectId
    cases namedProject input.facts <;> rfl
  | webClient => exact map_id_webClient input
  | services | dataAssets | databases | externalServices | messaging => exact List.map_map
  | composition => rfl

/-- All passes run. -/
theorem Pass.mem_inOrder (pass : Pass) : pass ∈ inOrder := by
  cases pass <;> decide

/-- A document has the identifiers that the facts give to nodes, and no others. -/
theorem mem_ids_iff {facts : Facts} {config : Config} {document : Document}
    (h : synthesize facts config = some document) {id : String} :
    id ∈ document.nodes.map Node.id ↔ ∃ pass, id ∈ nodeIds facts pass := by
  rw [nodes_of_synthesize h, mem_map_keepFirst, offeredNodes, List.map_flatMap, List.mem_flatMap]
  simp only [map_id_candidateNodes ⟨facts, config⟩, Pass.mem_inOrder, true_and]

end Synthesis

/-! ## More rows -/

namespace Facts.Includes

variable {facts more : Facts}

/-- More rows make a document if fewer did. -/
theorem exists_synthesize (h : more.Includes facts) {config : Synthesis.Config}
    {document : Document} (hdocument : Synthesis.synthesize facts config = some document) :
    ∃ document', Synthesis.synthesize more config = some document' :=
  ⟨_, Synthesis.synthesize_of_architectural
    (h.isArchitectural (Synthesis.isArchitectural_of_synthesize hdocument))⟩

theorem exposingClasses_subset (h : more.Includes facts) :
    Synthesis.exposingClasses facts ⊆ Synthesis.exposingClasses more := by
  intro className hclass
  unfold Synthesis.exposingClasses at hclass ⊢
  rw [← eraseDups_eq_keepFirst, List.mem_eraseDups] at hclass ⊢
  exact List.filter_subset _ (List.map_subset _ (h .serviceEndpoints)) hclass

theorem servesBrowsers (h : more.Includes facts)
    (hserves : Synthesis.servesBrowsers facts = true) : Synthesis.servesBrowsers more = true := by
  unfold Synthesis.servesBrowsers at hserves ⊢
  rw [Bool.and_eq_true, List.any_eq_true] at hserves ⊢
  obtain ⟨⟨row, hrow, hcors⟩, hclasses⟩ := hserves
  refine ⟨⟨row, h .securityConfiguration hrow, hcors⟩, ?_⟩
  simp only [Bool.not_eq_true', List.isEmpty_eq_false_iff] at hclasses ⊢
  exact fun hnil => hclasses (List.subset_nil.mp (hnil ▸ h.exposingClasses_subset))

/-- All passes but those that ask for a first row give a node to every name. -/
theorem nodeIds_subset (h : more.Includes facts) {pass : Synthesis.Pass} (hsystem : pass ≠ .system)
    (hmessaging : pass ≠ .messaging) :
    Synthesis.nodeIds facts pass ⊆ Synthesis.nodeIds more pass := by
  cases pass with
  | system => exact absurd rfl hsystem
  | messaging => exact absurd rfl hmessaging
  | services => exact List.map_subset _ h.exposingClasses_subset
  | dataAssets => exact List.map_subset _ (List.filter_subset _ (h .dataAssets))
  | databases => exact List.map_subset _ (List.filter_subset _ (h .databaseConnections))
  | externalServices => exact List.map_subset _ (List.filter_subset _ (h .externalServiceCalls))
  | webClient =>
    intro id hid
    simp only [Synthesis.nodeIds] at hid ⊢
    split_ifs at hid with hserves
    · rwa [if_pos (h.servesBrowsers hserves)]
    · exact absurd hid List.not_mem_nil
  | composition => exact List.Subset.refl []

end Facts.Includes

end ArchDoc
