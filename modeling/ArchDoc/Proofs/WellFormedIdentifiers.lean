import ArchDoc.Proofs.NodeIdentifiers
import ArchDoc.Proofs.Slugs

/-!
# Names that give well-formed identifiers

The passes skip rows whose name is empty, but a name can be empty in effect: one that is all
separators has an empty slug. And a name that ends in a separator has a slug that ends in a hyphen,
which the hyphen before a tag then doubles. These are the only names that give identifiers which are
not well-formed, so a document has none exactly when its facts have no such names.

Main definitions:

* `namesOf`: the names from which the nodes of each pass have their identifiers.
* `Pass.suits`: whether a name gives a well-formed identifier.

Results:

* `wellFormed_nodeIds_iff`: when the identifiers of a pass are well-formed.
* `synthesize_wellFormed_iff`: when those of a document are.
* `synthesize_wellFormed_separators`: names that are not skipped, with their identifiers.
-/

namespace ArchDoc.Synthesis

open ArchDoc.Fact Identifier

/-! ## Names and identifiers -/

/-- The names from which the nodes of a pass have their identifiers. -/
def namesOf (facts : Facts) : Pass → List String
  | .system => (namedProject facts).toList.map (·.artifactId)
  | .services => (exposingClasses facts).map ClassName.simpleName
  | .dataAssets => (namedAssets facts).map (·.simpleName)
  | .databases => (namedEntities (facts.rows .databaseConnections)).map (·.entityName)
  | .externalServices => (namedTargets (facts.rows .externalServiceCalls)).map (·.targetService)
  | .messaging => (namedDestinations (facts.rows .messagingConnections)).map (·.destination)
  | .webClient | .composition => []

/-- Whether a name gives a well-formed identifier: it has content, and ends in it in the passes that
join a tag to its slug. -/
def Pass.suits : Pass → String → Bool
  | .dataAssets | .databases | .messaging => endsInContent
  | .system | .services | .externalServices | .webClient | .composition => hasContent

theorem wellFormed_databaseId_iff {entity : String} :
    WellFormed (databaseId entity) ↔ endsInContent entity = true :=
  wellFormed_tagged_iff (show "-db".toList = '-' :: "db".toList from rfl) (by decide)

theorem wellFormed_dataAssetId_iff {name : String} :
    WellFormed (dataAssetId name) ↔ endsInContent name = true :=
  wellFormed_tagged_iff (show "-data".toList = '-' :: "data".toList from rfl) (by decide)

/-- The tag may be any slug, so the messaging system does not matter. -/
theorem wellFormed_messagingId_iff {destination messagingType : String} :
    WellFormed (messagingId destination messagingType) ↔ endsInContent destination = true := by
  rw [messagingId, String.append_assoc]
  exact wellFormed_tagged_iff (by simp [slug]) (hyphenated_slugChars messagingType.toList)

/-! ## Passes -/

/-- The identifiers of a pass are well-formed when all its names suit it. -/
theorem wellFormed_nodeIds_iff (facts : Facts) (pass : Pass) :
    (∀ id ∈ nodeIds facts pass, WellFormed id) ↔
      ∀ name ∈ namesOf facts pass, pass.suits name = true := by
  cases pass with
  | system =>
    unfold nodeIds namesOf projectId
    cases namedProject facts with
    | none => exact iff_of_true (List.forall_mem_nil _) (List.forall_mem_nil _)
    | some project =>
      simp only [Option.map_some, Option.toList_some, List.map_cons, List.map_nil,
        List.forall_mem_singleton]
      exact wellFormed_slug_iff
  | services | externalServices =>
    rw [nodeIds, namesOf, List.forall_mem_map, List.forall_mem_map]
    exact forall₂_congr fun _ _ => wellFormed_slug_iff
  | dataAssets =>
    rw [nodeIds, namesOf, List.forall_mem_map, List.forall_mem_map]
    exact forall₂_congr fun _ _ => wellFormed_dataAssetId_iff
  | databases =>
    rw [nodeIds, namesOf, List.forall_mem_map, List.forall_mem_map]
    exact forall₂_congr fun _ _ => wellFormed_databaseId_iff
  | messaging =>
    -- rows that do not name their node share the destination of one that does
    have hkept : (∀ row ∈ keepFirst (·.destination)
        (namedDestinations (facts.rows .messagingConnections)),
          endsInContent row.destination = true) ↔
        ∀ name ∈ namesOf facts .messaging, endsInContent name = true := by
      rw [← List.forall_mem_map (f := MessagingConnection.destination)
        (P := fun name => endsInContent name = true)]
      exact forall_congr' fun name => imp_congr_left mem_map_keepFirst
    rw [nodeIds, List.forall_mem_map, Pass.suits, ← hkept]
    exact forall₂_congr fun _ _ => wellFormed_messagingId_iff
  | webClient =>
    refine iff_of_true (fun id hid => ?_) (List.forall_mem_nil _)
    unfold nodeIds at hid
    split_ifs at hid
    · rw [List.mem_singleton.mp hid]
      decide
    · exact absurd hid List.not_mem_nil
  | composition => exact iff_of_true (List.forall_mem_nil _) (List.forall_mem_nil _)

/-! ## Documents -/

/-- **Main theorem.** For all facts and settings that make a document: its nodes have well-formed
identifiers exactly when the name of every row that is not skipped has a character besides
separators, and ends in one if a tag follows its slug. -/
theorem synthesize_wellFormed_iff {facts : Facts} {config : Config} {document : Document}
    (h : synthesize facts config = some document) :
    (∀ n ∈ document.nodes, WellFormed n.id) ↔
      ∀ pass, ∀ name ∈ namesOf facts pass, pass.suits name = true := by
  calc (∀ n ∈ document.nodes, WellFormed n.id)
      ↔ ∀ id ∈ document.nodes.map Node.id, WellFormed id := List.forall_mem_map.symm
    _ ↔ ∀ pass, ∀ id ∈ nodeIds facts pass, WellFormed id := by
        simp only [mem_ids_iff h, forall_exists_index]
        exact forall_comm
    _ ↔ ∀ pass, ∀ name ∈ namesOf facts pass, pass.suits name = true :=
        forall_congr' fun pass => wellFormed_nodeIds_iff facts pass

/-- Names with separators in front and in between, and a messaging system without a name. -/
def spacedNames : Facts :=
  ((Facts.empty.insert .serviceEndpoints
      { serviceClass := "shop._HTTP  Orders_", httpMethod := "GET", path := "/", framework := "" }
    ).insert
    .databaseConnections { entityName := "--Order _Item" }).insert
    .messagingConnections
      { className := "shop.Listener", destination := " orders", role := "consumer",
        messagingType := "" }

theorem synthesize_wellFormed_spaced :
    ∃ document, synthesize spacedNames .default = some document ∧
      document.nodes.map Node.id = ["h-t-t-p-orders-", "order-item-db", "orders-"] ∧
      ∀ n ∈ document.nodes, WellFormed n.id := by
  have hdocument : synthesize spacedNames .default = some _ :=
    synthesize_of_architectural (by decide +kernel)
  refine ⟨_, hdocument, by decide +kernel, (synthesize_wellFormed_iff hdocument).mpr ?_⟩
  intro pass
  cases pass <;> decide +kernel

/-- A class without a simple name, an asset that is named by a separator, and an entity whose name
ends in one. None of them is skipped: the first one has an empty identifier, the second one a hyphen
in front, and the third one two in a row. -/
def separatorNames : Facts :=
  ((Facts.empty.insert .serviceEndpoints
      { serviceClass := "shop.", httpMethod := "GET", path := "/", framework := "" }).insert
    .dataAssets { simpleName := "_", assetType := "Entity" }).insert
    .databaseConnections { entityName := "Order " }

theorem synthesize_wellFormed_separators :
    ∃ document, synthesize separatorNames .default = some document ∧
      document.nodes.map Node.id = ["", "-data", "order--db"] ∧
      ∀ n ∈ document.nodes, ¬WellFormed n.id := by
  refine ⟨_, synthesize_of_architectural (by decide +kernel), by decide +kernel, ?_⟩
  decide +kernel

end ArchDoc.Synthesis
