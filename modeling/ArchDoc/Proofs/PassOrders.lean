import ArchDoc.Proofs.NodeIdentifiers
import Mathlib.Data.List.Perm.Basic

/-!
# The order of passes and the identifiers of a document

Passes absorb each other's nodes and relationships, so their order decides which one stands under an
identifier that several of them offer, and in what order the document lists them. It does not decide
which identifiers there are: once the owners and the system are settled, which the first two passes
do, what a pass offers no longer depends on those that ran before it. So when every other pass runs
at some time after these two, in whatever order and however often, the document has the identifiers
that it has when all passes run in order.

Main definitions:

* `Complete`: passes among which are all that may come in any order.

Results:

* `keepFirst_flatMap_perm`: the keys of what passes offer do not depend on the order of the passes.
* `Complete.mem_iff`: after the first two, passes that are complete run all passes.
* `runPasses_ids_perm`: the identifiers of the document.
* `runPasses_ids_perm_contested`: another order may leave a node of another kind.
-/

namespace ArchDoc.Synthesis

open ArchDoc.Fact Identifier

/-- Passes among which is every pass but the first two. -/
structure Complete (later : List Pass) : Prop where
  runs : ∀ pass : Pass, pass ≠ .system → pass ≠ .services → pass ∈ later

/-- After the first two passes, all passes run that run in order, and no others. -/
theorem Complete.mem_iff {later : List Pass} (h : Complete later) (pass : Pass) :
    pass ∈ Pass.system :: .services :: later ↔ pass ∈ Pass.inOrder := by
  refine iff_of_true ?_ pass.mem_inOrder
  by_cases hsystem : pass = .system
  · exact hsystem ▸ List.mem_cons_self
  · by_cases hservices : pass = .services
    · exact List.mem_cons_of_mem _ (hservices ▸ List.mem_cons_self)
    · exact List.mem_cons_of_mem _ (List.mem_cons_of_mem _ (h.runs pass hsystem hservices))

/-- Which keys there are among what passes offer does not depend on the order of the passes, nor on
how often each of them runs. -/
theorem keepFirst_flatMap_perm {α : Type} (key : α → String) (offer : Pass → List α)
    {passes others : List Pass} (h : ∀ pass, pass ∈ passes ↔ pass ∈ others) :
    ((keepFirst key (passes.flatMap offer)).map key).Perm
      ((keepFirst key (others.flatMap offer)).map key) := by
  refine (List.perm_ext_iff_of_nodup (nodup_map_keepFirst key _)
    (nodup_map_keepFirst key _)).mpr fun k => ?_
  rw [mem_map_keepFirst, mem_map_keepFirst, List.map_flatMap, List.map_flatMap, List.mem_flatMap,
    List.mem_flatMap]
  simp only [h]

/-- **Main theorem.** For all facts and settings, passes that start with the first two and then run
every other pass at least once, in any order and with any repetitions, make a document with the same
identifiers of nodes and the same identifiers of relationships as all passes in order. -/
theorem runPasses_ids_perm (input : Input) {later : List Pass} (h : Complete later) :
    let document :=
      (runPasses input .empty (.system :: .services :: later)).toDocument input.config.schema
    let regular := (runPasses input .empty Pass.inOrder).toDocument input.config.schema
    (document.nodes.map Node.id).Perm (regular.nodes.map Node.id) ∧
      (document.relationships.map Relationship.id).Perm
        (regular.relationships.map Relationship.id) := by
  intro document regular
  constructor
  · show ((runPasses input .empty (.system :: .services :: later)).nodes.map Node.id).Perm
      ((finalDraft input.facts input.config).nodes.map Node.id)
    rw [nodes_runPasses_start, nodes_finalDraft]
    exact keepFirst_flatMap_perm Node.id _ h.mem_iff
  · show ((runPasses input .empty (.system :: .services :: later)).relationships.map
        Relationship.id).Perm
      ((finalDraft input.facts input.config).relationships.map Relationship.id)
    rw [relationships_runPasses_start, relationships_finalDraft]
    exact keepFirst_flatMap_perm Relationship.id _ h.mem_iff

/-- A database of orders, and a service elsewhere that has the name of its identifier. -/
def orderDb : Facts :=
  ((Facts.empty.insert .serviceEndpoints
      { serviceClass := "shop.OrderController", httpMethod := "GET", path := "/orders",
        framework := "Spring" }).insert
    .databaseConnections { entityName := "Order", repositoryClass := some "shop.OrderRepository" }
    ).insert
    .externalServiceCalls
      { clientClass := "shop.DbClient", targetService := "order-db", clientType := "REST" }

/-- The passes backwards after the first two. The database gives its place to the external
service. -/
theorem runPasses_ids_perm_contested :
    let input : Input := ⟨orderDb, .default⟩
    let later := Pass.inOrder.reverse
    let document :=
      (runPasses input .empty (.system :: .services :: later)).toDocument input.config.schema
    let regular := (runPasses input .empty Pass.inOrder).toDocument input.config.schema
    Complete later ∧
      (document.nodes.map Node.id).Perm (regular.nodes.map Node.id) ∧
      regular.nodes.map (fun n => (n.id, n.kind)) =
        [("order-controller", .service), ("order-db", .database)] ∧
      document.nodes.map (fun n => (n.id, n.kind)) =
        [("order-controller", .service), ("order-db", .service)] := by
  intro input later document regular
  have hcomplete : Complete later := ⟨fun pass _ _ => List.mem_reverse.mpr pass.mem_inOrder⟩
  have hperm := runPasses_ids_perm input hcomplete
  exact ⟨hcomplete, hperm.1, by decide +kernel, by decide +kernel⟩

end ArchDoc.Synthesis
