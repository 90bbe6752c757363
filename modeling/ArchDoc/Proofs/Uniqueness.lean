import ArchDoc.Proofs.PassRuns

/-!
# Identifiers are unique, and documents only grow

No identifier occurs twice in a document, whatever passes made it: not among the nodes, not among
the relationships, and not among the interfaces of all nodes together. The last part rests on the
first one, since the only interface that a node is ever given is named after the node. Passes never
take anything back: what a document holds stays where it is when further passes run.

Results:

* `exposesOwn_of_mem_candidateNodes`: the interfaces of candidates are named after them.
* `nodup_interfaceIds`: such interfaces differ when their nodes do.
* `prefix_runPasses`: passes only append.
* `runPasses_identifiers_nodup`: no identifier of a document occurs twice, and further passes only
  append to it.
-/

namespace ArchDoc

open Identifier (apiId)

/-! ## Interfaces named after their nodes -/

namespace Node

/-- The identifiers of the interfaces of a node. -/
def interfaceIds (node : Node) : List String :=
  (node.interfaces.getD []).map Interface.id

/-- A node has at most one interface, the one that is named after it. -/
def ExposesOwn (node : Node) : Prop :=
  node.interfaceIds.Sublist [apiId node.id]

theorem exposesOwn_of_none {node : Node} (h : node.interfaces = none) : node.ExposesOwn := by
  unfold ExposesOwn interfaceIds
  rw [h]
  exact List.nil_sublist _

end Node

theorem Identifier.apiId_injective : Function.Injective apiId := by
  intro a b h
  exact (String.append_left_inj "-api").mp h

theorem interfaceIds_sublist {nodes : List Node} (h : ∀ n ∈ nodes, n.ExposesOwn) :
    (nodes.flatMap Node.interfaceIds).Sublist ((nodes.map Node.id).map apiId) := by
  induction nodes with
  | nil => exact List.Sublist.refl []
  | cons n nodes ih =>
    rw [List.flatMap_cons, List.map_cons, List.map_cons, ← List.singleton_append]
    exact (h n List.mem_cons_self).append (ih fun m hm => h m (List.mem_cons_of_mem n hm))

/-- Nodes that differ in their identifiers have interfaces that do. -/
theorem nodup_interfaceIds {nodes : List Node} (hids : (nodes.map Node.id).Nodup)
    (h : ∀ n ∈ nodes, n.ExposesOwn) : (nodes.flatMap Node.interfaceIds).Nodup :=
  (hids.map Identifier.apiId_injective).sublist (interfaceIds_sublist h)

namespace Synthesis

variable {input : Input} {draft : Draft}

theorem exposesOwn_of_mem_candidateNodes {owners : Owners} {pass : Pass} {n : Node}
    (h : n ∈ candidateNodes input owners pass) : n.ExposesOwn := by
  cases pass with
  | services =>
    obtain ⟨className, _, rfl⟩ := List.mem_map.mp h
    exact List.Sublist.refl _
  | system | dataAssets | webClient | databases | externalServices | messaging =>
    obtain ⟨row, _, rfl⟩ := List.mem_map.mp h
    exact Node.exposesOwn_of_none rfl
  | composition => exact absurd h List.not_mem_nil

/-! ## Runs of passes -/

theorem Draft.Distinct.runPasses (h : draft.Distinct) (passes : List Pass) :
    (runPasses input draft passes).Distinct := by
  induction passes generalizing draft with
  | nil => exact h
  | cons pass passes ih => exact ih (h.runPass pass)

theorem exposesOwn_runPasses (h : draft.Distinct) (hown : ∀ n ∈ draft.nodes, n.ExposesOwn)
    (passes : List Pass) : ∀ n ∈ (runPasses input draft passes).nodes, n.ExposesOwn := by
  induction passes generalizing draft with
  | nil => exact hown
  | cons pass passes ih =>
    apply ih (h.runPass pass)
    intro n hn
    rw [nodes_runPass input h] at hn
    rcases List.mem_append.mp (mem_of_mem_keepFirst hn) with hold | hnew
    · exact hown n hold
    · exact exposesOwn_of_mem_candidateNodes hnew

/-- Passes only append to the nodes and the relationships. -/
theorem prefix_runPasses (h : draft.Distinct) (passes : List Pass) :
    draft.nodes <+: (runPasses input draft passes).nodes ∧
      draft.relationships <+: (runPasses input draft passes).relationships := by
  induction passes generalizing draft with
  | nil => exact ⟨List.prefix_rfl, List.prefix_rfl⟩
  | cons pass passes ih =>
    obtain ⟨hnodes, hrelationships⟩ := ih (h.runPass pass)
    have hnodes' : draft.nodes <+: (runPass input draft pass).nodes := by
      rw [nodes_runPass input h]
      exact prefix_keepFirst_append h.nodes _
    have hrelationships' : draft.relationships <+: (runPass input draft pass).relationships := by
      rw [relationships_runPass input h]
      exact prefix_keepFirst_append h.relationships _
    exact ⟨hnodes'.trans hnodes, hrelationships'.trans hrelationships⟩

theorem runPasses_append (input : Input) (draft : Draft) (passes further : List Pass) :
    runPasses input draft (passes ++ further) =
      runPasses input (runPasses input draft passes) further := by
  unfold runPasses
  rw [List.foldl_append]

/-- **Main theorem.** After any passes in any order, repeated or left out, no two nodes, no two
relationships and no two interfaces of the document share an identifier, and whatever passes
follow, the document they make starts with the nodes and relationships of this one. -/
theorem runPasses_identifiers_nodup (input : Input) (passes : List Pass) :
    let document := (runPasses input .empty passes).toDocument input.config.schema
    (document.nodes.map Node.id).Nodup ∧
      (document.relationships.map Relationship.id).Nodup ∧
      (document.nodes.flatMap Node.interfaceIds).Nodup ∧
      ∀ further,
        let later := (runPasses input .empty (passes ++ further)).toDocument input.config.schema
        document.nodes <+: later.nodes ∧ document.relationships <+: later.relationships := by
  intro document
  have hdistinct : (runPasses input .empty passes).Distinct :=
    Draft.distinct_empty.runPasses passes
  have hown : ∀ n ∈ document.nodes, n.ExposesOwn :=
    exposesOwn_runPasses Draft.distinct_empty (fun _ hn => absurd hn List.not_mem_nil) passes
  refine ⟨hdistinct.nodes, hdistinct.relationships, nodup_interfaceIds hdistinct.nodes hown, ?_⟩
  intro further later
  have hlater : later =
      (runPasses input (runPasses input .empty passes) further).toDocument input.config.schema :=
    congrArg (Draft.toDocument · input.config.schema) (runPasses_append input .empty passes further)
  rw [hlater]
  exact prefix_runPasses hdistinct further

end Synthesis

end ArchDoc
