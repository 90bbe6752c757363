import ArchDoc.Proofs.KeepFirst
import ArchDoc.Synthesis.Draft
import Mathlib.Data.List.Induction

/-!
# What a draft absorbs

After any steps a draft holds the first node offered under each identifier, the first
relationship offered under each identifier, and the first registration of each class. So the
state of a draft is a function of what was offered to it, and how the offers of the three lists
are interleaved does not matter.

Results:

* `nodes_applyAll`, `relationships_applyAll`, `entries_applyAll`: the three lists of a draft.
* `Distinct.applyAll`: no identifier and no class ever occurs twice.
* `systemId_applyAll`, `owners_applyAll`: steps without a system node keep the system, and steps
  without a class keep the owners.
-/

namespace ArchDoc.Synthesis

/-! ## What a step offers -/

namespace Step

/-- The node that a step offers. -/
def node? : Step → Option Node
  | .node n | .system n => some n
  | .relationship _ | .owner _ _ | .note _ _ | .ownerCount => none

/-- The relationship that a step offers. -/
def relationship? : Step → Option Relationship
  | .relationship r => some r
  | .node _ | .system _ | .owner _ _ | .note _ _ | .ownerCount => none

/-- The class that a step registers, with its service. -/
def owner? : Step → Option (String × String)
  | .owner className id => some (className, id)
  | .node _ | .system _ | .relationship _ | .note _ _ | .ownerCount => none

/-- The system node that a step offers. -/
def system? : Step → Option Node
  | .system n => some n
  | .node _ | .relationship _ | .owner _ _ | .note _ _ | .ownerCount => none

@[simp] theorem node?_node (n : Node) : (node n).node? = some n :=
  rfl

@[simp] theorem relationship?_node (n : Node) : (node n).relationship? = none :=
  rfl

end Step

/-! ## One step -/

namespace Owners

theorem knows_iff {owners : Owners} {className : String} :
    owners.knows className = true ↔ className ∈ owners.entries.map Prod.fst := by
  simp [knows]

theorem entries_register (owners : Owners) (className id : String) :
    (owners.register className id).entries =
      if className ∈ owners.entries.map Prod.fst then owners.entries
      else owners.entries ++ [(className, id)] := by
  unfold register
  simp only [knows_iff]
  split_ifs <;> rfl

end Owners

namespace Draft

theorem hasNode_iff {draft : Draft} {id : String} :
    draft.hasNode id = true ↔ id ∈ draft.nodes.map Node.id := by
  simp [hasNode]

theorem hasRelationship_iff {draft : Draft} {id : String} :
    draft.hasRelationship id = true ↔ id ∈ draft.relationships.map Relationship.id := by
  simp [hasRelationship]

theorem nodes_apply (draft : Draft) (step : Step) :
    (draft.apply step).nodes =
      match step.node? with
      | none => draft.nodes
      | some node =>
        if node.id ∈ draft.nodes.map Node.id then draft.nodes else draft.nodes ++ [node] := by
  cases step with
  | node node =>
    simp only [apply, addNode, Step.node?, hasNode_iff]
    split_ifs <;> rfl
  | system node =>
    simp only [apply, addNode, Step.node?, hasNode_iff]
    split_ifs <;> rfl
  | relationship relationship =>
    simp only [apply, addRelationship, Step.node?]
    split_ifs <;> rfl
  | owner className id => rfl
  | note message fields => rfl
  | ownerCount => rfl

theorem relationships_apply (draft : Draft) (step : Step) :
    (draft.apply step).relationships =
      match step.relationship? with
      | none => draft.relationships
      | some relationship =>
        if relationship.id ∈ draft.relationships.map Relationship.id then draft.relationships
        else draft.relationships ++ [relationship] := by
  cases step with
  | node node =>
    simp only [apply, addNode, Step.relationship?]
    split_ifs <;> rfl
  | system node =>
    simp only [apply, addNode, Step.relationship?]
    split_ifs <;> rfl
  | relationship relationship =>
    simp only [apply, addRelationship, Step.relationship?, hasRelationship_iff]
    split_ifs <;> rfl
  | owner className id => rfl
  | note message fields => rfl
  | ownerCount => rfl

theorem owners_apply (draft : Draft) (step : Step) :
    (draft.apply step).owners =
      match step.owner? with
      | none => draft.owners
      | some (className, id) => draft.owners.register className id := by
  cases step with
  | node node =>
    simp only [apply, addNode, Step.owner?]
    split_ifs <;> rfl
  | system node =>
    simp only [apply, addNode, Step.owner?]
    split_ifs <;> rfl
  | relationship relationship =>
    simp only [apply, addRelationship, Step.owner?]
    split_ifs <;> rfl
  | owner className id => rfl
  | note message fields => rfl
  | ownerCount => rfl

theorem systemId_apply (draft : Draft) (step : Step) :
    (draft.apply step).systemId =
      match step.system? with
      | none => draft.systemId
      | some node =>
        if node.id ∈ draft.nodes.map Node.id then draft.systemId else some node.id := by
  cases step with
  | node node =>
    simp only [apply, addNode, Step.system?]
    split_ifs <;> rfl
  | system node =>
    simp only [apply, addNode, Step.system?, hasNode_iff]
    split_ifs <;> rfl
  | relationship relationship =>
    simp only [apply, addRelationship, Step.system?]
    split_ifs <;> rfl
  | owner className id => rfl
  | note message fields => rfl
  | ownerCount => rfl

/-! ## Many steps -/

/-- Identifiers occur once among the nodes and once among the relationships, and every class is
registered once. -/
structure Distinct (draft : Draft) : Prop where
  nodes : (draft.nodes.map Node.id).Nodup
  relationships : (draft.relationships.map Relationship.id).Nodup
  classes : (draft.owners.entries.map Prod.fst).Nodup

theorem distinct_empty : empty.Distinct :=
  ⟨List.nodup_nil, List.nodup_nil, List.nodup_nil⟩

theorem applyAll_append (draft : Draft) (first second : List Step) :
    draft.applyAll (first ++ second) = (draft.applyAll first).applyAll second := by
  unfold applyAll
  rw [List.foldl_append]

theorem applyAll_concat (draft : Draft) (steps : List Step) (step : Step) :
    draft.applyAll (steps ++ [step]) = (draft.applyAll steps).apply step := by
  rw [applyAll_append]
  rfl

/-- The nodes of a draft and then those offered to it, the first one of each identifier. -/
theorem nodes_applyAll {draft : Draft} (h : draft.Distinct) (steps : List Step) :
    (draft.applyAll steps).nodes =
      keepFirst Node.id (draft.nodes ++ steps.filterMap Step.node?) := by
  induction steps using List.reverseRecOn with
  | nil =>
    rw [List.filterMap_nil, List.append_nil, keepFirst_eq_self h.nodes]
    rfl
  | append_singleton steps step ih =>
    rw [applyAll_concat, nodes_apply, ih, List.filterMap_append]
    cases hstep : step.node? with
    | none => simp [hstep]
    | some node =>
      simp only [List.filterMap_cons, List.filterMap_nil, hstep, ← List.append_assoc,
        keepFirst_concat, mem_map_keepFirst]

/-- The relationships of a draft and then those offered to it, the first one of each
identifier. -/
theorem relationships_applyAll {draft : Draft} (h : draft.Distinct) (steps : List Step) :
    (draft.applyAll steps).relationships =
      keepFirst Relationship.id (draft.relationships ++ steps.filterMap Step.relationship?) := by
  induction steps using List.reverseRecOn with
  | nil =>
    rw [List.filterMap_nil, List.append_nil, keepFirst_eq_self h.relationships]
    rfl
  | append_singleton steps step ih =>
    rw [applyAll_concat, relationships_apply, ih, List.filterMap_append]
    cases hstep : step.relationship? with
    | none => simp [hstep]
    | some relationship =>
      simp only [List.filterMap_cons, List.filterMap_nil, hstep, ← List.append_assoc,
        keepFirst_concat, mem_map_keepFirst]

/-- The registered classes of a draft and then those registered by steps, each with the first
service it was registered for. -/
theorem entries_applyAll {draft : Draft} (h : draft.Distinct) (steps : List Step) :
    (draft.applyAll steps).owners.entries =
      keepFirst Prod.fst (draft.owners.entries ++ steps.filterMap Step.owner?) := by
  induction steps using List.reverseRecOn with
  | nil =>
    rw [List.filterMap_nil, List.append_nil, keepFirst_eq_self h.classes]
    rfl
  | append_singleton steps step ih =>
    rw [applyAll_concat, owners_apply, List.filterMap_append]
    cases hstep : step.owner? with
    | none => simp [hstep, ih]
    | some entry =>
      simp only [List.filterMap_cons, List.filterMap_nil, hstep, Owners.entries_register, ih,
        ← List.append_assoc, keepFirst_concat, mem_map_keepFirst]

theorem Distinct.applyAll {draft : Draft} (h : draft.Distinct) (steps : List Step) :
    (draft.applyAll steps).Distinct where
  nodes := nodes_applyAll h steps ▸ nodup_map_keepFirst _ _
  relationships := relationships_applyAll h steps ▸ nodup_map_keepFirst _ _
  classes := entries_applyAll h steps ▸ nodup_map_keepFirst _ _

/-- What none of the steps changes stays as it is. -/
theorem applyAll_eq_of_forall {β : Type} (part : Draft → β) {steps : List Step}
    (h : ∀ step ∈ steps, ∀ draft : Draft, part (draft.apply step) = part draft) (draft : Draft) :
    part (draft.applyAll steps) = part draft := by
  induction steps generalizing draft with
  | nil => rfl
  | cons step steps ih =>
    calc part ((draft.apply step).applyAll steps)
        = part (draft.apply step) := ih (fun s hs => h s (List.mem_cons_of_mem step hs)) _
      _ = part draft := h step List.mem_cons_self draft

theorem systemId_applyAll {draft : Draft} {steps : List Step}
    (h : steps.filterMap Step.system? = []) :
    (draft.applyAll steps).systemId = draft.systemId := by
  apply applyAll_eq_of_forall Draft.systemId
  intro step hstep before
  rw [systemId_apply, List.filterMap_eq_nil_iff.mp h step hstep]

theorem owners_applyAll {draft : Draft} {steps : List Step}
    (h : steps.filterMap Step.owner? = []) :
    (draft.applyAll steps).owners = draft.owners := by
  apply applyAll_eq_of_forall Draft.owners
  intro step hstep before
  rw [owners_apply, List.filterMap_eq_nil_iff.mp h step hstep]

end Draft

end ArchDoc.Synthesis
