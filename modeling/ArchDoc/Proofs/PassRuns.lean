import ArchDoc.Proofs.Offers

/-!
# Runs of passes

What one pass does to a draft, in terms of its candidates, and what runs of passes make of an
empty draft. Once the system pass and the services pass have run, the owners and the system are
what the facts say and stay so; from then on every pass adds candidates that no longer depend on
the draft.

Results:

* `nodes_runPass`, `relationships_runPass`, `entries_runPass`: one pass on any draft.
* `Settled.runPass`: owners and system stay as the facts determine them.
* `nodes_runPasses`, `relationships_runPasses`: any passes on a draft that is settled.
* `nodes_runPasses_start`, `relationships_runPasses_start`: any passes after the first two.
* `runPasses_inOrder_eq_referenceDocument`: all passes in order give the first candidate of each
  identifier.
-/

namespace ArchDoc.Synthesis

open ArchDoc.Fact Identifier

variable (input : Input) {draft : Draft}

/-! ## One pass -/

theorem Draft.Distinct.runPass {input : Input} (h : draft.Distinct) (pass : Pass) :
    (runPass input draft pass).Distinct :=
  h.applyAll _

theorem nodes_runPass (h : draft.Distinct) (pass : Pass) :
    (runPass input draft pass).nodes =
      keepFirst Node.id (draft.nodes ++ candidateNodes input draft.owners pass) := by
  rw [runPass, Draft.nodes_applyAll h]
  exact keepFirst_append_congr (keepFirst_nodes_steps input draft pass) draft.nodes

theorem relationships_runPass (h : draft.Distinct) (pass : Pass) :
    (runPass input draft pass).relationships =
      keepFirst Relationship.id
        (draft.relationships ++
          candidateRelationships input draft.owners draft.systemId pass) := by
  rw [runPass, Draft.relationships_applyAll h, relationships_steps]

theorem entries_runPass (h : draft.Distinct) (pass : Pass) :
    (runPass input draft pass).owners.entries =
      keepFirst Prod.fst (draft.owners.entries ++
        if pass = .services then (registeredOwners input.facts).entries else []) := by
  rw [runPass, Draft.entries_applyAll h, owners_steps]

/-- The system pass names the system only when it adds its node. -/
theorem systemId_runPass_system (draft : Draft) :
    (runPass input draft .system).systemId =
      match projectId input.facts with
      | none => draft.systemId
      | some id => if id ∈ draft.nodes.map Node.id then draft.systemId else some id := by
  unfold runPass Pass.steps systemSteps projectId namedProject
  cases input.facts.first? .projectMetadata with
  | none => rfl
  | some project =>
    by_cases hname : project.artifactId.isEmpty = true
    · simp only [hname, if_true, Option.filter_some, Bool.not_true, Bool.false_eq_true, if_false]
      rfl
    · simp only [hname, Bool.false_eq_true, if_false, Option.filter_some, Bool.not_false, if_true]
      exact Draft.systemId_apply draft (.system (systemNode project))

theorem systemId_runPass_of_ne {pass : Pass} (hpass : pass ≠ .system) :
    (runPass input draft pass).systemId = draft.systemId := by
  apply Draft.systemId_applyAll
  rw [systems_steps, if_neg hpass]

/-! ## Settled drafts -/

theorem nodup_registeredOwners (facts : Facts) :
    ((registeredOwners facts).entries.map Prod.fst).Nodup := by
  have hid := nodup_map_keepFirst id
    (((facts.rows .serviceEndpoints).map (·.serviceClass)).filter (!·.isEmpty))
  rw [List.map_id] at hid
  simpa [registeredOwners, exposingClasses, Function.comp_def] using hid

/-- The owners and the system are those that the facts determine. -/
structure Settled (draft : Draft) : Prop where
  distinct : draft.Distinct
  owners : draft.owners = registeredOwners input.facts
  system : draft.systemId = projectId input.facts

/-- The system pass and the services pass settle an empty draft. -/
theorem settled_start :
    Settled input (runPasses input .empty [.system, .services]) := by
  have hfirst : (runPass input .empty .system).Distinct := Draft.distinct_empty.runPass _
  have hnone : (runPass input .empty .system).owners.entries = [] :=
    entries_runPass input Draft.distinct_empty .system
  refine ⟨hfirst.runPass _, ?_, ?_⟩
  · have hentries := entries_runPass input hfirst .services
    rw [hnone, if_pos rfl, List.nil_append, keepFirst_eq_self (nodup_registeredOwners _)]
      at hentries
    exact congrArg Owners.mk hentries
  · show (runPass input (runPass input .empty .system) .services).systemId = _
    rw [systemId_runPass_of_ne input (by decide), systemId_runPass_system]
    cases projectId input.facts <;> rfl

/-- Every pass leaves the owners and the system as the facts determine them. -/
theorem Settled.runPass {input : Input} (h : Settled input draft) (pass : Pass) :
    Settled input (runPass input draft pass) := by
  refine ⟨h.distinct.runPass _, ?_, ?_⟩
  · -- the services pass only registers classes that are registered
    have hentries := entries_runPass input h.distinct pass
    rw [h.owners] at hentries
    have hsame : keepFirst Prod.fst ((registeredOwners input.facts).entries ++
        if pass = .services then (registeredOwners input.facts).entries else []) =
          (registeredOwners input.facts).entries := by
      rw [keepFirst_append_of_keys, keepFirst_eq_self (nodup_registeredOwners _)]
      intro e he
      split_ifs at he with hpass
      · exact List.mem_map_of_mem he
      · exact absurd he List.not_mem_nil
    exact congrArg Owners.mk (hentries.trans hsame)
  · by_cases hpass : pass = .system
    · rw [hpass, systemId_runPass_system, h.system]
      cases projectId input.facts with
      | none => rfl
      | some id => exact ite_self _
    · rw [systemId_runPass_of_ne input hpass, h.system]

/-! ## Runs -/

theorem nodes_runPasses {input : Input} (h : Settled input draft) (passes : List Pass) :
    (runPasses input draft passes).nodes = keepFirst Node.id
      (draft.nodes ++ passes.flatMap (candidateNodes input (registeredOwners input.facts))) := by
  induction passes generalizing draft with
  | nil =>
    rw [List.flatMap_nil, List.append_nil, keepFirst_eq_self h.distinct.nodes]
    rfl
  | cons pass passes ih =>
    calc (runPasses input draft (pass :: passes)).nodes
        = keepFirst Node.id ((runPass input draft pass).nodes ++
            passes.flatMap (candidateNodes input (registeredOwners input.facts))) :=
          ih (h.runPass pass)
      _ = keepFirst Node.id (draft.nodes ++
            (pass :: passes).flatMap (candidateNodes input (registeredOwners input.facts))) := by
          rw [nodes_runPass input h.distinct, keepFirst_keepFirst_append, h.owners,
            List.flatMap_cons, List.append_assoc]

theorem relationships_runPasses {input : Input} (h : Settled input draft) (passes : List Pass) :
    (runPasses input draft passes).relationships = keepFirst Relationship.id
      (draft.relationships ++ passes.flatMap
        (candidateRelationships input (registeredOwners input.facts) (projectId input.facts))) := by
  induction passes generalizing draft with
  | nil =>
    rw [List.flatMap_nil, List.append_nil, keepFirst_eq_self h.distinct.relationships]
    rfl
  | cons pass passes ih =>
    calc (runPasses input draft (pass :: passes)).relationships
        = keepFirst Relationship.id ((runPass input draft pass).relationships ++ passes.flatMap
            (candidateRelationships input (registeredOwners input.facts)
              (projectId input.facts))) :=
          ih (h.runPass pass)
      _ = keepFirst Relationship.id (draft.relationships ++ (pass :: passes).flatMap
            (candidateRelationships input (registeredOwners input.facts)
              (projectId input.facts))) := by
          rw [relationships_runPass input h.distinct, keepFirst_keepFirst_append, h.owners,
            h.system, List.flatMap_cons, List.append_assoc]

theorem nodes_start :
    (runPasses input .empty [.system, .services]).nodes = keepFirst Node.id
      ([Pass.system, .services].flatMap
        (candidateNodes input (registeredOwners input.facts))) := by
  have hfirst : (runPass input .empty .system).Distinct := Draft.distinct_empty.runPass _
  have hsystem := nodes_runPass input Draft.distinct_empty .system
  have hservices := nodes_runPass input hfirst .services
  rw [hsystem, keepFirst_keepFirst_append] at hservices
  rw [List.flatMap_cons, List.flatMap_singleton]
  exact hservices

theorem relationships_start :
    (runPasses input .empty [.system, .services]).relationships = [] := by
  have hfirst : (runPass input .empty .system).Distinct := Draft.distinct_empty.runPass _
  have hsystem := relationships_runPass input Draft.distinct_empty .system
  have hservices := relationships_runPass input hfirst .services
  rw [hsystem] at hservices
  exact hservices

/-- Any passes after the first two leave the first candidates of all passes that ran. -/
theorem nodes_runPasses_start (later : List Pass) :
    (runPasses input .empty (.system :: .services :: later)).nodes = keepFirst Node.id
      ((.system :: .services :: later).flatMap
        (candidateNodes input (registeredOwners input.facts))) := by
  have hlater := nodes_runPasses (settled_start input) later
  rw [nodes_start, keepFirst_keepFirst_append, ← List.flatMap_append] at hlater
  exact hlater

theorem relationships_runPasses_start (later : List Pass) :
    (runPasses input .empty (.system :: .services :: later)).relationships =
      keepFirst Relationship.id ((.system :: .services :: later).flatMap
        (candidateRelationships input (registeredOwners input.facts) (projectId input.facts))) := by
  have hlater := relationships_runPasses (settled_start input) later
  rw [relationships_start, List.nil_append] at hlater
  exact hlater

/-- **Main theorem.** All passes in order make the document whose nodes and relationships are the
first candidates of their identifiers, for all facts and settings. -/
theorem runPasses_inOrder_eq_referenceDocument (input : Input) :
    (runPasses input .empty Pass.inOrder).toDocument input.config.schema =
      referenceDocument input := by
  have hsplit : runPasses input .empty Pass.inOrder =
      runPasses input (runPasses input .empty [.system, .services])
        [.dataAssets, .webClient, .databases, .externalServices, .messaging, .composition] :=
    rfl
  have hnodes := nodes_runPasses (settled_start input)
    [.dataAssets, .webClient, .databases, .externalServices, .messaging, .composition]
  have hrelationships := relationships_runPasses (settled_start input)
    [.dataAssets, .webClient, .databases, .externalServices, .messaging, .composition]
  rw [nodes_start, keepFirst_keepFirst_append, ← List.flatMap_append] at hnodes
  rw [relationships_start, List.nil_append] at hrelationships
  unfold Draft.toDocument referenceDocument
  rw [hsplit, hnodes, hrelationships]
  rfl

end ArchDoc.Synthesis
