import ArchDoc.Proofs.PassOrders
import ArchDoc.Proofs.Uniqueness

/-!
# Passes that run again

A step that a draft absorbs changes nothing, and a draft absorbs every step that was applied to it
before. So a pass that runs again changes nothing if its steps are the same again. They depend on
the owners and on the system only, and these stay as they are from the time on when the system pass
and the services pass have run. It does not matter which passes ran meanwhile, nor what they
absorbed.

Main definitions:

* `Draft.Absorbs`: a step that adds nothing to a draft.
* `Spent`: a pass that has nothing to add to a draft.
* `Founded`: a draft whose owners and system no pass changes.
* `Conclusive`: passes that run a pass when the system pass and the services pass have run.

Results:

* `Draft.absorbs_applyAll`, `Draft.applyAll_of_absorbs`: steps are absorbed after they were applied.
* `spent_runPass`, `Spent.runPasses`: a pass is spent when it has run, and stays so.
* `runPasses_again`: which passes change nothing when they run again.
-/

namespace ArchDoc.Synthesis

/-! ## Steps that add nothing -/

namespace Draft

variable {draft later : Draft} {step : Step}

/-- A step adds nothing to a draft: the identifier is taken, the class is registered, or the step
only reports. -/
def Absorbs (draft : Draft) : Step → Prop
  | .node node | .system node => node.id ∈ draft.nodes.map Node.id
  | .relationship r => r.id ∈ draft.relationships.map Relationship.id
  | .owner className _ => className ∈ draft.owners.entries.map Prod.fst
  | .note _ _ | .ownerCount => True

theorem Absorbs.apply_eq (h : draft.Absorbs step) : draft.apply step = draft := by
  cases step with
  | node node => exact if_pos (hasNode_iff.mpr h)
  | system node => exact if_pos (hasNode_iff.mpr h)
  | relationship r => exact if_pos (hasRelationship_iff.mpr h)
  | owner className id =>
    exact congrArg (fun owners => { draft with owners }) (if_pos (Owners.knows_iff.mpr h))
  | note message fields => rfl
  | ownerCount => rfl

theorem absorbs_apply (draft : Draft) (step : Step) : (draft.apply step).Absorbs step := by
  cases step with
  | node node | system node =>
    show node.id ∈ (Draft.nodes _).map Node.id
    rw [nodes_apply]
    dsimp only [Step.node?]
    split_ifs with htaken
    · exact htaken
    · simp
  | relationship r =>
    show r.id ∈ (draft.apply (.relationship r)).relationships.map Relationship.id
    rw [relationships_apply]
    dsimp only [Step.relationship?]
    split_ifs with htaken
    · exact htaken
    · simp
  | owner className id =>
    show className ∈ (draft.owners.register className id).entries.map Prod.fst
    rw [Owners.entries_register]
    split_ifs with hknown
    · exact hknown
    · simp
  | note message fields => trivial
  | ownerCount => trivial

/-- A later draft starts with all that a draft holds. -/
structure Within (draft later : Draft) : Prop where
  nodes : draft.nodes <+: later.nodes
  relationships : draft.relationships <+: later.relationships
  owners : draft.owners.entries <+: later.owners.entries

theorem Within.trans {last : Draft} (h : draft.Within later) (h' : later.Within last) :
    draft.Within last :=
  ⟨h.nodes.trans h'.nodes, h.relationships.trans h'.relationships, h.owners.trans h'.owners⟩

/-- Steps only append. -/
theorem within_apply (draft : Draft) (step : Step) : draft.Within (draft.apply step) where
  nodes := by
    rw [nodes_apply]
    cases step.node? with
    | none => exact List.prefix_rfl
    | some node =>
      dsimp only
      split_ifs
      · exact List.prefix_rfl
      · exact List.prefix_append _ _
  relationships := by
    rw [relationships_apply]
    cases step.relationship? with
    | none => exact List.prefix_rfl
    | some r =>
      dsimp only
      split_ifs
      · exact List.prefix_rfl
      · exact List.prefix_append _ _
  owners := by
    rw [owners_apply]
    cases step.owner? with
    | none => exact List.prefix_rfl
    | some entry =>
      dsimp only
      rw [Owners.entries_register]
      split_ifs
      · exact List.prefix_rfl
      · exact List.prefix_append _ _

theorem within_applyAll (draft : Draft) (steps : List Step) :
    draft.Within (draft.applyAll steps) := by
  induction steps using List.reverseRecOn with
  | nil => exact ⟨List.prefix_rfl, List.prefix_rfl, List.prefix_rfl⟩
  | append_singleton steps step ih =>
    rw [applyAll_concat]
    exact ih.trans (within_apply _ step)

/-- What is absorbed once is absorbed from then on. -/
theorem Absorbs.mono (h : draft.Absorbs step) (hwithin : draft.Within later) :
    later.Absorbs step := by
  cases step with
  | node node | system node => exact (hwithin.nodes.map Node.id).subset h
  | relationship r => exact (hwithin.relationships.map Relationship.id).subset h
  | owner className id => exact (hwithin.owners.map Prod.fst).subset h
  | note message fields => trivial
  | ownerCount => trivial

/-! ### Many steps -/

/-- All steps are absorbed when they have been applied. -/
theorem absorbs_applyAll (draft : Draft) (steps : List Step) :
    ∀ step ∈ steps, (draft.applyAll steps).Absorbs step := by
  induction steps using List.reverseRecOn with
  | nil => exact fun _ h => absurd h List.not_mem_nil
  | append_singleton steps last ih =>
    intro step hstep
    rw [applyAll_concat]
    rcases List.mem_append.mp hstep with hold | hlast
    · exact (ih step hold).mono (within_apply _ last)
    · rw [List.mem_singleton.mp hlast]
      exact absorbs_apply _ last

theorem applyAll_of_absorbs {steps : List Step} (h : ∀ step ∈ steps, draft.Absorbs step) :
    draft.applyAll steps = draft := by
  induction steps with
  | nil => rfl
  | cons step steps ih =>
    show (draft.apply step).applyAll steps = draft
    rw [(h step List.mem_cons_self).apply_eq]
    exact ih fun s hs => h s (List.mem_cons_of_mem step hs)

end Draft

/-! ## Passes that are spent -/

variable {input : Input} {draft : Draft} {pass : Pass}

/-- A pass has nothing to add to a draft. -/
def Spent (input : Input) (draft : Draft) (pass : Pass) : Prop :=
  ∀ step ∈ pass.steps input draft, draft.Absorbs step

theorem Spent.runPass_eq (h : Spent input draft pass) : runPass input draft pass = draft :=
  Draft.applyAll_of_absorbs h

/-- The steps of a pass depend on the owners and the system only. -/
theorem Pass.steps_congr {other : Draft} (howners : other.owners = draft.owners)
    (hsystem : other.systemId = draft.systemId) (pass : Pass) :
    pass.steps input other = pass.steps input draft := by
  cases pass <;> simp only [Pass.steps, howners, hsystem]

/-- A pass that comes before the owners and the system are known, and does not depend on them. -/
def Pass.IsFounding (pass : Pass) : Prop :=
  pass = .system ∨ pass = .services

theorem Pass.IsFounding.steps_eq (h : pass.IsFounding) (draft other : Draft) :
    pass.steps input other = pass.steps input draft := by
  rcases h with rfl | rfl <;> rfl

theorem owners_runPass_of_ne (hpass : pass ≠ .services) :
    (runPass input draft pass).owners = draft.owners := by
  apply Draft.owners_applyAll
  rw [owners_steps, if_neg hpass]

/-- A pass is spent when it has run. -/
theorem spent_runPass (input : Input) (draft : Draft) (pass : Pass) :
    Spent input (runPass input draft pass) pass := by
  -- a pass that looks at the owners and the system changes neither of them
  have hsteps : pass.steps input (runPass input draft pass) = pass.steps input draft := by
    by_cases hfounding : pass.IsFounding
    · exact hfounding.steps_eq _ _
    · obtain ⟨hsystem, hservices⟩ := not_or.mp hfounding
      exact Pass.steps_congr (owners_runPass_of_ne hservices)
        (systemId_runPass_of_ne input hsystem) pass
  intro step hstep
  rw [hsteps] at hstep
  exact Draft.absorbs_applyAll draft _ step hstep

/-- A pass that is spent stays so while its steps stay the same. -/
theorem Spent.of_steps_eq (h : Spent input draft pass) {other : Pass}
    (hsteps : pass.steps input (runPass input draft other) = pass.steps input draft) :
    Spent input (runPass input draft other) pass := by
  intro step hstep
  rw [hsteps] at hstep
  exact (h step hstep).mono (Draft.within_applyAll draft _)

/-! ## Drafts with settled owners -/

/-- Neither the system pass nor the services pass has anything to add. -/
structure Founded (input : Input) (draft : Draft) : Prop where
  system : Spent input draft .system
  services : Spent input draft .services

theorem Founded.owners_runPass (h : Founded input draft) (pass : Pass) :
    (runPass input draft pass).owners = draft.owners := by
  -- only the services pass registers classes, and it is spent
  by_cases hservices : pass = .services
  · rw [hservices, h.services.runPass_eq]
  · exact owners_runPass_of_ne hservices

theorem Founded.systemId_runPass (h : Founded input draft) (pass : Pass) :
    (runPass input draft pass).systemId = draft.systemId := by
  by_cases hsystem : pass = .system
  · rw [hsystem, h.system.runPass_eq]
  · exact systemId_runPass_of_ne input hsystem

theorem Spent.runPass (hfounded : Founded input draft) (h : Spent input draft pass)
    (other : Pass) : Spent input (Synthesis.runPass input draft other) pass :=
  h.of_steps_eq
    (Pass.steps_congr (hfounded.owners_runPass other) (hfounded.systemId_runPass other) pass)

theorem Founded.runPass (h : Founded input draft) (pass : Pass) :
    Founded input (runPass input draft pass) :=
  ⟨h.system.runPass h pass, h.services.runPass h pass⟩

/-- On a draft with settled owners, a pass that is spent stays so whatever passes run. -/
theorem Spent.runPasses (hfounded : Founded input draft) (h : Spent input draft pass)
    (passes : List Pass) : Spent input (runPasses input draft passes) pass := by
  induction passes generalizing draft with
  | nil => exact h
  | cons other passes ih => exact ih (hfounded.runPass other) (h.runPass hfounded other)

/-- The passes that found a draft are spent from their first run on. -/
theorem Pass.IsFounding.spent_runPasses (hfounding : pass.IsFounding) {passes : List Pass}
    (hmem : pass ∈ passes) : Spent input (runPasses input draft passes) pass := by
  induction passes using List.reverseRecOn with
  | nil => exact absurd hmem List.not_mem_nil
  | append_singleton passes last ih =>
    rw [runPasses_append]
    rcases List.mem_append.mp hmem with hold | hlast
    · exact (ih hold).of_steps_eq (hfounding.steps_eq _ _)
    · rw [List.mem_singleton.mp hlast]
      exact spent_runPass input _ last

theorem founded_runPasses {passes : List Pass} (hsystem : .system ∈ passes)
    (hservices : .services ∈ passes) : Founded input (runPasses input draft passes) :=
  ⟨Pass.IsFounding.spent_runPasses (.inl rfl) hsystem,
    Pass.IsFounding.spent_runPasses (.inr rfl) hservices⟩

/-! ## Runs -/

/-- Among passes is a run of one by whose end the system pass and the services pass have run. -/
def Conclusive (passes : List Pass) (pass : Pass) : Prop :=
  ∃ before after, passes = before ++ pass :: after ∧ .system ∈ before ++ [pass] ∧
    .services ∈ before ++ [pass]

theorem Conclusive.spent {passes : List Pass} (h : Conclusive passes pass) :
    Spent input (runPasses input draft passes) pass := by
  obtain ⟨before, after, rfl, hsystem, hservices⟩ := h
  have hspent : Spent input (runPasses input draft (before ++ [pass])) pass := by
    rw [runPasses_append]
    exact spent_runPass input _ pass
  rw [List.append_cons, runPasses_append]
  exact hspent.runPasses (founded_runPasses hsystem hservices) after

theorem conclusive_inOrder (hfounding : ¬ pass.IsFounding) : Conclusive Pass.inOrder pass := by
  have hlater : pass ∈ Pass.inOrder.drop 2 := by
    cases pass with
    | system => exact absurd (.inl rfl) hfounding
    | services => exact absurd (.inr rfl) hfounding
    | dataAssets | webClient | databases | externalServices | messaging | composition => decide
  obtain ⟨before, after, heq⟩ := List.append_of_mem hlater
  exact ⟨.system :: .services :: before, after,
    congrArg ([Pass.system, .services] ++ ·) heq, by simp, by simp⟩

/-- All passes are spent when they have run in order. -/
theorem spent_inOrder (input : Input) (draft : Draft) (pass : Pass) :
    Spent input (runPasses input draft Pass.inOrder) pass := by
  by_cases hfounding : pass.IsFounding
  · exact hfounding.spent_runPasses pass.mem_inOrder
  · exact (conclusive_inOrder hfounding).spent

theorem runPasses_of_spent (h : ∀ pass, Spent input draft pass) (passes : List Pass) :
    runPasses input draft passes = draft := by
  induction passes with
  | nil => rfl
  | cons pass passes ih =>
    show runPasses input (runPass input draft pass) passes = draft
    rw [(h pass).runPass_eq]
    exact ih

/-- **Main theorem.** For all facts and settings and after any passes: a pass that has run when the
system pass and the services pass had run changes nothing when it runs again, and neither does any
pass that has run last. When all passes have run in order, nothing changes any more, whatever passes
run. -/
theorem runPasses_again (input : Input) (passes : List Pass) :
    let built := runPasses input .empty passes
    (∀ pass, Conclusive passes pass → runPass input built pass = built) ∧
      (∀ pass, runPass input (runPass input built pass) pass = runPass input built pass) ∧
      ∀ further, runPasses input .empty (Pass.inOrder ++ further) =
        runPasses input .empty Pass.inOrder := by
  intro built
  refine ⟨?_, ?_, ?_⟩
  · intro pass h
    have hspent : Spent input built pass := h.spent
    exact hspent.runPass_eq
  · intro pass
    exact (spent_runPass input built pass).runPass_eq
  · intro further
    rw [runPasses_append]
    exact runPasses_of_spent (spent_inOrder input .empty) further

/-- A database that is there before its owner is known. Its pass runs twice, and the second run,
which comes when the owner is known, is conclusive: a third one changes nothing. -/
theorem runPasses_again_databases :
    let input : Input := ⟨orderDb, .default⟩
    let early := runPasses input .empty [.databases, .system, .services]
    let built := runPasses input .empty [.databases, .system, .services, .databases, .messaging]
    Conclusive [.databases, .system, .services, .databases, .messaging] .databases ∧
      runPass input early .databases ≠ early ∧ runPass input built .databases = built := by
  intro input early built
  have hconclusive :
      Conclusive [.databases, .system, .services, .databases, .messaging] .databases :=
    ⟨[.databases, .system, .services], [.messaging], rfl, by decide, by decide⟩
  exact ⟨hconclusive, by decide +kernel, (runPasses_again input _).1 .databases hconclusive⟩

end ArchDoc.Synthesis
