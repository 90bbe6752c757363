import ArchDoc.Proofs.ChangingFacts
import ArchDoc.Proofs.Histories

/-!
# The remembered phase

Whatever happens to a document, the check of a transition never refuses a cycle, and a cycle that
succeeds remembers a phase that tracks the document it leaves. While nobody else changes the
document, the next cycle therefore takes up the phase where the last one ended, and phases follow
each other as they may.

Results:

* `tracks_phaseAfter`: what a cycle remembers tracks what it leaves.
* `follows_phaseAfter`: it is the phase from which the cycle starts, or one that may follow it.
* `phase_follows_document`: both, for every history of a new regenerator.
-/

namespace ArchDoc.Lifecycle

open Store (Flaky Memory)
open Synthesis (synthesizeText)

/-! ## Phases and contents -/

namespace Phase

/-- A phase tracks a content if it is the one that the content shows. An absent document may also
be known to have been deleted. -/
def Tracks (phase : Phase) (content : Option String) : Prop :=
  phase = deleted ∧ content = none ∨ phase = classify content

theorem classify_ne_deleted (content : Option String) : classify content ≠ deleted := by
  cases content with
  | none => exact nofun
  | some content =>
    rw [classify_some]
    split_ifs
    · exact nofun
    · exact nofun

end Phase

namespace Regenerator

theorem tracks_phaseFrom (remembered : Option Phase) (current : Option String) :
    (phaseFrom remembered current).Tracks current := by
  unfold phaseFrom
  split_ifs with hdeleted
  · exact .inl ⟨rfl, hdeleted.2⟩
  · exact .inr rfl

/-- A cycle takes up a phase that tracks the content it finds. -/
theorem phaseFrom_of_tracks {phase : Phase} {current : Option String}
    (h : phase.Tracks current) : phaseFrom (some phase) current = phase := by
  unfold phaseFrom
  rcases h with ⟨rfl, rfl⟩ | rfl
  · exact if_pos ⟨rfl, rfl⟩
  · exact if_neg fun hdeleted =>
      Phase.classify_ne_deleted current (Option.some.inj hdeleted.1)

/-! ## One cycle -/

section

variable (r : Regenerator Memory) (facts : Facts)

/-- What is written is the text of the facts. -/
theorem synthesizeText_of_decision {text : String} (h : r.decision facts = .write text) :
    synthesizeText facts r.synthesis = some text := by
  cases hcontent : r.content with
  | none =>
    rw [decision_of_absent r facts hcontent] at h
    split_ifs at h
  | some current =>
    rw [decision_of_present r facts hcontent] at h
    cases hgiven : synthesizeText facts r.synthesis with
    | none =>
      rw [hgiven] at h
      simp only [plan] at h
      split_ifs at h
    | some given =>
      rw [hgiven] at h
      simp only [plan] at h
      split_ifs at h
      exact congrArg some (Action.write.inj h)

/-- The phase that a decision leads to tracks the content that it leaves. -/
theorem tracks_phaseAfter :
    ((r.decision facts).phaseAfter (phaseFrom r.phase r.content)).Tracks
      (r.after facts).content := by
  rw [content_after]
  cases hdecision : r.decision facts with
  | createPlaceholder =>
    exact .inr ((Phase.classify_some _).trans (if_pos isPlaceholder_placeholderText)).symm
  | write text =>
    have hfilled := isPlaceholder_synthesizeText (synthesizeText_of_decision r facts hdecision)
    refine .inr ((Phase.classify_some text).trans (if_neg ?_)).symm
    rw [hfilled]
    exact Bool.false_ne_true
  | delete => exact .inl ⟨rfl, rfl⟩
  | unchanged => exact tracks_phaseFrom r.phase r.content

/-- A decision leads to the phase from which it starts or to one that may follow. -/
theorem follows_phaseAfter :
    (r.decision facts).phaseAfter (phaseFrom r.phase r.content) = phaseFrom r.phase r.content ∨
      (r.decision facts).phaseAfter (phaseFrom r.phase r.content) ∈
        (phaseFrom r.phase r.content).allowed := by
  by_cases hchanges : (r.decision facts).changesStore
  · exact .inr (List.contains_iff_mem.mp (mayBecome_phaseAfter_choose r facts r.content hchanges))
  · left
    cases hdecision : r.decision facts with
    | unchanged => rfl
    | createPlaceholder | write | delete =>
      rw [hdecision] at hchanges
      exact absurd rfl hchanges

end

/-! ## Histories -/

variable {r : Regenerator (Flaky Memory)}

/-- Without changes from outside, a document stays as it is until a cycle succeeds. -/
theorem document_afterEvents_of_quiet {events : List Event}
    (hquiet : ∀ event ∈ events, event.isOutside = false) (hnone : r.actions events = []) :
    (r.afterEvents events).document = r.document := by
  induction events generalizing r with
  | nil => rfl
  | cons event events ih =>
    obtain ⟨hinside, hquiet'⟩ := List.forall_mem_cons.mp hquiet
    rw [actions_cons, List.append_eq_nil_iff] at hnone
    rw [afterEvents_cons, ih hquiet' hnone.2]
    cases event with
    | cycle facts =>
      rcases occur_cycle_cases r facts with ⟨_, h⟩ | h
      · rw [h]
      · rw [h] at hnone
        exact nomatch hnone.1
    | fail call => rfl
    | put | remove => exact nomatch hinside

/-- What a successful cycle does to the remembered phase and to the document. -/
theorem phase_of_cycle_ok {r' : Regenerator (Flaky Memory)} {facts : Facts} {action : Action}
    (h : r.cycle facts = (r', .ok action)) :
    ∃ phase, r'.phase = some phase ∧ phase.Tracks r'.document ∧
      (phase = phaseFrom r.phase r.document ∨
        phase ∈ (phaseFrom r.phase r.document).allowed) := by
  rcases cycle_cases r facts with ⟨_, hfails⟩ | ⟨_, hsucceeds⟩
  · rw [hfails] at h
    exact nomatch (Prod.mk.inj h).2
  · rw [hsucceeds] at h
    obtain ⟨rfl, _⟩ := Prod.mk.inj h
    exact ⟨_, rfl, tracks_phaseAfter r.steady facts, follows_phaseAfter r.steady facts⟩

/-- **Main theorem.** In every history of a new regenerator, with cycles that fail and documents
that are put and removed from outside: no cycle is refused for its transition, and a successful one
remembers a phase that tracks the document it leaves. If no cycle succeeds and nothing changes
from outside in between, the next cycle starts from that phase, and when it succeeds it ends in the
same phase or in one that may follow; a deleted document stays deleted. -/
theorem phase_follows_document (store : Flaky Memory) (config : Config)
    (synthesis : Synthesis.Config) (events : List Event) (facts : Facts) :
    let r := (fresh store config synthesis).afterEvents events
    (∀ source target, (r.cycle facts).2 ≠ .error (.illegalTransition source target)) ∧
    ∀ r₁ action, r.cycle facts = (r₁, .ok action) →
      ∃ phase, r₁.phase = some phase ∧
        (phase = .deleted ∧ r₁.document = none ∨ phase = Phase.classify r₁.document) ∧
        ∀ between, (∀ event ∈ between, event.isOutside = false) → r₁.actions between = [] →
          let next := r₁.afterEvents between
          phaseFrom next.phase next.document = phase ∧
          ∀ facts r₂ action, next.cycle facts = (r₂, .ok action) →
            ∃ phase', r₂.phase = some phase' ∧ (phase' = phase ∨ phase' ∈ phase.allowed) ∧
              (phase = .deleted → phase' = .deleted) := by
  intro r
  constructor
  · intro source target hrefused
    rcases cycle_cases r facts with ⟨_, h⟩ | ⟨_, h⟩
    · rw [h] at hrefused
      exact nomatch hrefused
    · rw [h] at hrefused
      exact nomatch hrefused
  · intro r₁ action hcycle
    obtain ⟨phase, hphase, htracks, _⟩ := phase_of_cycle_ok hcycle
    refine ⟨phase, hphase, htracks, fun between hquiet hnone => ?_⟩
    have hsource : phaseFrom (r₁.afterEvents between).phase (r₁.afterEvents between).document =
        phase := by
      rw [phase_afterEvents hnone, document_afterEvents_of_quiet hquiet hnone, hphase]
      exact phaseFrom_of_tracks htracks
    refine ⟨hsource, fun facts' r₂ action' hcycle' => ?_⟩
    obtain ⟨phase', hphase', _, hfollows⟩ := phase_of_cycle_ok hcycle'
    rw [hsource] at hfollows
    refine ⟨phase', hphase', hfollows, fun hdeleted => ?_⟩
    -- nothing may follow a deletion
    rw [hdeleted] at hfollows
    exact hfollows.resolve_right List.not_mem_nil

/-- A placeholder that is deleted for want of a text stays deleted, also after a cycle that has
failed. -/
theorem deletion_outlasts_failure :
    let placed := (fresh ⟨Memory.empty, none⟩ .default .default).afterEvents [.cycle .empty]
    let deleted := (placed.cycle .empty).1
    let between := [.fail (some .read), .cycle .empty, .fail none]
    let next := deleted.afterEvents between
    (placed.cycle .empty).2 = .ok .delete ∧ deleted.document = none ∧
      (∀ event ∈ between, event.isOutside = false) ∧ deleted.actions between = [] ∧
      phaseFrom next.phase next.document = .deleted ∧
      (next.cycle .empty).2 = .ok .unchanged ∧ (next.cycle .empty).1.phase = some .deleted := by
  intro placed deleted between next
  have hdelete : (placed.cycle .empty).2 = .ok .delete := eq_ok_of_toOption (by decide +kernel)
  have hcycle : placed.cycle .empty = (deleted, .ok .delete) := Prod.ext rfl hdelete
  have hquiet : ∀ event ∈ between, event.isOutside = false := by decide
  have hnone : deleted.actions between = [] := by decide +kernel
  have hunchanged : (next.cycle .empty).2 = .ok .unchanged :=
    eq_ok_of_toOption (by decide +kernel)
  obtain ⟨_, htracks⟩ := phase_follows_document ⟨Memory.empty, none⟩ .default .default
    [.cycle .empty] .empty
  obtain ⟨phase, hphase, _, hnext⟩ := htracks deleted .delete hcycle
  have hdeleted : phase = .deleted := Option.some.inj (hphase.symm.trans (by decide +kernel))
  obtain ⟨hsource, hnextCycle⟩ := hnext between hquiet hnone
  obtain ⟨phase', hphase', _, hstays⟩ :=
    hnextCycle .empty (next.cycle .empty).1 .unchanged (Prod.ext rfl hunchanged)
  rw [hstays hdeleted] at hphase'
  rw [hdeleted] at hsource
  exact ⟨hdelete, by decide +kernel, hquiet, hnone, hsource, hunchanged, hphase'⟩

end Regenerator

end ArchDoc.Lifecycle
