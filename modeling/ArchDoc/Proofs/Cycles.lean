import ArchDoc.Lifecycle.Cycle
import ArchDoc.Proofs.MemoryStore

/-!
# What a cycle does

The check of a transition never stands in the way of what a cycle has decided. Over documents in
memory, where no call fails, a cycle is therefore the decision and its effect, and a run is one
cycle after the other.

Results:

* `mayBecome_phaseAfter_choose`: a decision leads to a phase that may follow, in any store.
* `cycle_of_read`: a cycle in any store is its decision and the call that carries it out.
* `cycle_eq`: a cycle over documents in memory succeeds with its decision.
* `decision_of_absent`, `decision_of_present`: the decision, by what the cycle finds.
* `content_after`: the document that a decision leaves.
* `run_eq`, `untilStable_succ`: the runs, without the failures.
-/

namespace ArchDoc.Lifecycle

open Synthesis (synthesizeText)

/-! ## Decisions lead to phases that may follow -/

theorem Phase.classify_some (content : String) :
    classify (some content) = if isPlaceholder content then placeholder else populated := rfl

theorem mayBecome_phaseAfter_plan (current synthesized : Option String) (firstCycle : Bool)
    (h : (plan current firstCycle synthesized).changesStore) :
    (Phase.classify current).mayBecome
      ((plan current firstCycle synthesized).phaseAfter (Phase.classify current)) := by
  cases current with
  | none =>
    cases firstCycle with
    | true => rfl
    | false => exact absurd h (by simp [plan, Action.changesStore])
  | some content =>
    cases synthesized with
    | some text =>
      simp only [plan] at h ⊢
      split_ifs at h ⊢ with hsame
      · exact absurd h (by simp [Action.changesStore])
      · -- a placeholder and a filled document may both be filled
        rw [Phase.classify_some]
        split_ifs
        · rfl
        · rfl
    | none =>
      simp only [plan] at h ⊢
      split_ifs at h ⊢ with hplaceholder
      · rw [hplaceholder]
        rfl
      · exact absurd h (by simp [Action.changesStore])

namespace Regenerator

section

variable {σ : Type} (r : Regenerator σ) (facts : Facts) (current : Option String)

theorem phaseFrom_cases (remembered : Option Phase) (current : Option String) :
    phaseFrom remembered current = .deleted ∨
      phaseFrom remembered current = Phase.classify current := by
  unfold phaseFrom
  split_ifs
  · exact .inl rfl
  · exact .inr rfl

/-- Whatever a cycle decides, the phase that it leads to may follow. -/
theorem mayBecome_phaseAfter_choose
    (h : (r.choose facts (phaseFrom r.phase current) current).changesStore) :
    (phaseFrom r.phase current).mayBecome
      ((r.choose facts (phaseFrom r.phase current) current).phaseAfter
        (phaseFrom r.phase current)) := by
  unfold choose at h ⊢
  split_ifs at h ⊢ with hterminal
  · exact absurd h (by simp [Action.changesStore])
  · rcases phaseFrom_cases r.phase current with hdeleted | hclassify
    · rw [hdeleted] at hterminal
      exact absurd rfl hterminal
    · rw [hclassify]
      exact mayBecome_phaseAfter_plan current _ _ h

variable [DocumentStore σ]

/-- What a cycle has decided is carried out; only the store may still fail. -/
theorem perform_choose (store : σ) (path : String) :
    perform store path (phaseFrom r.phase current)
        (r.choose facts (phaseFrom r.phase current) current) =
      ((carryOut store path (r.choose facts (phaseFrom r.phase current) current)).1,
        (carryOut store path (r.choose facts (phaseFrom r.phase current) current)).2.mapError
          .store) := by
  have hallowed := mayBecome_phaseAfter_choose r facts current
  generalize r.choose facts (phaseFrom r.phase current) current = action at hallowed ⊢
  unfold perform
  split_ifs with hchanges
  · rw [checkTransition, if_pos (hallowed hchanges)]
  · cases action with
    | unchanged => rfl
    | createPlaceholder | write | delete => exact absurd rfl hchanges

theorem cycle_of_read_error {error : Store.Error}
    (h : DocumentStore.read r.store r.config.path = .error error) :
    r.cycle facts = (r, .error (.store error)) := by
  unfold cycle
  rw [h]

/-- In any store, a cycle that can read is the call that carries out its decision. -/
theorem cycle_of_read (h : DocumentStore.read r.store r.config.path = .ok current) :
    r.cycle facts =
      match carryOut r.store r.config.path
          (r.choose facts (phaseFrom r.phase current) current) with
      | (store, .error error) => ({ r with store := store }, .error (.store error))
      | (store, .ok ()) =>
        ({ r with
            store := store
            cycles := r.cycles + 1
            phase := some ((r.choose facts (phaseFrom r.phase current) current).phaseAfter
              (phaseFrom r.phase current)) },
          .ok (r.choose facts (phaseFrom r.phase current) current)) := by
  unfold cycle
  rw [h]
  dsimp only
  rw [perform_choose]
  rcases carryOut r.store r.config.path _ with ⟨store, _ | _⟩ <;> rfl

/-! ## Runs over changing facts -/

/-- One cycle for each of the given facts, in order, up to the first that fails. -/
def run : List Facts → Regenerator σ → Regenerator σ × Except Error (List Action)
  | [], r => (r, .ok [])
  | facts :: snapshots, r =>
    match r.cycle facts with
    | (r, .error e) => (r, .error e)
    | (r, .ok action) =>
      let (r, actions) := run snapshots r
      (r, actions.map (action :: ·))

end

/-! ## Cycles over documents in memory -/

section

open Store (Memory)

variable (r : Regenerator Memory) (facts : Facts)

/-- The document that the next cycle finds. -/
def content : Option String :=
  r.store.get? r.config.path

/-- What the next cycle decides. -/
def decision : Action :=
  r.choose facts (phaseFrom r.phase r.content) r.content

/-- The regenerator after the next cycle. -/
def after : Regenerator Memory :=
  { r with
      store := (carryOut r.store r.config.path (r.decision facts)).1
      cycles := r.cycles + 1
      phase := some ((r.decision facts).phaseAfter (phaseFrom r.phase r.content)) }

theorem carryOut_succeeds (store : Memory) (path : String) (action : Action) :
    (carryOut store path action).2 = .ok () := by
  cases action <;> rfl

/-- A cycle succeeds with its decision. -/
theorem cycle_eq : r.cycle facts = (r.after facts, .ok (r.decision facts)) := by
  have hread : DocumentStore.read r.store r.config.path = .ok r.content := rfl
  have hperform := perform_choose r facts r.content r.store r.config.path
  rw [carryOut_succeeds] at hperform
  unfold cycle
  rw [hread]
  dsimp only
  rw [hperform]
  rfl

@[simp] theorem config_after : (r.after facts).config = r.config := rfl

@[simp] theorem synthesis_after : (r.after facts).synthesis = r.synthesis := rfl

/-! ### Decisions -/

/-- Only the first cycle reserves an absent document. -/
theorem decision_of_absent (h : r.content = none) :
    r.decision facts =
      if r.cycles = 0 ∧ r.phase ≠ some .deleted then .createPlaceholder else .unchanged := by
  unfold decision choose phaseFrom
  rw [h]
  by_cases hdeleted : r.phase = some .deleted
  · simp [hdeleted, Phase.isTerminal, Phase.allowed]
  · by_cases hfirst : r.cycles = 0
    · simp [hdeleted, hfirst, plan, Phase.classify, Phase.isTerminal, Phase.allowed]
    · simp [hdeleted, hfirst, plan, Phase.classify, Phase.isTerminal, Phase.allowed]

/-- A document that is there is compared with the text of the facts, whatever is remembered. -/
theorem decision_of_present {text : String} (h : r.content = some text) :
    r.decision facts = plan (some text) false (synthesizeText facts r.synthesis) := by
  have hphase : phaseFrom r.phase (some text) = Phase.classify (some text) := by
    simp [phaseFrom]
  have hterminal : (Phase.classify (some text)).isTerminal = false := by
    rw [Phase.classify_some]
    split_ifs
    · rfl
    · rfl
  unfold decision choose
  rw [h, hphase, hterminal, if_neg Bool.false_ne_true]
  cases synthesizeText facts r.synthesis <;> simp only [plan]

/-! ### Effects -/

/-- The document that a decision leaves. -/
theorem content_after :
    (r.after facts).content =
      match r.decision facts with
      | .createPlaceholder => some placeholderText
      | .write text => some text
      | .delete => none
      | .unchanged => r.content := by
  unfold content after
  cases r.decision facts with
  | createPlaceholder => exact (Memory.get?_write ..).trans (if_pos rfl)
  | write text => exact (Memory.get?_write ..).trans (if_pos rfl)
  | delete => exact (Memory.get?_delete ..).trans (if_pos rfl)
  | unchanged => rfl

/-- An absent document stays absent or is reserved. -/
theorem content_after_of_absent (h : r.content = none) :
    (r.after facts).content =
      if r.cycles = 0 ∧ r.phase ≠ some .deleted then some placeholderText else none := by
  rw [content_after, decision_of_absent r facts h]
  split_ifs
  · rfl
  · exact h

/-- A document that is there becomes the text of the facts; without a text, a placeholder is
deleted and anything else stays. -/
theorem content_after_of_present (h : r.content ≠ none) :
    (r.after facts).content =
      (synthesizeText facts r.synthesis).or (r.content.filter (!isPlaceholder ·)) := by
  obtain ⟨text, htext⟩ := Option.ne_none_iff_exists'.mp h
  rw [content_after, decision_of_present r facts htext, htext]
  cases synthesizeText facts r.synthesis with
  | some written =>
    simp only [plan]
    split_ifs with hsame
    · rw [hsame]
      rfl
    · rfl
  | none =>
    by_cases hplaceholder : isPlaceholder text
    · simp [plan, Phase.classify_some, Option.filter_some, hplaceholder]
    · simp [plan, Phase.classify_some, Option.filter_some, hplaceholder]

/-! ### The first cycle -/

theorem content_fresh (store : Memory) (config : Config) (synthesis : Synthesis.Config) :
    (fresh store config synthesis).content = store.get? config.path := rfl

/-- The first cycle reserves an absent document, whatever its facts. -/
theorem content_after_fresh {store : Memory} {config : Config} (synthesis : Synthesis.Config)
    (facts : Facts) (h : store.get? config.path = none) :
    ((fresh store config synthesis).after facts).content = some placeholderText := by
  rw [content_after_of_absent _ facts ((content_fresh store config synthesis).trans h)]
  exact if_pos ⟨rfl, (Option.some_ne_none _).symm⟩

/-! ### Runs -/

/-- The regenerator after a cycle for each of the given facts. -/
def afterAll (snapshots : List Facts) : Regenerator Memory :=
  snapshots.foldl after r

/-- What these cycles decide. -/
def decisions : List Facts → Regenerator Memory → List Action
  | [], _ => []
  | facts :: snapshots, r => r.decision facts :: decisions snapshots (r.after facts)

theorem length_decisions (snapshots : List Facts) :
    (decisions snapshots r).length = snapshots.length := by
  induction snapshots generalizing r with
  | nil => rfl
  | cons facts snapshots ih => simp [decisions, ih]

/-- A run succeeds with its decisions. -/
theorem run_eq (snapshots : List Facts) :
    r.run snapshots = (r.afterAll snapshots, .ok (decisions snapshots r)) := by
  induction snapshots generalizing r with
  | nil => rfl
  | cons facts snapshots ih =>
    rw [run, cycle_eq]
    dsimp only
    rw [ih]
    rfl

/-- One round of cycles up to the first that changes nothing. -/
theorem untilStable_succ (bound : Nat) :
    r.untilStable facts (bound + 1) =
      if (r.decision facts).changesStore then
        (((r.after facts).untilStable facts bound).1,
          ((r.after facts).untilStable facts bound).2.map (r.decision facts :: ·))
      else (r.after facts, .ok [r.decision facts]) := by
  rw [untilStable, cycle_eq]

end

end Regenerator

end ArchDoc.Lifecycle
