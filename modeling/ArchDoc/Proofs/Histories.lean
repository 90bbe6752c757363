import ArchDoc.Proofs.Failures
import ArchDoc.Proofs.Outcomes

/-!
# Histories of a regenerator

What may happen to a regenerator over documents in memory: cycles with any facts, calls that are
made to fail and work again, and documents that others put or remove, in any order. The record of a
history says what came of each cycle and where the regenerator stood after each event.

Only successful cycles count in what a regenerator remembers, and a cycle that fails can be left
out of a history without any difference to the rest of it.

Results:

* `cycles_afterEvents`, `phase_afterEvents`: what a regenerator remembers of a history.
* `record_survivors`: the record of a history without the cycles that fail.
* `failed_cycles_leave_no_trace`: failures in histories, in single cycles and in cycles up to the
  first that changes nothing.
-/

namespace ArchDoc.Lifecycle

open Store (Atomic Call Flaky Memory)

/-! ## Events and their record -/

/-- What may happen: a cycle, a change of the call that fails (or of there being one), and a
document that is put or removed from outside. -/
inductive Event where
  | cycle (facts : Facts)
  | fail (call : Option Call)
  | put (path text : String)
  | remove (path : String)

/-- Whether an event is a change of the documents from outside. -/
def Event.isOutside : Event → Bool
  | put _ _ | remove _ => true
  | cycle _ | fail _ => false

/-- What is recorded of an event: the outcome, if it is a cycle, and the regenerator after it. -/
structure Occurrence where
  outcome : Option (Except Error Action)
  after : Regenerator (Flaky Memory)

namespace Occurrence

/-- The action of a cycle that has succeeded. -/
def action? (occurrence : Occurrence) : Option Action :=
  occurrence.outcome.bind Except.toOption

/-- Whether an event is a cycle that has failed. -/
def failed (occurrence : Occurrence) : Bool :=
  occurrence.outcome.any (!·.isOk)

end Occurrence

namespace Regenerator

/-- What an event does. -/
def occur (r : Regenerator (Flaky Memory)) : Event → Occurrence
  | .cycle facts => ⟨some (r.cycle facts).2, (r.cycle facts).1⟩
  | .fail call => ⟨none, { r with store := { r.store with failing := call } }⟩
  | .put path text =>
    ⟨none, { r with store := { r.store with store := r.store.store.insert path text } }⟩
  | .remove path =>
    ⟨none, { r with store := { r.store with store := r.store.store.delete path } }⟩

/-- The record of a history. -/
def record : List Event → Regenerator (Flaky Memory) → List Occurrence
  | [], _ => []
  | event :: events, r => r.occur event :: record events (r.occur event).after

/-- The regenerator after a history. -/
def afterEvents (r : Regenerator (Flaky Memory)) (events : List Event) :
    Regenerator (Flaky Memory) :=
  events.foldl (fun r event => (r.occur event).after) r

/-- The actions of the successful cycles of a history. -/
def actions (events : List Event) (r : Regenerator (Flaky Memory)) : List Action :=
  (r.record events).filterMap Occurrence.action?

/-- The events of a history without the cycles that fail. -/
def survivors : List Event → Regenerator (Flaky Memory) → List Event
  | [], _ => []
  | event :: events, r =>
    if (r.occur event).failed then survivors events (r.occur event).after
    else event :: survivors events (r.occur event).after

variable {r : Regenerator (Flaky Memory)}

@[simp] theorem afterEvents_nil (r : Regenerator (Flaky Memory)) : r.afterEvents [] = r := rfl

@[simp] theorem afterEvents_cons (r : Regenerator (Flaky Memory)) (event : Event)
    (events : List Event) :
    r.afterEvents (event :: events) = (r.occur event).after.afterEvents events := rfl

theorem actions_cons (r : Regenerator (Flaky Memory)) (event : Event) (events : List Event) :
    r.actions (event :: events) =
      (r.occur event).action?.toList ++ (r.occur event).after.actions events := by
  unfold actions
  rw [record, List.filterMap_cons]
  cases (r.occur event).action? <;> rfl

/-- A cycle fails and leaves the regenerator as it is, or it does what it decides. -/
theorem occur_cycle_cases (r : Regenerator (Flaky Memory)) (facts : Facts) :
    (∃ error, r.occur (.cycle facts) = ⟨some (.error error), r⟩) ∨
      r.occur (.cycle facts) = ⟨some (.ok (r.steady.decision facts)), r.advance facts⟩ := by
  have hoccur : r.occur (.cycle facts) = ⟨some (r.cycle facts).2, (r.cycle facts).1⟩ := rfl
  rcases cycle_cases r facts with ⟨_, h⟩ | ⟨_, h⟩
  · rw [hoccur, h]
    exact .inl ⟨_, rfl⟩
  · rw [hoccur, h]
    exact .inr rfl

/-! ## What stays and what is remembered -/

theorem config_occur (r : Regenerator (Flaky Memory)) (event : Event) :
    (r.occur event).after.config = r.config ∧
      (r.occur event).after.synthesis = r.synthesis := by
  cases event with
  | cycle facts =>
    rcases occur_cycle_cases r facts with ⟨_, h⟩ | h
    · rw [h]
      exact ⟨rfl, rfl⟩
    · rw [h]
      exact ⟨rfl, rfl⟩
  | fail | put | remove => exact ⟨rfl, rfl⟩

theorem config_afterEvents (r : Regenerator (Flaky Memory)) (events : List Event) :
    (r.afterEvents events).config = r.config ∧
      (r.afterEvents events).synthesis = r.synthesis := by
  induction events generalizing r with
  | nil => exact ⟨rfl, rfl⟩
  | cons event events ih =>
    obtain ⟨hconfig, hsynthesis⟩ := ih (r.occur event).after
    exact ⟨hconfig.trans (config_occur r event).1, hsynthesis.trans (config_occur r event).2⟩

/-- Only a successful cycle counts, and only such a cycle changes the remembered phase. -/
theorem remembered_occur (r : Regenerator (Flaky Memory)) (event : Event) :
    (r.occur event).after.cycles = r.cycles + (r.occur event).action?.toList.length ∧
      ((r.occur event).action? = none → (r.occur event).after.phase = r.phase) := by
  cases event with
  | cycle facts =>
    rcases occur_cycle_cases r facts with ⟨_, h⟩ | h
    · rw [h]
      exact ⟨rfl, fun _ => rfl⟩
    · rw [h]
      exact ⟨rfl, fun hnone => nomatch hnone⟩
  | fail | put | remove => exact ⟨rfl, fun _ => rfl⟩

theorem cycles_afterEvents (r : Regenerator (Flaky Memory)) (events : List Event) :
    (r.afterEvents events).cycles = r.cycles + (r.actions events).length := by
  induction events generalizing r with
  | nil => rfl
  | cons event events ih =>
    rw [afterEvents_cons, ih, (remembered_occur r event).1, actions_cons, List.length_append,
      Nat.add_assoc]

/-- A history without a successful cycle leaves the remembered phase alone. -/
theorem phase_afterEvents {events : List Event} (h : r.actions events = []) :
    (r.afterEvents events).phase = r.phase := by
  induction events generalizing r with
  | nil => rfl
  | cons event events ih =>
    rw [actions_cons, List.append_eq_nil_iff] at h
    have hnone : (r.occur event).action? = none := by simpa using h.1
    rw [afterEvents_cons, ih h.2, (remembered_occur r event).2 hnone]

/-! ## Histories without failures -/

theorem failed_occur {event : Event} (h : (r.occur event).failed) :
    (r.occur event).after = r := by
  cases event with
  | cycle facts =>
    rcases occur_cycle_cases r facts with ⟨_, hfails⟩ | hsucceeds
    · rw [hfails]
    · rw [hsucceeds] at h
      exact absurd h (by simp [Occurrence.failed, Except.isOk, Except.toBool])
  | fail | put | remove => exact absurd h (by simp [occur, Occurrence.failed])

/-- Without the cycles that fail, a history goes as it did with them. -/
theorem record_survivors (r : Regenerator (Flaky Memory)) (events : List Event) :
    r.record (r.survivors events) = (r.record events).filter (!·.failed) := by
  induction events generalizing r with
  | nil => rfl
  | cons event events ih =>
    rw [survivors, record, List.filter_cons]
    by_cases hfailed : (r.occur event).failed
    · rw [if_pos hfailed, failed_occur hfailed, ih, hfailed]
      rfl
    · rw [if_neg hfailed, record, ih, if_pos (by simpa using hfailed)]

/-- **Main theorem.** Where failing calls do nothing, a cycle that fails leaves everything as it
was, and cycles up to the first that changes nothing leave what their last successful one left
when the next one fails. Over documents in memory a cycle fails exactly when it makes the call that
is made to fail; and leaving the failed cycles out of a history leaves the record of everything
else as it is: outcomes, documents, counters and what is remembered. -/
theorem failed_cycles_leave_no_trace (σ : Type) [DocumentStore σ] [Atomic σ] :
    (∀ (r r' : Regenerator σ) (facts : Facts) (error : Error),
      r.cycle facts = (r', .error error) → r' = r) ∧
    (∀ (r r' : Regenerator σ) (facts : Facts) (bound : Nat) (error : Error),
      r.untilStable facts bound = (r', .error error) →
        ∃ k < bound, ∃ actions, r.run (List.replicate k facts) = (r', .ok actions) ∧
          (∀ action ∈ actions, action.changesStore) ∧ r'.cycle facts = (r', .error error)) ∧
    (∀ (r : Regenerator (Flaky Memory)) (facts : Facts),
      (∃ error, (r.cycle facts).2 = .error error) ↔
        ∃ call ∈ r.calls facts, r.store.failing = some call) ∧
    ∀ (r : Regenerator (Flaky Memory)) (events : List Event),
      r.record (r.survivors events) = (r.record events).filter (!·.failed) :=
  ⟨fun _ _ _ _ h => cycle_error h, fun _ _ _ _ _ h => untilStable_error h, cycle_error_iff,
    record_survivors⟩

/-- A placeholder whose deletion fails stays, with everything else, and a round of cycles on an
absent document leaves it when it gets there. -/
theorem failed_delete_leaves_placeholder :
    let r : Regenerator (Flaky Memory) := fresh ⟨.empty, some .delete⟩ .default .default
    let placed := (r.cycle .empty).1
    let tried := placed.cycle .empty
    let round := r.untilStable .empty 4
    placed.document = some placeholderText ∧
      (∃ error, tried.2 = .error error) ∧ tried.1 = placed ∧
      ∃ error, round.2 = .error error ∧ ∃ k < 4, ∃ actions,
        r.run (List.replicate k .empty) = (round.1, .ok actions) ∧
          (∀ action ∈ actions, action.changesStore) ∧
          round.1.cycle .empty = (round.1, .error error) := by
  intro r placed tried round
  obtain ⟨hcycle, hround, _, _⟩ := failed_cycles_leave_no_trace (Flaky Memory)
  obtain ⟨error, herror⟩ : ∃ error, tried.2 = .error error :=
    exists_error_of_toOption (by decide +kernel)
  obtain ⟨error', herror'⟩ : ∃ error, round.2 = .error error :=
    exists_error_of_toOption (by decide +kernel)
  have htried : tried = (tried.1, .error error) := Prod.ext rfl herror
  have hended : round = (round.1, .error error') := Prod.ext rfl herror'
  exact ⟨by decide +kernel, ⟨error, herror⟩, hcycle placed tried.1 .empty error htried,
    error', herror', hround r round.1 .empty 4 error' hended⟩

end Regenerator

end ArchDoc.Lifecycle
