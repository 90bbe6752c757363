import ArchDoc.Proofs.ChangingFacts
import ArchDoc.Proofs.Histories

/-!
# No document is lost

A cycle replaces a document only by a text that its facts give, and deletes only a placeholder for
which they give none. An absent document is the business of the first successful cycle alone, which
reserves it; whatever is absent later on stays absent until somebody puts a document there. Of what
a regenerator remembers, only whether a cycle has succeeded plays a part in this, so that it holds
throughout every history, with calls that fail and documents that others put and remove at any time.

Results:

* `cycle_of_filled`, `cycle_of_removed`, `cycle_of_absent`: a single cycle.
* `count_createPlaceholder_actions`: at most one placeholder is made.
* `document_afterEvents_of_absent`: what is absent stays absent, or the first successful cycle
  reserves it.
* `afterEvents_preserves_document`: all of this for every history of a new regenerator.
-/

namespace ArchDoc.Lifecycle

open Store (Flaky Memory)
open Synthesis (synthesizeText)

theorem isPlaceholder_iff {content : String} :
    isPlaceholder content = true ↔
      Text.trim content = "" ∨ Text.trim content = placeholderText := by
  simp [isPlaceholder]

theorem plan_eq_createPlaceholder_iff {current synthesized : Option String} {firstCycle : Bool} :
    plan current firstCycle synthesized = .createPlaceholder ↔
      current = none ∧ firstCycle = true := by
  cases current with
  | none => simp [plan]
  | some content =>
    cases synthesized with
    | none | some text =>
      simp only [plan, reduceCtorEq, false_and, iff_false]
      split_ifs <;> exact not_false

namespace Regenerator

variable {r : Regenerator (Flaky Memory)} (facts : Facts)

/-! ## One cycle -/

theorem document_advance_of_present (h : r.document ≠ none) :
    (r.advance facts).document =
      (synthesizeText facts r.synthesis).or (r.document.filter (!isPlaceholder ·)) :=
  content_after_of_present r.steady facts h

theorem document_advance_of_absent (h : r.document = none) :
    (r.advance facts).document =
      if r.cycles = 0 ∧ r.phase ≠ some .deleted then some placeholderText else none :=
  content_after_of_absent r.steady facts h

/-- A document with content of its own is kept or becomes the text of the facts. -/
theorem cycle_of_filled {text : String} (htext : r.document = some text)
    (hfilled : isPlaceholder text = false) :
    ∃ kept, (r.cycle facts).1.document = some kept ∧ isPlaceholder kept = false ∧
      (kept = text ∨ synthesizeText facts r.synthesis = some kept) := by
  rcases cycle_cases r facts with ⟨_, h⟩ | ⟨_, h⟩
  · rw [h]
    exact ⟨text, htext, hfilled, .inl rfl⟩
  · have hnext := document_advance_of_present facts
      (by rw [htext]; exact Option.some_ne_none text)
    rw [htext, Option.filter_some, hfilled, Bool.not_false, if_pos rfl] at hnext
    rw [h]
    cases hgiven : synthesizeText facts r.synthesis with
    | none =>
      rw [hgiven, Option.none_or] at hnext
      exact ⟨text, hnext, hfilled, .inl rfl⟩
    | some given =>
      rw [hgiven, Option.some_or] at hnext
      exact ⟨given, hnext, isPlaceholder_synthesizeText hgiven, .inr rfl⟩

/-- Only a placeholder is removed, and only when the facts give no text. -/
theorem cycle_of_removed {text : String} (htext : r.document = some text)
    (hremoved : (r.cycle facts).1.document = none) :
    isPlaceholder text = true ∧ synthesizeText facts r.synthesis = none := by
  rcases cycle_cases r facts with ⟨_, h⟩ | ⟨_, h⟩
  · rw [h, htext] at hremoved
    exact nomatch hremoved
  · rw [h, document_advance_of_present facts (by rw [htext]; exact Option.some_ne_none text),
      htext, Option.or_eq_none_iff, Option.filter_some] at hremoved
    obtain ⟨hnone, hfilter⟩ := hremoved
    refine ⟨?_, hnone⟩
    cases hplaceholder : isPlaceholder text with
    | true => rfl
    | false =>
      rw [hplaceholder] at hfilter
      exact nomatch hfilter

/-! ## Absent documents

What a regenerator remembers of its document only counts once a cycle has succeeded: until then
there is no phase to remember. -/

theorem phase_occur_of_no_cycles (hphase : r.cycles = 0 → r.phase = none) (event : Event)
    (hzero : (r.occur event).after.cycles = 0) : (r.occur event).after.phase = none := by
  obtain ⟨hcycles, hremembered⟩ := remembered_occur r event
  rw [hcycles, Nat.add_eq_zero_iff, List.length_eq_zero_iff] at hzero
  rw [hremembered (by simpa using hzero.2), hphase hzero.1]

/-- An absent document stays absent, unless the cycle is the first that succeeds. -/
theorem cycle_of_absent (hphase : r.cycles = 0 → r.phase = none) (habsent : r.document = none) :
    (r.cycle facts).1.document =
      if r.cycles = 0 ∧ (r.cycle facts).2.isOk then some placeholderText else none := by
  rcases cycle_cases r facts with ⟨_, h⟩ | ⟨_, h⟩
  · rw [h, habsent, if_neg]
    exact fun hok => Bool.false_ne_true hok.2
  · have hfirst : (r.cycles = 0 ∧ r.phase ≠ some .deleted) ↔ r.cycles = 0 :=
      and_iff_left_of_imp fun hzero => by rw [hphase hzero]; exact (Option.some_ne_none _).symm
    rw [h, document_advance_of_absent facts habsent]
    simp only [hfirst, Except.isOk, Except.toBool, and_true]

/-- Only a first cycle reserves a document. -/
theorem cycles_eq_zero_of_reserves (h : r.steady.decision facts = .createPlaceholder) :
    r.cycles = 0 := by
  unfold decision choose at h
  split_ifs at h
  exact beq_iff_eq.mp (plan_eq_createPlaceholder_iff.mp h).2

/-! ## Histories -/

/-- After a successful cycle, no further one reserves the document. -/
theorem createPlaceholder_not_mem_actions (hcycles : r.cycles ≠ 0) (events : List Event) :
    .createPlaceholder ∉ r.actions events := by
  induction events generalizing r with
  | nil => exact List.not_mem_nil
  | cons event events ih =>
    have hnext : (r.occur event).after.cycles ≠ 0 := by
      rw [(remembered_occur r event).1]
      omega
    rw [actions_cons, List.mem_append, not_or]
    refine ⟨?_, ih hnext⟩
    cases event with
    | cycle facts =>
      rcases occur_cycle_cases r facts with ⟨_, h⟩ | h
      · rw [h]
        exact List.not_mem_nil
      · rw [h]
        intro hreserves
        exact hcycles (cycles_eq_zero_of_reserves facts (List.mem_singleton.mp hreserves).symm)
    | fail | put | remove => exact List.not_mem_nil

theorem count_createPlaceholder_actions (r : Regenerator (Flaky Memory)) (events : List Event) :
    (r.actions events).count .createPlaceholder ≤ 1 := by
  induction events generalizing r with
  | nil => exact Nat.zero_le 1
  | cons event events ih =>
    rw [actions_cons, List.count_append]
    cases haction : (r.occur event).action? with
    | none => simpa using ih (r.occur event).after
    | some action =>
      -- the event is a successful cycle, so that no later one is the first
      have hcycles : (r.occur event).after.cycles ≠ 0 := by
        rw [(remembered_occur r event).1, haction]
        exact Nat.succ_ne_zero r.cycles
      rw [List.count_eq_zero_of_not_mem (createPlaceholder_not_mem_actions hcycles events)]
      exact List.count_le_length

/-- Unless somebody puts a document there, an absent document stays absent, or the first
successful cycle of the regenerator reserves it. -/
theorem document_afterEvents_of_absent (hphase : r.cycles = 0 → r.phase = none)
    (habsent : r.document = none) {later : List Event}
    (hputs : ∀ path text, .put path text ∈ later →
      Path.components path ≠ Path.components r.config.path) :
    (r.afterEvents later).document = none ∨
      r.cycles = 0 ∧ (r.actions later).head? = some .createPlaceholder := by
  induction later generalizing r with
  | nil => exact .inl habsent
  | cons event later ih =>
    have hphase' := phase_occur_of_no_cycles hphase event
    have hputs' : ∀ path text, .put path text ∈ later →
        Path.components path ≠ Path.components (r.occur event).after.config.path := by
      rw [(config_occur r event).1]
      exact fun path text hput => hputs path text (List.mem_cons_of_mem event hput)
    rw [afterEvents_cons, actions_cons]
    cases event with
    | cycle facts =>
      rcases occur_cycle_cases r facts with ⟨_, h⟩ | h
      · rw [h] at hphase' hputs' ⊢
        exact ih hphase' habsent hputs'
      · rw [h] at hphase' hputs' ⊢
        by_cases hzero : r.cycles = 0
        · have hreserves : r.steady.decision facts = .createPlaceholder := by
            rw [decision_of_absent r.steady facts habsent]
            exact if_pos ⟨hzero, by rw [show r.steady.phase = none from hphase hzero]; simp⟩
          exact .inr ⟨hzero, congrArg some hreserves⟩
        · have hgone : (r.advance facts).document = none := by
            rw [document_advance_of_absent facts habsent, if_neg fun h => hzero h.1]
          exact (ih hphase' hgone hputs').imp_right fun h => absurd h.1 (Nat.succ_ne_zero r.cycles)
    | fail call => exact ih hphase' habsent hputs'
    | put path text =>
      have hother := hputs path text List.mem_cons_self
      exact ih hphase' ((Memory.get?_insert ..).trans ((if_neg hother.symm).trans habsent)) hputs'
    | remove path =>
      refine ih hphase' ((Memory.get?_delete ..).trans ?_) hputs'
      split_ifs
      · rfl
      · exact habsent

/-- A cycle of a new regenerator is its first one if no action has been taken. -/
theorem cycles_afterEvents_fresh (store : Flaky Memory) (config : Config)
    (synthesis : Synthesis.Config) (events : List Event) :
    ((fresh store config synthesis).afterEvents events).cycles = 0 ↔
      (fresh store config synthesis).actions events = [] := by
  rw [cycles_afterEvents, show (fresh store config synthesis).cycles = 0 from rfl, Nat.zero_add,
    List.length_eq_zero_iff]

/-- **Main theorem.** In every history of a new regenerator, with cycles that fail and documents
that are put and removed from outside: a cycle leaves a document with content of its own as it is
or replaces it by the text of the facts, which is no placeholder either; it removes only a
placeholder, and only without a text; and it leaves an absent document absent, but for the first
successful cycle, which reserves it. So one placeholder is made at most, and a document that is
absent at any time only comes back from outside or by that first successful cycle. -/
theorem afterEvents_preserves_document (store : Flaky Memory) (config : Config)
    (synthesis : Synthesis.Config) (events : List Event) :
    let start := fresh store config synthesis
    let r := start.afterEvents events
    (∀ facts,
      let r' := (r.cycle facts).1
      (∀ text, r.document = some text → isPlaceholder text = false →
        ∃ kept, r'.document = some kept ∧ isPlaceholder kept = false ∧
          (kept = text ∨ synthesizeText facts synthesis = some kept)) ∧
      (∀ text, r.document = some text → r'.document = none →
        (Text.trim text = "" ∨ Text.trim text = placeholderText) ∧
          synthesizeText facts synthesis = none) ∧
      (r.document = none →
        r'.document =
          if start.actions events = [] ∧ (r.cycle facts).2.isOk then some placeholderText
          else none)) ∧
    (start.actions events).count .createPlaceholder ≤ 1 ∧
    ∀ later, r.document = none → (r.afterEvents later).document ≠ none →
      (∃ path text, .put path text ∈ later ∧
        Path.components path = Path.components config.path) ∨
      start.actions events = [] ∧ (r.actions later).head? = some .createPlaceholder := by
  intro start r
  obtain ⟨hconfig, hsynthesis⟩ := config_afterEvents start events
  have hfirst : r.cycles = 0 ↔ start.actions events = [] :=
    cycles_afterEvents_fresh store config synthesis events
  have hphase : r.cycles = 0 → r.phase = none := fun hzero => phase_afterEvents (hfirst.mp hzero)
  refine ⟨fun facts => ⟨?_, ?_, ?_⟩, count_createPlaceholder_actions start events, ?_⟩
  · intro text htext hfilled
    have hkept := cycle_of_filled facts htext hfilled
    rw [hsynthesis] at hkept
    exact hkept
  · intro text htext hremoved
    obtain ⟨hplaceholder, hnone⟩ := cycle_of_removed facts htext hremoved
    rw [hsynthesis] at hnone
    exact ⟨isPlaceholder_iff.mp hplaceholder, hnone⟩
  · intro habsent
    have habsence := cycle_of_absent facts hphase habsent
    simp only [hfirst] at habsence
    exact habsence
  · intro later habsent hback
    by_cases hputs : ∃ path text, .put path text ∈ later ∧
        Path.components path = Path.components config.path
    · exact .inl hputs
    · have hothers : ∀ path text, .put path text ∈ later →
          Path.components path ≠ Path.components r.config.path := by
        rw [hconfig]
        exact fun path text hput hsame => hputs ⟨path, text, hput, hsame⟩
      have hstays := document_afterEvents_of_absent hphase habsent hothers
      rw [hfirst] at hstays
      exact .inr (hstays.resolve_left hback)

/-- Without facts, a document with content of its own is kept, the placeholder of an absent one is
removed, and what is removed only comes back from outside. -/
theorem document_preserved_without_facts :
    let kept := fresh ⟨Memory.empty.insert Config.default.path "notes", none⟩ .default .default
    let start := fresh ⟨Memory.empty, none⟩ .default .default
    let deleted := start.afterEvents [.cycle .empty, .cycle .empty]
    let put := Event.put Config.default.path "notes"
    (∃ text, (kept.cycle .empty).1.document = some text ∧ isPlaceholder text = false ∧
      (text = "notes" ∨ synthesizeText .empty .default = some text)) ∧
    synthesizeText .empty .default = none ∧ (deleted.cycle .empty).1.document = none ∧
    (deleted.afterEvents [put]).document ≠ none ∧
    ((∃ path text, .put path text ∈ [put] ∧
      Path.components path = Path.components Config.default.path) ∨
      start.actions [.cycle .empty, .cycle .empty] = [] ∧
        (deleted.actions [put]).head? = some .createPlaceholder) := by
  intro kept start deleted put
  obtain ⟨hkept, _, _⟩ := afterEvents_preserves_document
    ⟨Memory.empty.insert Config.default.path "notes", none⟩ .default .default []
  obtain ⟨hreserved, _, _⟩ := afterEvents_preserves_document ⟨Memory.empty, none⟩ .default .default
    [.cycle .empty]
  obtain ⟨hdeleted, _, hback⟩ := afterEvents_preserves_document ⟨Memory.empty, none⟩ .default
    .default [.cycle .empty, .cycle .empty]
  have habsent : deleted.document = none := by decide +kernel
  have hput : (deleted.afterEvents [put]).document ≠ none := by decide +kernel
  have hgone := (hdeleted .empty).2.2 habsent
  rw [if_neg (by decide +kernel)] at hgone
  exact ⟨(hkept .empty).1 "notes" (by decide +kernel) (by decide +kernel),
    ((hreserved .empty).2.1 placeholderText (by decide +kernel) (by decide +kernel)).2, hgone,
    hput, hback [put] habsent hput⟩

end Regenerator

end ArchDoc.Lifecycle
