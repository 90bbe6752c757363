import ArchDoc.Proofs.Cycles
import ArchDoc.Proofs.PlaceholderText

/-!
# Regeneration comes to rest

With the same facts, a cycle that changes nothing is followed only by cycles that change nothing.
A document that is there takes one cycle to get to such a state, and an absent one takes at most
two, whatever the regenerator remembers and whatever was done to its documents meanwhile.

Results:

* `Stable.afterAll`: a stable state stays as it is.
* `stable_afterAll_two`: every state is stable after two cycles.
* `untilStable_spec`: what a round of cycles does, from the number of cycles to a stable state.
* `untilStable_settles`: a round takes at most three cycles, and where it leaves the document.
-/

namespace ArchDoc.Lifecycle.Regenerator

open Store (Memory)
open Synthesis (synthesizeText)

variable {r : Regenerator Memory} {facts : Facts}

/-- The next cycle changes nothing. -/
def Stable (r : Regenerator Memory) (facts : Facts) : Prop :=
  r.decision facts = .unchanged

/-! ## Stable states stay stable -/

theorem changesStore_decision_eq_false_iff :
    (r.decision facts).changesStore = false ↔ r.Stable facts := by
  unfold Stable
  cases r.decision facts with
  | unchanged => exact ⟨fun _ => rfl, fun _ => rfl⟩
  | createPlaceholder | write | delete => simp [Action.changesStore]

theorem Stable.store_after (h : r.Stable facts) : (r.after facts).store = r.store := by
  unfold Stable at h
  rw [after, h]
  rfl

theorem Stable.content_after (h : r.Stable facts) : (r.after facts).content = r.content := by
  rw [content, content, h.store_after, config_after]

/-- After a cycle that leaves no document, no further cycle makes one. -/
theorem stable_after_of_gone (h : (r.after facts).content = none) :
    (r.after facts).Stable facts := by
  have hfirst : ¬((r.after facts).cycles = 0 ∧ (r.after facts).phase ≠ some .deleted) :=
    fun h => Nat.succ_ne_zero r.cycles h.1
  rw [Stable, decision_of_absent _ _ h, if_neg hfirst]

theorem Stable.after (h : r.Stable facts) : (r.after facts).Stable facts := by
  cases hcontent : r.content with
  | none => exact stable_after_of_gone (h.content_after.trans hcontent)
  | some text =>
    -- the decision on a document that is there rests on nothing that a stable cycle changes
    have hnext := h.content_after.trans hcontent
    unfold Stable at h ⊢
    rw [decision_of_present _ _ hcontent] at h
    rw [decision_of_present _ _ hnext]
    exact h

/-- From a stable state, further cycles change nothing. -/
theorem Stable.afterAll (h : r.Stable facts) (n : Nat) :
    (r.afterAll (List.replicate n facts)).store = r.store ∧
      decisions (List.replicate n facts) r = List.replicate n .unchanged := by
  induction n generalizing r with
  | zero => exact ⟨rfl, rfl⟩
  | succ n ih =>
    obtain ⟨hstore, hdecisions⟩ := ih h.after
    rw [List.replicate_succ, List.replicate_succ, decisions, hdecisions]
    exact ⟨hstore.trans h.store_after, congrArg (· :: _) h⟩

/-! ## Cycles to a stable state -/

/-- A document that is there needs one cycle. -/
theorem stable_after_of_present (h : r.content ≠ none) : (r.after facts).Stable facts := by
  have hnext := content_after_of_present r facts h
  cases hgiven : synthesizeText facts r.synthesis with
  | some given =>
    rw [hgiven, Option.some_or] at hnext
    rw [Stable, decision_of_present _ _ hnext, synthesis_after, hgiven, plan, if_pos rfl]
  | none =>
    rw [hgiven, Option.none_or] at hnext
    obtain ⟨text, htext⟩ := Option.ne_none_iff_exists'.mp h
    rw [htext, Option.filter_some] at hnext
    split_ifs at hnext with hown
    · -- a document with content of its own is left alone already
      have hfilled : Phase.classify (some text) ≠ .placeholder := by
        rw [Phase.classify_some, if_neg (by simpa using hown)]
        decide
      rw [Stable, decision_of_present _ _ hnext, synthesis_after, hgiven, plan, if_neg hfilled]
    · exact stable_after_of_gone hnext

/-- An absent document that is not stable is reserved, and is then there. -/
theorem stable_or_present_after (h : r.content = none) :
    r.Stable facts ∨ (r.after facts).content = some placeholderText := by
  have hnext := content_after_of_absent r facts h
  unfold Stable
  rw [decision_of_absent r facts h]
  split_ifs at hnext ⊢ with hfirst
  · exact .inr hnext
  · exact .inl rfl

/-- Two cycles are enough from every state. -/
theorem stable_afterAll_two (r : Regenerator Memory) (facts : Facts) :
    (r.afterAll (List.replicate 2 facts)).Stable facts := by
  change ((r.after facts).after facts).Stable facts
  by_cases hcontent : r.content = none
  · rcases stable_or_present_after hcontent with hstable | hpresent
    · exact hstable.after.after
    · exact stable_after_of_present (by rw [hpresent]; exact Option.some_ne_none _)
  · exact (stable_after_of_present hcontent).after

/-! ## Rounds -/

/-- What a round of at most `bound` cycles does, if `k` cycles lead to a stable state: it ends by
finding that state or for want of cycles, and every cycle but the last makes a change. -/
structure Round (facts : Facts) (bound k : Nat) (r r' : Regenerator Memory)
    (actions : List Action) : Prop where
  length_le : actions.length ≤ min bound (k + 1)
  changes : ∀ action ∈ actions.dropLast, action.changesStore
  last : k < bound → actions.getLast? = some .unchanged
  stable : k < bound → r'.Stable facts
  store : k ≤ bound → r'.store = (r.afterAll (List.replicate k facts)).store

theorem round_of_stable {bound k : Nat} (h : r.Stable facts) :
    Round facts (bound + 1) k r (r.after facts) [.unchanged] where
  length_le := by simp
  changes := by simp
  last _ := rfl
  stable _ := h.after
  store _ := h.store_after.trans (h.afterAll k).1.symm

theorem Round.cons {bound k : Nat} {r' : Regenerator Memory} {actions : List Action}
    {action : Action} (h : Round facts bound k (r.after facts) r' actions)
    (hchanges : action.changesStore) :
    Round facts (bound + 1) (k + 1) r r' (action :: actions) where
  length_le := by
    have hlength := h.length_le
    simp only [List.length_cons]
    omega
  changes := by
    intro a ha
    cases actions with
    | nil => exact absurd ha (List.not_mem_nil)
    | cons next actions =>
      rw [List.dropLast_cons_cons] at ha
      rcases List.mem_cons.mp ha with rfl | ha
      · exact hchanges
      · exact h.changes a ha
  last hk := by
    rw [List.getLast?_cons, h.last (Nat.lt_of_succ_lt_succ hk)]
    rfl
  stable hk := h.stable (Nat.lt_of_succ_lt_succ hk)
  store hk := h.store (Nat.le_of_succ_le_succ hk)

theorem untilStable_spec {k : Nat} (h : (r.afterAll (List.replicate k facts)).Stable facts)
    (bound : Nat) :
    ∃ r' actions, r.untilStable facts bound = (r', .ok actions) ∧
      Round facts bound k r r' actions := by
  induction bound generalizing r k with
  | zero =>
    refine ⟨r, [], rfl, by simp, by simp, by simp, by simp, ?_⟩
    intro hk
    rw [Nat.le_zero.mp hk]
    rfl
  | succ bound ih =>
    rw [untilStable_succ]
    split_ifs with hchanges
    · cases k with
      | zero =>
        -- no cycle is needed, so this one does not change the document
        have hnow : r.Stable facts := h
        rw [changesStore_decision_eq_false_iff.mpr hnow] at hchanges
        exact absurd hchanges Bool.false_ne_true
      | succ k =>
        have hnext : ((r.after facts).afterAll (List.replicate k facts)).Stable facts := h
        obtain ⟨r', actions, hround, hspec⟩ := ih hnext
        rw [hround]
        exact ⟨r', r.decision facts :: actions, rfl, hspec.cons hchanges⟩
    · have hstable := changesStore_decision_eq_false_iff.mp (Bool.eq_false_iff.mpr hchanges)
      rw [hstable]
      exact ⟨r.after facts, [.unchanged], rfl, round_of_stable hstable⟩

/-! ## Where a round leaves the document -/

/-- A fresh regenerator gets from any content to the text of the facts in two cycles; without a
text, a placeholder is gone and anything else is what it was. -/
theorem content_afterAll_two_fresh (store : Memory) (config : Config)
    (synthesis : Synthesis.Config) (facts : Facts) :
    ((fresh store config synthesis).afterAll (List.replicate 2 facts)).content =
      (synthesizeText facts synthesis).or
        ((store.get? config.path).filter (!isPlaceholder ·)) := by
  change (((fresh store config synthesis).after facts).after facts).content = _
  have hcontent := content_fresh store config synthesis
  cases hinitial : store.get? config.path with
  | none =>
    have hreserved := content_after_fresh synthesis facts hinitial
    rw [content_after_of_present _ facts (by rw [hreserved]; exact Option.some_ne_none _),
      hreserved, Option.filter_some, isPlaceholder_placeholderText]
    rfl
  | some initial =>
    rw [hinitial] at hcontent
    have hpresent : (fresh store config synthesis).content ≠ none := by
      rw [hcontent]
      exact Option.some_ne_none initial
    rw [(stable_after_of_present hpresent).content_after,
      content_after_of_present _ facts hpresent, hcontent]
    rfl

/-- **Main theorem.** A round of cycles takes at most three, of which all but the last change the
document. With a bound of three or more it ends in a cycle that changes nothing, and so does every
further cycle with the same facts. From a fresh regenerator and a bound of two or more, the document
is then the text of the facts; without a text, a placeholder is gone and anything else is what it
was. -/
theorem untilStable_settles (r : Regenerator Memory) (facts : Facts) (bound : Nat) :
    ∃ r' actions, r.untilStable facts bound = (r', .ok actions) ∧
      actions.length ≤ min bound 3 ∧
      (∀ action ∈ actions.dropLast, action.changesStore) ∧
      (3 ≤ bound → actions.getLast? = some .unchanged ∧
        ∀ n, ∃ r'', r'.run (List.replicate n facts) = (r'', .ok (List.replicate n .unchanged)) ∧
          r''.store = r'.store) ∧
      (r = fresh r.store r.config r.synthesis → 2 ≤ bound →
        r'.store.get? r.config.path =
          (synthesizeText facts r.synthesis).or
            ((r.store.get? r.config.path).filter (!isPlaceholder ·))) := by
  obtain ⟨r', actions, hround, hspec⟩ := untilStable_spec (stable_afterAll_two r facts) bound
  refine ⟨r', actions, hround, hspec.length_le, hspec.changes, ?_, ?_⟩
  · intro hbound
    refine ⟨hspec.last hbound, fun n => ?_⟩
    obtain ⟨hstore, hdecisions⟩ := (hspec.stable hbound).afterAll n
    exact ⟨r'.afterAll (List.replicate n facts), by rw [run_eq, hdecisions], hstore⟩
  · intro hfresh hbound
    have hcontent := content_afterAll_two_fresh r.store r.config r.synthesis facts
    rw [← hfresh] at hcontent
    rw [hspec.store hbound]
    exact hcontent

/-- Without facts, a fresh regenerator reserves an absent document, deletes it and stops: three
cycles are needed. -/
theorem untilStable_settles_absent :
    let r := fresh Memory.empty .default .default
    ∃ r', r.untilStable .empty 4 = (r', .ok [.createPlaceholder, .delete, .unchanged]) ∧
      (∀ n, ∃ r'', r'.run (List.replicate n .empty) =
          (r'', .ok (List.replicate n .unchanged)) ∧ r''.store = r'.store) ∧
      r'.store.get? r.config.path = none := by
  intro r
  have hthree : (r.untilStable .empty 4).2.toOption =
      some [.createPlaceholder, .delete, .unchanged] := by
    decide +kernel
  obtain ⟨r', actions, hround, _, _, hlast, hcontent⟩ := untilStable_settles r .empty 4
  rw [hround] at hthree
  have hactions : actions = [.createPlaceholder, .delete, .unchanged] := Option.some.inj hthree
  exact ⟨r', hactions ▸ hround, (hlast (by decide)).2, hcontent rfl (by decide)⟩

end ArchDoc.Lifecycle.Regenerator
