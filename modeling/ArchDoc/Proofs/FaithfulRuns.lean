import ArchDoc.Proofs.DirectoryStore
import ArchDoc.Proofs.Stability

/-!
# Regeneration over any faithful store

What a regenerator does to its document does not depend on where the document is kept, as long as
no call of the store fails: it decides and leaves what a regenerator over documents in memory does.
What is known of the latter then holds of documents in files.

Main definitions:

* `Unhindered`: no call of the store fails during a round of cycles.
* `Mirrors`: a regenerator and one over documents in memory that find the same document.
* `settled`: the document that a round leaves.

Results:

* `cycle_eq_ok`, `exists_cycle_iff`: what a cycle that succeeds has done, and when one does.
* `store_untilStable`: what the calls of a store keep, a round keeps.
* `unhindered_iff`: a round fails only if a call of the store does.
* `Mirrors.cycle`, `Mirrors.untilStable`: a cycle and a round keep the two in step.
* `Mirrors.unhindered_of_calls`: two calls that succeed are enough for a round.
* `untilStable_of_faithful`: where a round leaves a document in any faithful store.
-/

namespace ArchDoc.Lifecycle.Regenerator

open Store (Faithful Memory)
open Synthesis (synthesizeText)

variable {σ : Type} [DocumentStore σ] {r r' : Regenerator σ} {m : Regenerator Memory}
  {facts : Facts} {action : Action} {bound : Nat}

/-! ## Cycles that succeed -/

/-- A cycle that succeeds has read the document, decided, and carried out what it has decided. -/
theorem cycle_eq_ok (h : r.cycle facts = (r', .ok action)) :
    ∃ current, DocumentStore.read r.store r.config.path = .ok current ∧
      r.choose facts (phaseFrom r.phase current) current = action ∧
      carryOut r.store r.config.path action = (r'.store, .ok ()) ∧
      r' = { r with
        store := r'.store
        cycles := r.cycles + 1
        phase := some (action.phaseAfter (phaseFrom r.phase current)) } := by
  cases hread : DocumentStore.read r.store r.config.path with
  | error e =>
    rw [cycle_of_read_error r facts hread] at h
    exact nomatch (Prod.mk.inj h).2
  | ok current =>
    rw [cycle_of_read r facts current hread] at h
    rcases hout : carryOut r.store r.config.path
        (r.choose facts (phaseFrom r.phase current) current) with ⟨store, e | done⟩
    · rw [hout] at h
      exact nomatch (Prod.mk.inj h).2
    · rw [hout] at h
      obtain ⟨rfl, haction⟩ := Prod.mk.inj h
      obtain rfl := Except.ok.inj haction
      exact ⟨current, rfl, rfl, hout, rfl⟩

/-- A cycle succeeds if its calls do. -/
theorem cycle_succeeds_of_calls {current : Option String}
    (hread : DocumentStore.read r.store r.config.path = .ok current)
    (hout : (carryOut r.store r.config.path
      (r.choose facts (phaseFrom r.phase current) current)).2 = .ok ()) :
    (r.cycle facts).2 = .ok (r.choose facts (phaseFrom r.phase current) current) := by
  rw [cycle_of_read r facts current hread]
  rcases hcalled : carryOut r.store r.config.path
      (r.choose facts (phaseFrom r.phase current) current) with ⟨store, e | done⟩
  · rw [hcalled] at hout
    exact nomatch hout
  · rfl

/-- A cycle succeeds exactly when its calls do, whatever else is said of where it leads. -/
theorem exists_cycle_iff (P : Regenerator σ → Action → Prop) :
    (∃ current, DocumentStore.read r.store r.config.path = .ok current ∧
      (carryOut r.store r.config.path (r.choose facts (phaseFrom r.phase current) current)).2 =
        .ok () ∧
      P (r.cycle facts).1 (r.choose facts (phaseFrom r.phase current) current)) ↔
      ∃ r' action, r.cycle facts = (r', .ok action) ∧ P r' action := by
  constructor
  · rintro ⟨current, hread, hout, hrest⟩
    exact ⟨_, _, Prod.ext rfl (cycle_succeeds_of_calls hread hout), hrest⟩
  · rintro ⟨r', action, hcycle, hrest⟩
    obtain ⟨current, hread, rfl, hout, _⟩ := cycle_eq_ok hcycle
    refine ⟨current, hread, by rw [hout], ?_⟩
    rw [hcycle]
    exact hrest

/-! ## Rounds that succeed -/

/-- No call of the store fails during cycles up to the first one that changes nothing. -/
def Unhindered (facts : Facts) : Nat → Regenerator σ → Prop
  | 0, _ => True
  | bound + 1, r =>
    ∃ current, DocumentStore.read r.store r.config.path = .ok current ∧
      (carryOut r.store r.config.path (r.choose facts (phaseFrom r.phase current) current)).2 =
        .ok () ∧
      ((r.choose facts (phaseFrom r.phase current) current).changesStore →
        Unhindered facts bound (r.cycle facts).1)

theorem unhindered_succ_iff :
    Unhindered facts (bound + 1) r ↔
      ∃ r' action, r.cycle facts = (r', .ok action) ∧
        (action.changesStore → Unhindered facts bound r') :=
  exists_cycle_iff fun r' action => action.changesStore → Unhindered facts bound r'

/-- A round succeeds exactly when no call of the store fails: no other failure can happen. -/
theorem unhindered_iff :
    Unhindered facts bound r ↔ ∃ r' actions, r.untilStable facts bound = (r', .ok actions) := by
  induction bound generalizing r with
  | zero => exact ⟨fun _ => ⟨r, [], rfl⟩, fun _ => trivial⟩
  | succ bound ih =>
    rw [unhindered_succ_iff, untilStable]
    rcases hcycle : r.cycle facts with ⟨next, e | action⟩
    · constructor
      · rintro ⟨_, _, hok, _⟩
        cases (Prod.mk.inj hok).2
      · rintro ⟨_, _, hok⟩
        cases (Prod.mk.inj hok).2
    · dsimp only
      split_ifs with hchanges
      · have hnext := ih (r := next)
        rcases hrest : next.untilStable facts bound with ⟨last, e | actions⟩
        · rw [hrest] at hnext
          constructor
          · rintro ⟨_, _, hok, hunhindered⟩
            obtain ⟨rfl, haction⟩ := Prod.mk.inj hok
            obtain rfl := Except.ok.inj haction
            obtain ⟨_, _, hfailed⟩ := hnext.mp (hunhindered hchanges)
            cases (Prod.mk.inj hfailed).2
          · rintro ⟨_, _, hok⟩
            cases (Prod.mk.inj hok).2
        · rw [hrest] at hnext
          exact ⟨fun _ => ⟨last, action :: actions, rfl⟩,
            fun _ => ⟨next, action, rfl, fun _ => hnext.mpr ⟨last, actions, rfl⟩⟩⟩
      · exact ⟨fun _ => ⟨next, [action], rfl⟩,
          fun _ => ⟨next, action, rfl, fun h => absurd h hchanges⟩⟩

/-! ## What a round keeps -/

theorem config_cycle (r : Regenerator σ) (facts : Facts) : (r.cycle facts).1.config = r.config := by
  unfold cycle
  split
  · rfl
  · dsimp only
    split <;> rfl

theorem config_untilStable (r : Regenerator σ) (facts : Facts) (bound : Nat) :
    (r.untilStable facts bound).1.config = r.config := by
  induction bound generalizing r with
  | zero => rfl
  | succ bound ih =>
    have hconfig := config_cycle r facts
    rw [untilStable]
    rcases hcycle : r.cycle facts with ⟨next, e | action⟩
    · rw [hcycle] at hconfig
      exact hconfig
    · rw [hcycle] at hconfig
      dsimp only
      split_ifs
      · exact (ih next).trans hconfig
      · exact hconfig

/-- The store after a cycle, whether it succeeds or not. -/
theorem store_cycle (r : Regenerator σ) (facts : Facts) :
    ∃ action, (r.cycle facts).1.store = (carryOut r.store r.config.path action).1 := by
  cases hread : DocumentStore.read r.store r.config.path with
  | error e =>
    rw [cycle_of_read_error r facts hread]
    exact ⟨.unchanged, rfl⟩
  | ok current =>
    rw [cycle_of_read r facts current hread]
    refine ⟨r.choose facts (phaseFrom r.phase current) current, ?_⟩
    rcases carryOut r.store r.config.path _ with ⟨store, e | done⟩ <;> rfl

/-- What every call at a path keeps true of a store, a round of cycles keeps true. -/
theorem store_untilStable {P : σ → Prop} {path : String}
    (hcall : ∀ store action, P store → P (carryOut store path action).1)
    (hpath : r.config.path = path) (h : P r.store) (facts : Facts) (bound : Nat) :
    P (r.untilStable facts bound).1.store := by
  induction bound generalizing r with
  | zero => exact h
  | succ bound ih =>
    obtain ⟨called, hstore⟩ := store_cycle r facts
    have hconfig := config_cycle r facts
    have hnext : P (r.cycle facts).1.store := by
      rw [hstore, hpath]
      exact hcall r.store called h
    rw [untilStable]
    rcases hcycle : r.cycle facts with ⟨next, e | action⟩
    · rw [hcycle] at hnext
      exact hnext
    · rw [hcycle] at hnext hconfig
      dsimp only
      split_ifs
      · exact ih (by rw [hconfig, hpath]) hnext
      · exact hnext

/-! ## Documents in memory as a mirror -/

/-- Two regenerators that remember the same and find the same document. -/
structure Mirrors (r : Regenerator σ) (m : Regenerator Memory) : Prop where
  config : r.config = m.config
  synthesis : r.synthesis = m.synthesis
  cycles : r.cycles = m.cycles
  phase : r.phase = m.phase
  content : DocumentStore.read r.store r.config.path = .ok m.content

namespace Mirrors

/-- What is remembered and found decides. -/
theorem choose_eq (h : Mirrors r m) (facts : Facts) :
    r.choose facts (phaseFrom r.phase m.content) m.content = m.decision facts := by
  unfold decision choose
  rw [h.cycles, h.synthesis, h.phase]

/-- A document that was written is there, in memory as in any faithful store, and one that was
deleted is gone. -/
theorem read_of_carryOut [Faithful σ] {after : σ} (h : Mirrors r m)
    (hout : carryOut r.store r.config.path (m.decision facts) = (after, .ok ())) :
    DocumentStore.read after r.config.path = .ok (m.after facts).content := by
  have hcontent := content_after m facts
  cases hdecision : m.decision facts with
  | createPlaceholder =>
    rw [hdecision] at hout hcontent
    rw [hcontent]
    exact Faithful.read_write hout
  | write text =>
    rw [hdecision] at hout hcontent
    rw [hcontent]
    exact Faithful.read_write hout
  | delete =>
    rw [hdecision] at hout hcontent
    rw [hcontent]
    exact Faithful.read_delete hout
  | unchanged =>
    rw [hdecision] at hout hcontent
    rw [hcontent, ← (Prod.mk.inj hout).1]
    exact h.content

/-- A cycle that succeeds decides as the mirror does and keeps the two in step. -/
theorem cycle [Faithful σ] (h : Mirrors r m) (hcycle : r.cycle facts = (r', .ok action)) :
    action = m.decision facts ∧ Mirrors r' (m.after facts) := by
  obtain ⟨current, hread, rfl, hout, hr'⟩ := cycle_eq_ok hcycle
  obtain rfl := Except.ok.inj (h.content.symm.trans hread)
  rw [h.choose_eq] at hout hr' ⊢
  have hcontent := h.read_of_carryOut hout
  refine ⟨rfl, ?_⟩
  rw [hr']
  exact {
    config := h.config
    synthesis := h.synthesis
    cycles := congrArg (· + 1) h.cycles
    phase := by
      rw [h.phase]
      rfl
    content := hcontent }

/-- A round in which no call fails does what the mirror does. -/
theorem untilStable [Faithful σ] (h : Mirrors r m) (hcalls : Unhindered facts bound r) :
    ∃ r', r.untilStable facts bound = (r', (m.untilStable facts bound).2) ∧
      Mirrors r' (m.untilStable facts bound).1 := by
  induction bound generalizing r m with
  | zero => exact ⟨r, rfl, h⟩
  | succ bound ih =>
    obtain ⟨next, action, hcycle, hrest⟩ := unhindered_succ_iff.mp hcalls
    obtain ⟨rfl, hnext⟩ := h.cycle hcycle
    rw [Regenerator.untilStable, hcycle, untilStable_succ]
    dsimp only
    split_ifs with hchanges
    · obtain ⟨last, hround, hlast⟩ := ih hnext (hrest hchanges)
      rw [hround]
      exact ⟨last, rfl, hlast⟩
    · exact ⟨next, rfl, hnext⟩

/-- A cycle succeeds if what the mirror decides can be carried out. -/
theorem cycle_of_carryOut [Faithful σ] {store : σ} (h : Mirrors r m)
    (hout : carryOut r.store r.config.path (m.decision facts) = (store, .ok ())) :
    ∃ r', r.cycle facts = (r', .ok (m.decision facts)) ∧ r'.store = store ∧
      Mirrors r' (m.after facts) := by
  rw [← h.choose_eq] at hout ⊢
  have hsucceeds := cycle_succeeds_of_calls h.content (by rw [hout])
  have hcycle : r.cycle facts = ((r.cycle facts).1, .ok _) := Prod.ext rfl hsucceeds
  obtain ⟨current, hread, _, hcalled, _⟩ := cycle_eq_ok hcycle
  exact ⟨_, hcycle, (Prod.mk.inj (hcalled.symm.trans hout)).1, (h.cycle hcycle).2⟩

/-- Where the mirror is stable no cycle makes a call. -/
theorem unhindered_of_stable [Faithful σ] (h : Mirrors r m) (hstable : m.Stable facts) :
    Unhindered facts bound r := by
  cases bound with
  | zero => trivial
  | succ bound =>
    have hdecision : m.decision facts = .unchanged := hstable
    obtain ⟨r', hcycle, _⟩ := h.cycle_of_carryOut (by rw [hdecision]; rfl)
    rw [hdecision] at hcycle
    exact unhindered_succ_iff.mpr ⟨r', _, hcycle, fun h => absurd h Bool.false_ne_true⟩

/-- A round succeeds if the calls of its first two cycles do: the third cycle makes none. -/
theorem unhindered_of_calls [Faithful σ] {store : σ} (h : Mirrors r m)
    (hfirst : carryOut r.store r.config.path (m.decision facts) = (store, .ok ()))
    (hsecond : (carryOut store r.config.path ((m.after facts).decision facts)).2 = .ok ()) :
    Unhindered facts bound r := by
  cases bound with
  | zero => trivial
  | succ bound =>
    obtain ⟨next, hcycle, rfl, hnext⟩ := h.cycle_of_carryOut hfirst
    refine unhindered_succ_iff.mpr ⟨next, _, hcycle, fun _ => ?_⟩
    cases bound with
    | zero => trivial
    | succ bound =>
      have hpath : next.config = r.config := hnext.config.trans h.config.symm
      rw [← hpath] at hsecond
      obtain ⟨last, hlast, _, hstable⟩ := hnext.cycle_of_carryOut (Prod.ext rfl hsecond)
      exact unhindered_succ_iff.mpr
        ⟨last, _, hlast, fun _ => hstable.unhindered_of_stable (stable_afterAll_two m facts)⟩

end Mirrors

/-! ## Where a round leaves a document -/

/-- The document that a round leaves: the text of the facts, and without one what was there,
unless that was a placeholder. -/
def settled (text before : Option String) : Option String :=
  text.or (before.filter (!isPlaceholder ·))

/-- Without a text, a document stays or is absent. -/
theorem settled_none (before : Option String) :
    settled none before = if before.all isPlaceholder then none else before := by
  cases before with
  | none => rfl
  | some text =>
    by_cases h : isPlaceholder text
    · simp [settled, Option.filter_some, h]
    · simp [settled, Option.filter_some, h]

/-- Settling twice is settling once. -/
theorem settled_settled (text before : Option String) :
    settled text (settled text before) = settled text before := by
  cases text with
  | some given =>
    unfold settled
    rw [Option.some_or, Option.some_or]
  | none =>
    unfold settled
    rw [Option.none_or, Option.none_or, Option.filter_filter]
    simp only [Bool.and_self]

/-- Documents in memory of which one has a content. -/
def remembering (path : String) : Option String → Memory
  | none => .empty
  | some text => Memory.empty.insert path text

theorem get?_remembering (path : String) (before : Option String) :
    (remembering path before).get? path = before := by
  cases before with
  | none => rfl
  | some text => exact (Memory.get?_insert ..).trans (if_pos rfl)

/-- Two regenerators before their first cycle are in step if they find the same document. -/
theorem mirrors_fresh {store : σ} {memory : Memory} {config : Config}
    (hread : DocumentStore.read store config.path = .ok (memory.get? config.path))
    (synthesis : Synthesis.Config) :
    Mirrors (fresh store config synthesis) (fresh memory config synthesis) where
  config := rfl
  synthesis := rfl
  cycles := rfl
  phase := rfl
  content := hread

/-- A round that finds no document succeeds if the place can be reserved, and what the facts then
ask for can be done. -/
theorem unhindered_of_absent [Faithful σ] {store reserved : σ} {config : Config}
    {synthesis : Synthesis.Config} (hread : DocumentStore.read store config.path = .ok none)
    (hreserved : DocumentStore.write store config.path placeholderText = (reserved, .ok ()))
    (hnext : (carryOut reserved config.path
      (plan (some placeholderText) false (synthesizeText facts synthesis))).2 = .ok ()) :
    Unhindered facts bound (fresh store config synthesis) := by
  have hcontent : (fresh Memory.empty config synthesis).content = none := rfl
  have hreserve := decision_of_absent _ facts hcontent
  have hplaceholder : ((fresh Memory.empty config synthesis).after facts).content =
      some placeholderText := content_after_fresh synthesis facts hcontent
  rw [if_pos ⟨rfl, (Option.some_ne_none _).symm⟩] at hreserve
  refine (mirrors_fresh hread synthesis).unhindered_of_calls (by rw [hreserve]; exact hreserved) ?_
  rw [decision_of_present _ facts hplaceholder]
  exact hnext

/-- A round that finds the text of the facts makes no call. -/
theorem unhindered_of_written [Faithful σ] {store : σ} {config : Config}
    {synthesis : Synthesis.Config} {text : String}
    (htext : synthesizeText facts synthesis = some text)
    (hread : DocumentStore.read store config.path = .ok (some text)) :
    Unhindered facts bound (fresh store config synthesis) := by
  rw [← get?_remembering config.path (some text)] at hread
  refine (mirrors_fresh hread synthesis).unhindered_of_stable ?_
  have hcontent : (fresh (remembering config.path (some text)) config synthesis).content =
      some text := get?_remembering config.path (some text)
  rw [Stable, decision_of_present _ facts hcontent]
  change plan (some text) false (synthesizeText facts synthesis) = .unchanged
  rw [htext]
  exact if_pos rfl

/-- A round of two or more cycles by a fresh regenerator succeeds if no call of its store fails, and
settles the document. -/
theorem untilStable_of_faithful [Faithful σ] {store : σ} {config : Config}
    {synthesis : Synthesis.Config} {before : Option String}
    (hread : DocumentStore.read store config.path = .ok before) (hbound : 2 ≤ bound)
    (hcalls : Unhindered facts bound (fresh store config synthesis)) :
    ∃ r' actions, (fresh store config synthesis).untilStable facts bound = (r', .ok actions) ∧
      DocumentStore.read r'.store config.path =
        .ok (settled (synthesizeText facts synthesis) before) := by
  rw [← get?_remembering config.path before] at hread
  obtain ⟨r', hround, hr'⟩ := (mirrors_fresh hread synthesis).untilStable hcalls
  obtain ⟨m', actions, hmirror, hspec⟩ := untilStable_spec
    (stable_afterAll_two (fresh (remembering config.path before) config synthesis) facts) bound
  rw [hmirror] at hround hr'
  refine ⟨r', actions, hround, ?_⟩
  have hpath : r'.config = config := by
    have hkept := config_untilStable (fresh store config synthesis) facts bound
    rw [hround] at hkept
    exact hkept
  have hcontent : m'.content =
      ((fresh (remembering config.path before) config synthesis).afterAll
        (List.replicate 2 facts)).content := by
    unfold content
    rw [hspec.store hbound, ← hr'.config, hpath]
    rfl
  rw [← hpath, hr'.content, hcontent, content_afterAll_two_fresh, get?_remembering]
  rfl

end ArchDoc.Lifecycle.Regenerator
