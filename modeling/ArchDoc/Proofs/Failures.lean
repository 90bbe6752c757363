import ArchDoc.Proofs.Cycles

/-!
# Cycles that fail

A cycle moves on only when all its calls of the store succeed. Where a failing call does nothing,
a cycle that fails therefore leaves everything as it was, and cycles that end in a failure leave
what the last successful one left. Over documents in memory nothing fails but the calls that are
made to fail, so there a cycle either makes such a call or takes no notice of it.

Results:

* `cycle_error`: a cycle that fails leaves the regenerator as it was.
* `untilStable_error`: what cycles up to the first that changes nothing leave when one fails.
* `cycle_cases`: when a cycle over documents in memory fails, and what it does otherwise.
-/

namespace ArchDoc

/-! ## Stores whose failing calls do nothing -/

namespace Store

/-- A store is atomic if a call that fails leaves it as it was. -/
class Atomic (σ : Type) [DocumentStore σ] : Prop where
  write_error : ∀ {store after : σ} {path text : String} {error : Error},
    DocumentStore.write store path text = (after, .error error) → after = store
  delete_error : ∀ {store after : σ} {path : String} {error : Error},
    DocumentStore.delete store path = (after, .error error) → after = store

instance : Atomic Memory where
  write_error h := nomatch (Prod.mk.inj h).2
  delete_error h := nomatch (Prod.mk.inj h).2

section

variable {σ : Type} [DocumentStore σ]

theorem Flaky.write_eq (store : Flaky σ) (path text : String) :
    DocumentStore.write store path text =
      if store.failing = some .write then (store, .error (injectedError path))
      else ({ store with store := (DocumentStore.write store.store path text).1 },
        (DocumentStore.write store.store path text).2) := rfl

theorem Flaky.delete_eq (store : Flaky σ) (path : String) :
    DocumentStore.delete store path =
      if store.failing = some .delete then (store, .error (injectedError path))
      else ({ store with store := (DocumentStore.delete store.store path).1 },
        (DocumentStore.delete store.store path).2) := rfl

instance [Atomic σ] : Atomic (Flaky σ) where
  write_error {store after path text error} h := by
    rw [Flaky.write_eq] at h
    split_ifs at h
    · exact (Prod.mk.inj h).1.symm
    · obtain ⟨hafter, herror⟩ := Prod.mk.inj h
      have hstore : (DocumentStore.write store.store path text).1 = store.store :=
        Atomic.write_error (Prod.ext rfl herror)
      rw [← hafter, hstore]
  delete_error {store after path error} h := by
    rw [Flaky.delete_eq] at h
    split_ifs at h
    · exact (Prod.mk.inj h).1.symm
    · obtain ⟨hafter, herror⟩ := Prod.mk.inj h
      have hstore : (DocumentStore.delete store.store path).1 = store.store :=
        Atomic.delete_error (Prod.ext rfl herror)
      rw [← hafter, hstore]

end

end Store

namespace Lifecycle

open Store (Atomic Call Flaky Memory injectedError)

/-- The call of the store that carries out an action. -/
def Action.call? : Action → Option Call
  | createPlaceholder | write _ => some .write
  | delete => some .delete
  | unchanged => none

namespace Regenerator

section

variable {σ : Type} [DocumentStore σ]

/-- The calls of the store that a cycle makes, in order. -/
def calls (r : Regenerator σ) (facts : Facts) : List Call :=
  match DocumentStore.read r.store r.config.path with
  | .error _ => [.read]
  | .ok current => .read :: (r.choose facts (phaseFrom r.phase current) current).call?.toList

/-! ## Failures leave no mark -/

variable [Atomic σ]

theorem carryOut_error {store after : σ} {path : String} {action : Action} {error : Store.Error}
    (h : carryOut store path action = (after, .error error)) : after = store := by
  cases action with
  | createPlaceholder => exact Atomic.write_error h
  | write text => exact Atomic.write_error h
  | delete => exact Atomic.delete_error h
  | unchanged => exact nomatch (Prod.mk.inj h).2

/-- A cycle that fails leaves the regenerator as it was, with its documents. -/
theorem cycle_error {r r' : Regenerator σ} {facts : Facts} {error : Error}
    (h : r.cycle facts = (r', .error error)) : r' = r := by
  cases hread : DocumentStore.read r.store r.config.path with
  | error e =>
    rw [cycle_of_read_error r facts hread] at h
    exact (Prod.mk.inj h).1.symm
  | ok current =>
    rw [cycle_of_read r facts current hread] at h
    cases hout : carryOut r.store r.config.path
        (r.choose facts (phaseFrom r.phase current) current) with
    | mk store outcome =>
      rw [hout] at h
      cases outcome with
      | error e =>
        rw [← (Prod.mk.inj h).1, carryOut_error hout]
      | ok => exact nomatch (Prod.mk.inj h).2

/-- Cycles up to the first that changes nothing, when one of them fails: those before it have
succeeded and changed the document, and the failing one leaves what they left. -/
theorem untilStable_error {r r' : Regenerator σ} {facts : Facts} {error : Error} {bound : Nat}
    (h : r.untilStable facts bound = (r', .error error)) :
    ∃ k < bound, ∃ actions, r.run (List.replicate k facts) = (r', .ok actions) ∧
      (∀ action ∈ actions, action.changesStore) ∧ r'.cycle facts = (r', .error error) := by
  induction bound generalizing r with
  | zero => cases (Prod.mk.inj h).2
  | succ bound ih =>
    rw [untilStable] at h
    rcases hcycle : r.cycle facts with ⟨next, e | action⟩
    · -- the first cycle fails, so there is none that succeeded
      rw [hcycle] at h
      obtain ⟨rfl, herror⟩ := Prod.mk.inj h
      obtain rfl := Except.error.inj herror
      obtain rfl := cycle_error hcycle
      exact ⟨0, Nat.succ_pos bound, [], rfl, fun _ ha => absurd ha List.not_mem_nil, hcycle⟩
    · rw [hcycle] at h
      dsimp only at h
      split_ifs at h with hchanges
      · rcases hrest : next.untilStable facts bound with ⟨last, e | actions⟩
        · rw [hrest] at h
          obtain ⟨rfl, herror⟩ := Prod.mk.inj h
          obtain rfl := Except.error.inj herror
          obtain ⟨k, hk, actions, hrun, hall, hfails⟩ := ih hrest
          refine ⟨k + 1, Nat.succ_lt_succ hk, action :: actions, ?_, ?_, hfails⟩
          · rw [List.replicate_succ, run, hcycle]
            dsimp only
            rw [hrun]
            rfl
          · exact List.forall_mem_cons.mpr ⟨hchanges, hall⟩
        · rw [hrest] at h
          cases (Prod.mk.inj h).2
      · cases (Prod.mk.inj h).2

end

/-! ## Documents in memory behind failing calls -/

section

variable (r : Regenerator (Flaky Memory)) (facts : Facts)

/-- The regenerator over the same documents when no call is made to fail. -/
def steady : Regenerator Memory :=
  { r with store := r.store.store }

/-- The document, whether or not it can be read. -/
def document : Option String :=
  r.store.store.get? r.config.path

/-- The regenerator after a cycle that does not fail. -/
def advance : Regenerator (Flaky Memory) :=
  { r.steady.after facts with store := { r.store with store := (r.steady.after facts).store } }

/-- The call that an action needs fails if it is made to. -/
theorem carryOut_fails {store : Flaky Memory} {action : Action} {call : Call}
    (hcall : action.call? = some call) (hfailing : store.failing = some call) (path : String) :
    carryOut store path action = (store, .error (injectedError path)) := by
  cases action with
  | createPlaceholder | write text =>
    obtain rfl := Option.some.inj hcall
    exact (Flaky.write_eq store path _).trans (if_pos hfailing)
  | delete =>
    obtain rfl := Option.some.inj hcall
    exact (Flaky.delete_eq store path).trans (if_pos hfailing)
  | unchanged => exact nomatch hcall

/-- A call that an action does not need may fail. -/
theorem carryOut_succeeds_flaky {store : Flaky Memory} {action : Action}
    (h : ∀ call, action.call? = some call → store.failing ≠ some call) (path : String) :
    carryOut store path action =
      ({ store with store := (carryOut store.store path action).1 }, .ok ()) := by
  cases action with
  | createPlaceholder | write text =>
    exact (Flaky.write_eq store path _).trans (if_neg (h .write rfl))
  | delete => exact (Flaky.delete_eq store path).trans (if_neg (h .delete rfl))
  | unchanged => rfl

theorem read_flaky (store : Flaky Memory) (path : String) :
    DocumentStore.read store path =
      if store.failing = some .read then .error (injectedError path)
      else .ok (store.store.get? path) := rfl

/-- A cycle fails if it makes the call that is made to fail. -/
theorem cycle_fails {call : Call} (hcall : call ∈ r.calls facts)
    (hfailing : r.store.failing = some call) :
    r.cycle facts = (r, .error (.store (injectedError r.config.path))) := by
  by_cases hread : r.store.failing = some .read
  · exact cycle_of_read_error r facts ((read_flaky r.store r.config.path).trans (if_pos hread))
  · have hok := (read_flaky r.store r.config.path).trans (if_neg hread)
    rw [calls, hok] at hcall
    rcases List.mem_cons.mp hcall with rfl | haction
    · exact absurd hfailing hread
    · rw [cycle_of_read r facts _ hok,
        carryOut_fails (Option.mem_toList.mp haction) hfailing r.config.path]

/-- Any other cycle decides and does what it would if no call failed. -/
theorem cycle_succeeds (h : ∀ call ∈ r.calls facts, r.store.failing ≠ some call) :
    r.cycle facts = (r.advance facts, .ok (r.steady.decision facts)) := by
  have hread : r.store.failing ≠ some .read := by
    apply h
    unfold calls
    split <;> exact List.mem_cons_self
  have hok := (read_flaky r.store r.config.path).trans (if_neg hread)
  rw [calls, hok] at h
  rw [cycle_of_read r facts _ hok, carryOut_succeeds_flaky (fun call hcall =>
    h call (List.mem_cons_of_mem _ (Option.mem_toList.mpr hcall)))]
  rfl

/-- A cycle fails at a call that is made to fail, or it decides and does what it would if no call
failed. -/
theorem cycle_cases :
    ((∃ call ∈ r.calls facts, r.store.failing = some call) ∧
        r.cycle facts = (r, .error (.store (injectedError r.config.path)))) ∨
      ((¬∃ call ∈ r.calls facts, r.store.failing = some call) ∧
        r.cycle facts = (r.advance facts, .ok (r.steady.decision facts))) := by
  by_cases hmade : ∃ call ∈ r.calls facts, r.store.failing = some call
  · obtain ⟨call, hcall, hfailing⟩ := hmade
    exact .inl ⟨⟨call, hcall, hfailing⟩, cycle_fails r facts hcall hfailing⟩
  · exact .inr ⟨hmade, cycle_succeeds r facts fun call hcall hfailing =>
      hmade ⟨call, hcall, hfailing⟩⟩

theorem cycle_error_iff :
    (∃ error, (r.cycle facts).2 = .error error) ↔
      ∃ call ∈ r.calls facts, r.store.failing = some call := by
  rcases cycle_cases r facts with ⟨hmade, h⟩ | ⟨hmade, h⟩
  · rw [h]
    exact ⟨fun _ => hmade, fun _ => ⟨_, rfl⟩⟩
  · rw [h]
    exact ⟨fun ⟨_, herror⟩ => (nomatch herror), fun hmade' => absurd hmade' hmade⟩

end

end Regenerator

end Lifecycle

end ArchDoc
