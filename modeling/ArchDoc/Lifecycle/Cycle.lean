import ArchDoc.Lifecycle.Action
import ArchDoc.Store.Basic
import ArchDoc.Synthesis

/-!
# Cycles of regeneration

A regenerator keeps one document in step with facts. Each cycle reads the document, plans an
action and carries it out. What the regenerator remembers, the number of cycles and the phase,
only moves on when a cycle succeeds.

Main definitions:

* `Config`: where the document is and how many cycles a run may take.
* `Regenerator`, `Regenerator.cycle`: the state and one cycle.
* `Regenerator.untilStable`: cycles up to the first one that changes nothing.
-/

namespace ArchDoc.Lifecycle

/-! ## Settings -/

/-- The path of the document and the greatest number of cycles of a run. -/
structure Config where
  path : String := ".context/calm-architecture.json"
  maxCycles : UInt64 := 4

namespace Config

/-- The defaults. -/
def default : Config := {}

/-- Whether two settings agree; paths agree by components. -/
def same (a b : Config) : Bool :=
  Path.same a.path b.path && a.maxCycles == b.maxCycles

instance : Record Config where
  columns := [⟨"path", true⟩, ⟨"max_cycles", true⟩]
  ofCells
    | [a, b] => do
      return {
        path := ← Cell.orDefault Cell.text default.path a
        maxCycles := ← Cell.orDefault Cell.count default.maxCycles b }
    | _ => none
  toCells config := [.str config.path, .int config.maxCycles.toNat]

/-- What the fields hold. -/
def fields : List RecordReader.Field :=
  [⟨"path", .text⟩, ⟨"max_cycles", .count⟩]

/-- The settings of a JSON text. -/
def ofText? (text : String) : Except Fault Config :=
  Record.ofText? fields text

end Config

/-! ## Errors -/

/-- Why a cycle fails: a call of the store does, or the action would lead to a phase that may not
follow. -/
inductive Error where
  | store (error : Store.Error)
  | illegalTransition (source target : Phase)
  deriving DecidableEq

/-- The wording of an error. -/
def Error.message : Error → String
  | store error => error.message
  | illegalTransition source target =>
    "illegal document transition: " ++ source.name ++ " -> " ++ target.name

/-- Refuses a phase that may not follow another one. -/
def checkTransition (source target : Phase) : Except Error Unit :=
  if source.mayBecome target then .ok () else .error (.illegalTransition source target)

/-! ## One cycle -/

/-- A store with the document, the settings, and what is remembered: the number of successful
cycles and the phase that the last of them ended in. -/
structure Regenerator (σ : Type) where
  store : σ
  config : Config
  synthesis : Synthesis.Config
  cycles : Nat
  phase : Option Phase

namespace Regenerator

variable {σ : Type} [DocumentStore σ]

/-- A regenerator before its first cycle. -/
def fresh (store : σ) (config : Config) (synthesis : Synthesis.Config) : Regenerator σ :=
  ⟨store, config, synthesis, 0, none⟩

/-- The phase from which a cycle starts that finds a content. That the document was deleted is
remembered as long as it stays absent. -/
def phaseFrom (remembered : Option Phase) (current : Option String) : Phase :=
  if remembered = some .deleted ∧ current = none then .deleted else Phase.classify current

/-- The action of a cycle that starts from a phase and finds a content. -/
def choose (r : Regenerator σ) (facts : Facts) (source : Phase) (current : Option String) :
    Action :=
  if source.isTerminal then .unchanged
  else plan current (r.cycles == 0) (Synthesis.synthesizeText facts r.synthesis)

/-- Carries out an action. -/
def carryOut (store : σ) (path : String) : Action → σ × Except Store.Error Unit
  | .createPlaceholder => DocumentStore.write store path placeholderText
  | .write text => DocumentStore.write store path text
  | .delete => DocumentStore.delete store path
  | .unchanged => (store, .ok ())

/-- Carries out an action if the phase that it leads to may follow the phase before. -/
def perform (store : σ) (path : String) (source : Phase) (action : Action) :
    σ × Except Error Unit :=
  if action.changesStore then
    match checkTransition source (action.phaseAfter source) with
    | .error e => (store, .error e)
    | .ok () =>
      let (store, outcome) := carryOut store path action
      (store, outcome.mapError .store)
  else (store, .ok ())

/-- One cycle. -/
def cycle (r : Regenerator σ) (facts : Facts) : Regenerator σ × Except Error Action :=
  match DocumentStore.read r.store r.config.path with
  | .error e => (r, .error (.store e))
  | .ok current =>
    let source := phaseFrom r.phase current
    let action := r.choose facts source current
    match perform r.store r.config.path source action with
    | (store, .error e) => ({ r with store := store }, .error e)
    | (store, .ok ()) =>
      ({ r with
          store := store
          cycles := r.cycles + 1
          phase := some (action.phaseAfter source) },
        .ok action)

/-! ## Many cycles -/

/-- Cycles up to the first one that changes nothing, at most `bound` of them; the actions in
order. -/
def untilStable (facts : Facts) : Nat → Regenerator σ → Regenerator σ × Except Error (List Action)
  | 0, r => (r, .ok [])
  | bound + 1, r =>
    match r.cycle facts with
    | (r, .error e) => (r, .error e)
    | (r, .ok action) =>
      if action.changesStore then
        let (r, actions) := untilStable facts bound r
        (r, actions.map (action :: ·))
      else (r, .ok [action])

end Regenerator

end ArchDoc.Lifecycle
