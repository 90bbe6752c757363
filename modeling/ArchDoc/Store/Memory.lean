import ArchDoc.Store.Basic

/-!
# Documents in memory

A store that keeps its documents by the components of their paths and counts what is done to
them. Its calls never fail; `Flaky` is a store whose calls can be made to fail.

Main definitions:

* `Memory`, `Memory.get?`: the store and its documents.
* `Memory.insert`, `Memory.write`, `Memory.delete`: changes, the last two counted.
* `Flaky`: a store with one kind of call that fails and does nothing.
-/

namespace ArchDoc.Store

/-- Documents by the components of their paths, and how often one was written and deleted. -/
structure Memory where
  documents : List (List Path.Component × String)
  writes : Nat
  deletes : Nat
  deriving DecidableEq

namespace Memory

/-- No documents. -/
def empty : Memory := ⟨[], 0, 0⟩

/-- The document at a path. -/
def get? (store : Memory) (path : String) : Option String :=
  (store.documents.find? (·.1 == Path.components path)).map (·.2)

/-- The documents that are not at a path. -/
def others (store : Memory) (path : String) : List (List Path.Component × String) :=
  store.documents.filter (·.1 != Path.components path)

/-- Puts a document at a path, without counting. -/
def insert (store : Memory) (path text : String) : Memory :=
  { store with documents := (Path.components path, text) :: store.others path }

/-- Writes a document at a path. -/
def write (store : Memory) (path text : String) : Memory :=
  { store.insert path text with writes := store.writes + 1 }

/-- Deletes the document at a path, if there is one. -/
def delete (store : Memory) (path : String) : Memory :=
  if (store.get? path).isSome then
    { store with documents := store.others path, deletes := store.deletes + 1 }
  else store

instance : DocumentStore Memory where
  read store path := .ok (store.get? path)
  write store path text := (store.write path text, .ok ())
  delete store path := (store.delete path, .ok ())

end Memory

/-! ## Failing calls -/

/-- The calls of a store. -/
inductive Call where
  | read
  | write
  | delete
  deriving DecidableEq

/-- The calls by name. -/
def Call.ofName? : String → Option Call
  | "read" => some read
  | "write" => some write
  | "delete" => some delete
  | _ => none

/-- A store and the call that fails, if any. -/
structure Flaky (σ : Type) where
  store : σ
  failing : Option Call

/-- The error of a call that is made to fail. -/
def injectedError (path : String) : Error := ⟨path, .injected⟩

instance {σ : Type} [DocumentStore σ] : DocumentStore (Flaky σ) where
  read s path :=
    if s.failing = some .read then .error (injectedError path)
    else DocumentStore.read s.store path
  write s path text :=
    if s.failing = some .write then (s, .error (injectedError path))
    else
      let (store, outcome) := DocumentStore.write s.store path text
      ({ s with store := store }, outcome)
  delete s path :=
    if s.failing = some .delete then (s, .error (injectedError path))
    else
      let (store, outcome) := DocumentStore.delete s.store path
      ({ s with store := store }, outcome)

end ArchDoc.Store
