import ArchDoc.FileSystem

/-!
# Document stores

What regeneration needs of the place where its document is kept: reading, writing and deleting at
a path. A failing call may change the store, so every changing call gives the store back.

Main definitions:

* `Store.Error`: how a call fails.
* `DocumentStore`: the calls.
-/

namespace ArchDoc

namespace Store

/-- How a call fails: at which path, and by what. -/
structure Error where
  path : String
  cause : IoCause
  deriving DecidableEq

/-- The wording of an error. -/
def Error.message (e : Error) : String :=
  "io error on " ++ e.path ++ ": " ++ e.cause.message

end Store

/-- A place for documents. Reading gives none for a document that is absent, and deleting such a
document succeeds. -/
class DocumentStore (σ : Type) where
  read : σ → (path : String) → Except Store.Error (Option String)
  write : σ → (path text : String) → σ × Except Store.Error Unit
  delete : σ → (path : String) → σ × Except Store.Error Unit

end ArchDoc
