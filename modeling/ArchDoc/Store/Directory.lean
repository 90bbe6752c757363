import ArchDoc.FileTree
import ArchDoc.Journal
import ArchDoc.Store.Basic

/-!
# Documents in files

A store that keeps its documents in files below a root directory. A document is first written to
a temporary file beside it, which then takes its place, so that a reader sees the old text or the
new one and never a part of it. The files may be those of any file system.

Main definitions:

* `Rooted`, `Directory`: a root directory in a file system, and in a file tree.
* `Rooted.resolve`: the file of a path.
* `Rooted.read`, `Rooted.write`, `Rooted.delete`: the calls.
* `Rooted.writeRemarks`, `Rooted.deleteRemarks`: what is reported meanwhile.
-/

namespace ArchDoc.Store

/-- A root directory in a file system. -/
structure Rooted (σ : Type) where
  root : String
  tree : σ

/-- A root directory in a file tree. -/
abbrev Directory := Rooted FileTree

namespace Rooted

/-- The file of a document. -/
def resolve {σ : Type} (store : Rooted σ) (path : String) : String :=
  Path.join store.root path

/-- The temporary file beside a file. -/
def temporary (file : String) : String :=
  file ++ ".tmp"

variable {σ : Type} [FileSystem σ]

/-- Reads a document. Only a missing file counts as absent. -/
def read (store : Rooted σ) (path : String) : Except Error (Option String) :=
  let file := store.resolve path
  match FileSystem.readText store.tree file with
  | .ok text => .ok (some text)
  | .error (.os .notFound) => .ok none
  | .error cause => .error ⟨file, cause⟩

/-- Makes the directories that lead to a file. -/
def prepare (tree : σ) (file : String) : σ × Except Error Unit :=
  match Path.parent? file with
  | none => (tree, .ok ())
  | some parent =>
    match FileSystem.makeDirectories tree parent with
    | (tree, .ok ()) => (tree, .ok ())
    | (tree, .error cause) => (tree, .error ⟨parent, cause⟩)

/-- Writes the temporary file and moves it to the file. -/
def replaceFile (tree : σ) (file text : String) : σ × Except Error Unit :=
  match FileSystem.createFile tree (temporary file) text.toUTF8 with
  | (tree, .error cause) => (tree, .error ⟨temporary file, cause⟩)
  | (written, .ok ()) =>
    match FileSystem.rename written (temporary file) file with
    | .error cause => (written, .error ⟨file, cause⟩)
    | .ok moved => (moved, .ok ())

/-- Removes a file if that is possible. -/
def discard (tree : σ) (file : String) : σ :=
  match FileSystem.removeFile tree file with
  | .ok tree => tree
  | .error _ => tree

/-- Writes a document. After a failure the temporary file is removed. -/
def write (store : Rooted σ) (path text : String) : Rooted σ × Except Error Unit :=
  let file := store.resolve path
  match prepare store.tree file with
  | (tree, .error e) => ({ store with tree := tree }, .error e)
  | (prepared, .ok ()) =>
    match replaceFile prepared file text with
    | (tree, .ok ()) => ({ store with tree := tree }, .ok ())
    | (tree, .error e) => ({ store with tree := discard tree (temporary file) }, .error e)

/-- Deletes a document. -/
def delete (store : Rooted σ) (path : String) : Rooted σ × Except Error Unit :=
  let file := store.resolve path
  match FileSystem.removeFile store.tree file with
  | .ok tree => ({ store with tree := tree }, .ok ())
  | .error (.os .notFound) => (store, .ok ())
  | .error cause => (store, .error ⟨file, cause⟩)

instance : DocumentStore (Rooted σ) where
  read := read
  write := write
  delete := delete

/-! ## What is reported -/

/-- Whether a temporary file stays although a write has failed. -/
def leavesTemporary (store : Rooted σ) (path text : String) : Bool :=
  let file := store.resolve path
  match prepare store.tree file with
  | (_, .error _) => false
  | (prepared, .ok ()) =>
    match FileSystem.removeFile (replaceFile prepared file text).1 (temporary file) with
    | .ok _ => false
    | .error cause => cause != .os .notFound

/-- What is reported when a document is written. -/
def writeRemarks (store : Rooted σ) (path text : String) : List Journal.Entry :=
  let file := store.resolve path
  match (store.write path text).2 with
  | .ok () =>
    [⟨.debug, .store, "document written",
      [("path", .text file), ("bytes", .number text.utf8ByteSize)]⟩]
  | .error _ =>
    if store.leavesTemporary path text then
      [⟨.warn, .store, "temporary file left behind", [("path", .text (temporary file))]⟩]
    else []

/-- What is reported when a document is deleted. -/
def deleteRemarks (store : Rooted σ) (path : String) : List Journal.Entry :=
  let file := store.resolve path
  match FileSystem.removeFile store.tree file with
  | .ok _ => [⟨.debug, .store, "document deleted", [("path", .text file)]⟩]
  | .error _ => []

end Rooted

end ArchDoc.Store
