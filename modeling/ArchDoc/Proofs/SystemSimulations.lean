import ArchDoc.Store.Directory
import Mathlib.Tactic.SplitIfs

/-!
# Stores in related systems

Two file systems whose calls answer alike and lead from related states to related states can not be
told apart by a store: it reads the same, and its writes and deletes have the same outcomes and
leave related systems.

Main definitions:

* `FileSystem.Simulates`: a relation between two file systems that every call respects.
* `FileSystem.SameRoot`: stores below the same root in related systems.

Results:

* `Simulates.read`, `Simulates.write`, `Simulates.delete`: the calls of a store.
-/

namespace ArchDoc.FileSystem

open Store (Rooted)

variable {σ τ : Type} {R : σ → τ → Prop}

/-- Calls that both fail in the same way, or both lead to related systems. -/
inductive Alike (R : σ → τ → Prop) : Except IoCause σ → Except IoCause τ → Prop where
  | ok {s : σ} {t : τ} (h : R s t) : Alike R (.ok s) (.ok t)
  | error (cause : IoCause) : Alike R (.error cause) (.error cause)

/-- Related systems with the same outcome. -/
structure Both {α : Type} (R : σ → τ → Prop) (a : σ × α) (b : τ × α) : Prop where
  system : R a.1 b.1
  outcome : a.2 = b.2

/-- A relation between two file systems that every call respects. -/
structure Simulates [FileSystem σ] [FileSystem τ] (R : σ → τ → Prop) : Prop where
  readText : ∀ {s t}, R s t → ∀ path, FileSystem.readText s path = FileSystem.readText t path
  isDirectory : ∀ {s t}, R s t →
    ∀ path, FileSystem.isDirectory s path = FileSystem.isDirectory t path
  makeDirectory : ∀ {s t}, R s t →
    ∀ path, Alike R (FileSystem.makeDirectory s path) (FileSystem.makeDirectory t path)
  createFile : ∀ {s t}, R s t → ∀ path content,
    Both R (FileSystem.createFile s path content) (FileSystem.createFile t path content)
  rename : ∀ {s t}, R s t →
    ∀ source target, Alike R (FileSystem.rename s source target) (FileSystem.rename t source target)
  removeFile : ∀ {s t}, R s t →
    ∀ path, Alike R (FileSystem.removeFile s path) (FileSystem.removeFile t path)

/-- Stores below the same root in related systems. -/
structure SameRoot (R : σ → τ → Prop) (a : Rooted σ) (b : Rooted τ) : Prop where
  root : a.root = b.root
  tree : R a.tree b.tree

theorem missing_cons_of_eq [FileSystem σ] {system : σ} {path : String} (above : List String)
    (h : (ensureDirectory system path).2 = .error (.os .notFound)) :
    missing system (path :: above) =
      (path :: (missing system above).1, (missing system above).2) := by
  rw [missing, ← Prod.eta (ensureDirectory system path), h]

theorem missing_cons_of_ne [FileSystem σ] {system : σ} {path : String} (above : List String)
    (h : (ensureDirectory system path).2 ≠ .error (.os .notFound)) :
    missing system (path :: above) = ([], ensureDirectory system path) := by
  rw [missing]
  split
  next hmissing => exact absurd (congrArg Prod.snd hmissing) h
  next => rfl

namespace Simulates

variable [FileSystem σ] [FileSystem τ] (hR : Simulates R) {s : σ} {t : τ} {file text : String}
include hR

/-! ## Directories -/

theorem ensureDirectory (h : R s t) (path : String) :
    Both R (FileSystem.ensureDirectory s path) (FileSystem.ensureDirectory t path) := by
  have hmake := hR.makeDirectory h path
  unfold FileSystem.ensureDirectory
  rw [hR.isDirectory h]
  generalize FileSystem.makeDirectory s path = made at hmake
  generalize FileSystem.makeDirectory t path = made' at hmake
  cases hmake with
  | ok hmade => exact ⟨hmade, rfl⟩
  | error cause =>
    dsimp only
    split_ifs
    · exact ⟨h, rfl⟩
    · exact ⟨h, rfl⟩

theorem ensureAll (h : R s t) (paths : List String) :
    Both R (FileSystem.ensureAll s paths) (FileSystem.ensureAll t paths) := by
  induction paths generalizing s t with
  | nil => exact ⟨h, rfl⟩
  | cons path paths ih =>
    have hfirst := hR.ensureDirectory h path
    unfold FileSystem.ensureAll
    rcases hs : FileSystem.ensureDirectory s path with ⟨made, outcome⟩
    rcases ht : FileSystem.ensureDirectory t path with ⟨made', outcome'⟩
    rw [hs, ht] at hfirst
    obtain ⟨hmade, rfl : outcome = outcome'⟩ := hfirst
    cases outcome with
    | ok _ => exact ih hmade
    | error cause => exact ⟨hmade, rfl⟩

theorem missing (h : R s t) (paths : List String) :
    (FileSystem.missing s paths).1 = (FileSystem.missing t paths).1 ∧
      Both R (FileSystem.missing s paths).2 (FileSystem.missing t paths).2 := by
  induction paths with
  | nil => exact ⟨rfl, h, rfl⟩
  | cons path above ih =>
    have hfirst := hR.ensureDirectory h path
    by_cases hnone : (FileSystem.ensureDirectory s path).2 = .error (.os .notFound)
    · rw [missing_cons_of_eq above hnone,
        missing_cons_of_eq above (hfirst.outcome.symm.trans hnone)]
      exact ⟨congrArg (path :: ·) ih.1, ih.2⟩
    · rw [missing_cons_of_ne above hnone,
        missing_cons_of_ne above fun h => hnone (hfirst.outcome.trans h)]
      exact ⟨rfl, hfirst⟩

theorem makeDirectories (h : R s t) (path : String) :
    Both R (FileSystem.makeDirectories s path) (FileSystem.makeDirectories t path) := by
  obtain ⟨hpaths, hmade⟩ := hR.missing h (ancestors (Path.parts path).length path)
  unfold FileSystem.makeDirectories
  rcases hs : FileSystem.missing s (ancestors (Path.parts path).length path) with
    ⟨paths, made, outcome⟩
  rcases ht : FileSystem.missing t (ancestors (Path.parts path).length path) with
    ⟨paths', made', outcome'⟩
  rw [hs, ht] at hpaths hmade
  obtain rfl : paths = paths' := hpaths
  obtain ⟨hmade, rfl : outcome = outcome'⟩ := hmade
  cases outcome with
  | ok _ => exact hR.ensureAll hmade paths.reverse
  | error cause => exact ⟨hmade, rfl⟩

theorem prepare (h : R s t) (file : String) :
    Both R (Rooted.prepare s file) (Rooted.prepare t file) := by
  unfold Rooted.prepare
  cases Path.parent? file with
  | none => exact ⟨h, rfl⟩
  | some parent =>
    have hmake := hR.makeDirectories h parent
    dsimp only
    rcases hs : FileSystem.makeDirectories s parent with ⟨made, outcome⟩
    rcases ht : FileSystem.makeDirectories t parent with ⟨made', outcome'⟩
    rw [hs, ht] at hmake
    obtain ⟨hmade, rfl : outcome = outcome'⟩ := hmake
    cases outcome with
    | ok _ => exact ⟨hmade, rfl⟩
    | error cause => exact ⟨hmade, rfl⟩

/-! ## Files -/

theorem replaceFile (h : R s t) (file text : String) :
    Both R (Rooted.replaceFile s file text) (Rooted.replaceFile t file text) := by
  have hcreate := hR.createFile h (Rooted.temporary file) text.toUTF8
  unfold Rooted.replaceFile
  rcases hs : FileSystem.createFile s (Rooted.temporary file) text.toUTF8 with ⟨written, outcome⟩
  rcases ht : FileSystem.createFile t (Rooted.temporary file) text.toUTF8 with ⟨written', outcome'⟩
  rw [hs, ht] at hcreate
  obtain ⟨hwritten, rfl : outcome = outcome'⟩ := hcreate
  cases outcome with
  | error cause => exact ⟨hwritten, rfl⟩
  | ok _ =>
    have hrename := hR.rename hwritten (Rooted.temporary file) file
    dsimp only
    generalize FileSystem.rename written (Rooted.temporary file) file = moved at hrename
    generalize FileSystem.rename written' (Rooted.temporary file) file = moved' at hrename
    cases hrename with
    | ok hmoved => exact ⟨hmoved, rfl⟩
    | error cause => exact ⟨hwritten, rfl⟩

theorem discard (h : R s t) (file : String) :
    R (Rooted.discard s file) (Rooted.discard t file) := by
  have hremove := hR.removeFile h file
  unfold Rooted.discard
  generalize FileSystem.removeFile s file = removed at hremove
  generalize FileSystem.removeFile t file = removed' at hremove
  cases hremove with
  | ok hremoved => exact hremoved
  | error cause => exact h

/-! ## Stores -/

variable {a : Rooted σ} {b : Rooted τ}

theorem read (h : SameRoot R a b) (path : String) : a.read path = b.read path := by
  unfold Rooted.read Rooted.resolve
  dsimp only
  rw [h.root, hR.readText h.tree]

theorem write (h : SameRoot R a b) (path text : String) :
    Both (SameRoot R) (a.write path text) (b.write path text) := by
  have hprepare := hR.prepare h.tree (b.resolve path)
  have hresolve : a.resolve path = b.resolve path := congrArg (Path.join · path) h.root
  unfold Rooted.write
  rw [hresolve]
  dsimp only
  rcases hs : Rooted.prepare a.tree (b.resolve path) with ⟨made, outcome⟩
  rcases ht : Rooted.prepare b.tree (b.resolve path) with ⟨made', outcome'⟩
  rw [hs, ht] at hprepare
  obtain ⟨hmade, rfl : outcome = outcome'⟩ := hprepare
  cases outcome with
  | error e => exact ⟨⟨h.root, hmade⟩, rfl⟩
  | ok _ =>
    have hreplace := hR.replaceFile hmade (b.resolve path) text
    dsimp only
    rcases hs : Rooted.replaceFile made (b.resolve path) text with ⟨left, outcome⟩
    rcases ht : Rooted.replaceFile made' (b.resolve path) text with ⟨left', outcome'⟩
    rw [hs, ht] at hreplace
    obtain ⟨hleft, rfl : outcome = outcome'⟩ := hreplace
    cases outcome with
    | ok _ => exact ⟨⟨h.root, hleft⟩, rfl⟩
    | error e => exact ⟨⟨h.root, hR.discard hleft _⟩, rfl⟩

theorem delete (h : SameRoot R a b) (path : String) :
    Both (SameRoot R) (a.delete path) (b.delete path) := by
  have hremove := hR.removeFile h.tree (b.resolve path)
  have hresolve : a.resolve path = b.resolve path := congrArg (Path.join · path) h.root
  unfold Rooted.delete
  rw [hresolve]
  dsimp only
  generalize FileSystem.removeFile a.tree (b.resolve path) = removed at hremove
  generalize FileSystem.removeFile b.tree (b.resolve path) = removed' at hremove
  cases hremove with
  | ok hremoved => exact ⟨⟨h.root, hremoved⟩, rfl⟩
  | error cause =>
    cases cause with
    | os e => cases e <;> exact ⟨h, rfl⟩
    | nulInPath => exact ⟨h, rfl⟩
    | notUtf8 => exact ⟨h, rfl⟩
    | injected => exact ⟨h, rfl⟩

end Simulates

end ArchDoc.FileSystem
