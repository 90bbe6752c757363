import ArchDoc.Proofs.MemoryStore
import ArchDoc.Proofs.NewDirectories
import ArchDoc.Store.Directory

/-!
# Documents in files

A document that was written can be read, and one that was deleted is absent, as for documents in
memory. A store below a root directory touches two files, the document and the temporary one
beside it, whether its calls succeed or not.

The store keeps its files in a file tree, that is, in plain directories and as regular files with
one name each. There are no links, no permissions and no attributes.

Main definitions:

* `Faithful`: a store whose calls, when they succeed, do what they say.
* `Directory.places`: the locations of a document and of its temporary file.

Results:

* `Faithful Memory`, `Faithful Directory`.
* `Directory.write_keeps`, `Directory.delete_keeps`: everything else is kept.
* `Directory.readFile_of_read`: what is read is what the file holds.
-/

namespace ArchDoc.Store

/-- A store in which a document that was written can be read, and one that was deleted is
absent. -/
class Faithful (σ : Type) [DocumentStore σ] : Prop where
  read_write : ∀ {store after : σ} {path text : String},
    DocumentStore.write store path text = (after, .ok ()) →
      DocumentStore.read after path = .ok (some text)
  read_delete : ∀ {store after : σ} {path : String},
    DocumentStore.delete store path = (after, .ok ()) →
      DocumentStore.read after path = .ok none

instance : Faithful Memory where
  read_write {store after path text} h := by
    rw [← (Prod.mk.inj h).1]
    exact congrArg Except.ok ((Memory.get?_write store path text path).trans (if_pos rfl))
  read_delete {store after path} h := by
    rw [← (Prod.mk.inj h).1]
    exact congrArg Except.ok ((Memory.get?_delete store path path).trans (if_pos rfl))

namespace Directory

open Rooted
open FileTree (Extends Keeps passed placeOf)

variable {tree : FileTree} {file text : String}

/-- The locations that a change of a document may touch: its own, and that of the temporary
file. -/
def places (here : Location) (file : String) : List Location :=
  [placeOf here file, placeOf here (temporary file)]

theorem file_mem_places (here : Location) (file : String) :
    placeOf here file ∈ places here file := by
  simp [places]

theorem temporary_mem_places (here : Location) (file : String) :
    placeOf here (temporary file) ∈ places here file := by
  simp [places]

/-! ## Writing -/

/-- Making the directory of a document makes directories on the way to it. -/
theorem prepare_extends (tree : FileTree) (file : String) :
    Extends (passed tree.here file) tree (prepare tree file).1 := by
  unfold prepare
  cases hparent : Path.parent? file with
  | none => exact .refl _ _
  | some parent =>
    obtain ⟨habsolute, hcounted⟩ := Path.parent?_eq_some hparent
    have hmake :
        Extends (passed tree.here file) tree (FileSystem.makeDirectories tree parent).1 := by
      have hextends := FileTree.makeDirectories_extends tree parent
      rwa [FileTree.start, habsolute, hcounted] at hextends
    dsimp only
    rcases hmade : FileSystem.makeDirectories tree parent with ⟨made, cause | ok⟩
    · rw [hmade] at hmake
      exact hmake
    · rw [hmade] at hmake
      exact hmake

theorem rename_keeps {written moved : FileTree} {here : Location} (hhere : written.here = here)
    (h : written.rename (temporary file) file = .ok moved) :
    Keeps (places here file) written moved := by
  subst hhere
  exact FileTree.rename_keeps h (temporary_mem_places _ _) (file_mem_places _ _)

theorem replaceFile_eq (tree : FileTree) (file text : String) :
    replaceFile tree file text =
      match tree.createFile (temporary file) text.toUTF8 with
      | .error cause => (tree, .error ⟨temporary file, cause⟩)
      | .ok written =>
        match written.rename (temporary file) file with
        | .error cause => (written, .error ⟨file, cause⟩)
        | .ok moved => (moved, .ok ()) := by
  unfold replaceFile FileSystem.createFile FileTree.instFileSystem
  dsimp only
  cases tree.createFile (temporary file) text.toUTF8 with
  | error cause => rfl
  | ok written =>
    dsimp only
    cases written.rename (temporary file) file <;> rfl

theorem replaceFile_keeps (tree : FileTree) (file text : String) :
    Keeps (places tree.here file) tree (replaceFile tree file text).1 := by
  rw [replaceFile_eq]
  cases hcreate : tree.createFile (temporary file) text.toUTF8 with
  | error cause => exact .refl _ _
  | ok written =>
    have hwritten : Keeps (places tree.here file) tree written :=
      FileTree.createFile_keeps hcreate (temporary_mem_places _ _)
    dsimp only
    cases hrename : written.rename (temporary file) file with
    | error cause => exact hwritten
    | ok moved => exact hwritten.trans (rename_keeps hwritten.here hrename)

/-- After a file was replaced its path and that of the temporary file can be followed, and the
text stands in the one place and nothing in the other. -/
theorem replaceFile_eq_ok {moved : FileTree} (h : replaceFile tree file text = (moved, .ok ())) :
    ∃ parent name temporaryParent temporaryName,
      moved.approach file = .ok (parent, .name name false) ∧
      moved.approach (temporary file) = .ok (temporaryParent, .name temporaryName false) ∧
      moved = ((tree.put (temporaryParent ++ [temporaryName]) (.file text.toUTF8)).erase
        (temporaryParent ++ [temporaryName])).put (parent ++ [name]) (.file text.toUTF8) := by
  have hkeeps := replaceFile_keeps tree file text
  rw [replaceFile_eq] at h hkeeps
  cases hcreate : tree.createFile (temporary file) text.toUTF8 with
  | error cause =>
    rw [hcreate] at h
    exact nomatch (Prod.mk.inj h).2
  | ok written =>
    rw [hcreate] at h hkeeps
    dsimp only at h hkeeps
    cases hrename : written.rename (temporary file) file with
    | error cause =>
      rw [hrename] at h
      exact nomatch (Prod.mk.inj h).2
    | ok target =>
      rw [hrename] at h hkeeps
      obtain ⟨rfl, _⟩ := Prod.mk.inj h
      have hwritten : Keeps (places tree.here file) tree written :=
        FileTree.createFile_keeps hcreate (temporary_mem_places _ _)
      have hmoved := rename_keeps hwritten.here hrename
      obtain ⟨location, name, happroach, _, rfl⟩ := FileTree.createFile_eq_ok hcreate
      obtain ⟨sourceParent, sourceName, slash, targetParent, targetName, content, hsource, htarget,
        hlookup, _, rfl⟩ := FileTree.rename_eq_ok hrename
      -- the temporary file that is moved is the one that was created
      have hsame := (hwritten.approach happroach).symm.trans hsource
      simp only [Except.ok.injEq, Prod.mk.injEq, FileTree.Last.name.injEq] at hsame
      obtain ⟨rfl, rfl, _⟩ := hsame
      rw [FileTree.lookup_put (by simp), if_pos rfl] at hlookup
      obtain rfl := FileEntry.file.inj (Option.some.inj hlookup)
      exact ⟨targetParent, targetName, location, name, hmoved.approach htarget,
        hkeeps.approach happroach, rfl⟩

/-- The file that was moved to its place has the text that was written. -/
theorem readText_of_replaceFile {moved : FileTree}
    (h : replaceFile tree file text = (moved, .ok ())) : moved.readText file = .ok text := by
  obtain ⟨parent, name, _, _, happroach, _, hmoved⟩ := replaceFile_eq_ok h
  apply FileTree.readText_eq_ok_iff.mpr
  refine FileTree.readFile_of_lookup happroach ?_
  rw [hmoved, FileTree.lookup_put (by simp), if_pos rfl]

theorem discard_keeps (tree : FileTree) (file : String) :
    Keeps (places tree.here file) tree (discard tree (temporary file)) := by
  unfold Rooted.discard
  cases hremove : FileSystem.removeFile tree (temporary file) with
  | error cause => exact .refl _ _
  | ok removed => exact FileTree.removeFile_keeps hremove (temporary_mem_places _ _)

variable (store : Directory) (path : String)

/-- Writing touches the document and the temporary file only. -/
theorem write_keeps (text : String) :
    (store.write path text).1.root = store.root ∧
      Keeps (places store.tree.here (store.resolve path)) store.tree
        (store.write path text).1.tree := by
  have hprepare : Keeps (places store.tree.here (store.resolve path)) store.tree
      (prepare store.tree (store.resolve path)).1 := (prepare_extends _ _).keeps
  unfold write
  dsimp only
  split
  case h_1 made e hmade =>
    rw [hmade] at hprepare
    exact ⟨rfl, hprepare⟩
  case h_2 prepared hprepared =>
    rw [hprepared] at hprepare
    have hreplace := replaceFile_keeps prepared (store.resolve path) text
    rw [hprepare.here] at hreplace
    split
    case h_1 moved hmoved =>
      rw [hmoved] at hreplace
      exact ⟨rfl, hprepare.trans hreplace⟩
    case h_2 left e hleft =>
      rw [hleft] at hreplace
      have hdiscard := discard_keeps left (store.resolve path)
      rw [hreplace.here, hprepare.here] at hdiscard
      exact ⟨rfl, hprepare.trans (hreplace.trans hdiscard)⟩

/-- A document that was written can be read. -/
theorem read_of_write {after : Directory} {text : String}
    (h : store.write path text = (after, .ok ())) : after.read path = .ok (some text) := by
  unfold write at h
  dsimp only at h
  split at h
  case h_1 made e hmade => exact nomatch (Prod.mk.inj h).2
  case h_2 prepared hprepared =>
    split at h
    case h_1 moved hmoved =>
      rw [← (Prod.mk.inj h).1]
      have hresolve : resolve ⟨store.root, moved⟩ path = store.resolve path := rfl
      have hread : FileSystem.readText moved (store.resolve path) = .ok text :=
        readText_of_replaceFile hmoved
      unfold Rooted.read
      dsimp only
      rw [hresolve, hread]
    case h_2 left e hleft => exact nomatch (Prod.mk.inj h).2

/-! ## Deleting -/

/-- Deleting touches the document only. -/
theorem delete_keeps :
    (store.delete path).1.root = store.root ∧
      Keeps [placeOf store.tree.here (store.resolve path)] store.tree
        (store.delete path).1.tree := by
  unfold delete
  dsimp only
  split
  case h_1 removed hremove =>
    exact ⟨rfl, FileTree.removeFile_keeps hremove (List.mem_singleton_self _)⟩
  case h_2 => exact ⟨rfl, .refl _ _⟩
  case h_3 => exact ⟨rfl, .refl _ _⟩

theorem read_of_readFile_notFound {store : Directory} {path : String}
    (h : store.tree.readFile (store.resolve path) = .error (.os .notFound)) :
    store.read path = .ok none := by
  unfold Rooted.read
  dsimp only
  have hmissing : FileSystem.readText store.tree (store.resolve path) = .error (.os .notFound) :=
    FileTree.readText_eq_notFound_iff.mpr h
  rw [hmissing]

/-- A document that was deleted is absent. -/
theorem read_of_delete {after : Directory} (h : store.delete path = (after, .ok ())) :
    after.read path = .ok none := by
  unfold delete at h
  dsimp only at h
  split at h
  case h_1 removed hremove =>
    have hkeeps : Keeps (places store.tree.here (store.resolve path)) store.tree removed :=
      FileTree.removeFile_keeps hremove (file_mem_places _ _)
    obtain ⟨location, name, content, happroach, _, rfl⟩ := FileTree.removeFile_eq_ok hremove
    rw [← (Prod.mk.inj h).1]
    apply read_of_readFile_notFound
    refine FileTree.readFile_of_none (hkeeps.approach happroach) ?_
    rw [FileTree.lookup_erase (by simp), if_pos rfl]
  case h_2 hremove =>
    rw [← (Prod.mk.inj h).1]
    exact read_of_readFile_notFound (FileTree.readFile_of_removeFile_notFound hremove)
  case h_3 => exact nomatch (Prod.mk.inj h).2

/-! ## Reading -/

/-- The bytes that a file holds for a document. -/
def held : Option String → Except IoCause ByteArray
  | some text => .ok text.toUTF8
  | none => .error (.os .notFound)

/-- What is read of a document is what its file holds, byte for byte. -/
theorem readFile_of_read {store : Directory} {path : String} {content : Option String}
    (h : store.read path = .ok content) :
    store.tree.readFile (store.resolve path) = held content := by
  unfold Rooted.read at h
  dsimp only at h
  split at h
  case h_1 text htext =>
    rw [← Except.ok.inj h]
    exact FileTree.readText_eq_ok_iff.mp htext
  case h_2 hnone =>
    rw [← Except.ok.inj h]
    exact FileTree.readText_eq_notFound_iff.mp hnone
  case h_3 => exact nomatch h

end Directory

instance : Faithful Directory where
  read_write h := Directory.read_of_write _ _ h
  read_delete h := Directory.read_of_delete _ _ h

end ArchDoc.Store
