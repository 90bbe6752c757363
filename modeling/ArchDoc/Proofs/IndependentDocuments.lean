import ArchDoc.Proofs.WriteOutcomes

/-!
# Independent documents

Changing a document leaves other files alone. Deleting touches no file but the document. Writing
also touches whatever has the name of the temporary file: a file that was there before is lost when
the write succeeds, and also when the last step of the write fails. So documents are independent
of each other unless one is named like the temporary file of another.

All of this is about file trees, in which every file has one name. There are no links through which
a change could reach another file, no permissions and no attributes, and a temporary file that was
just made can always be removed.

Main definitions:

* `Change`: a write or a delete.
* `Change.touched`: the locations of the files that a change may touch.

Results:

* `apply_keeps`, `applyAll_keeps`: one change and many changes touch nothing else.
* `Outcome.lookup_temporary`: what becomes of a file in the place of the temporary file.
* `other_files_kept`: all of this, for files and for documents.
* `write_loses_other_file`: a file that is lost.
-/

namespace ArchDoc.Store.Directory

open Rooted
open FileTree (Keeps placeOf)

/-! ## Changes -/

/-- What can be done to a document. -/
inductive Change where
  | write (path text : String)
  | delete (path : String)

/-- A change and what comes of it. -/
def apply (store : Directory) : Change → Directory × Except Error Unit
  | .write path text => store.write path text
  | .delete path => store.delete path

/-- The store after changes in order, whether they succeed or not. -/
def applyAll (store : Directory) (changes : List Change) : Directory :=
  changes.foldl (fun store change => (store.apply change).1) store

/-- The locations of the files that a change may touch. -/
def Change.touched (root : String) (here : Location) : Change → List Location
  | write path _ => places here (Path.join root path)
  | delete path => [placeOf here (Path.join root path)]

variable (store : Directory)

/-- A change touches no other files. -/
theorem apply_keeps (change : Change) :
    (store.apply change).1.root = store.root ∧
      Keeps (change.touched store.root store.tree.here) store.tree
        (store.apply change).1.tree := by
  cases change with
  | write path text =>
    dsimp only [apply, Change.touched]
    exact write_keeps store path text
  | delete path =>
    dsimp only [apply, Change.touched]
    exact delete_keeps store path

/-- Nor do many changes. -/
theorem applyAll_keeps (changes : List Change) :
    (store.applyAll changes).root = store.root ∧
      Keeps (changes.flatMap (·.touched store.root store.tree.here)) store.tree
        (store.applyAll changes).tree := by
  induction changes generalizing store with
  | nil => exact ⟨rfl, .refl _ _⟩
  | cons change changes ih =>
    obtain ⟨hroot, hfirst⟩ := apply_keeps store change
    obtain ⟨hroots, hrest⟩ := ih (store.apply change).1
    rw [hroot, hfirst.here] at hrest
    refine ⟨hroots.trans hroot, ?_⟩
    rw [List.flatMap_cons]
    exact (hfirst.mono (List.subset_append_left _ _)).trans
      (hrest.mono (List.subset_append_right _ _))

/-! ## The place of the temporary file -/

/-- A file in the place of the temporary file is lost when a write succeeds, and is left as it was
or lost when the write fails. -/
theorem Outcome.lookup_temporary {before after : FileTree} {file text : String}
    {result : Except Error Unit} {content : ByteArray} (h : Outcome before file text after result)
    (hfile : before.lookup (placeOf before.here (temporary file)) = some (.file content)) :
    after.lookup (placeOf before.here (temporary file)) = none ∨
      result ≠ .ok () ∧
        after.lookup (placeOf before.here (temporary file)) = some (.file content) := by
  cases h with
  | refused hmade => exact .inr ⟨nofun, hmade.lookup_of_some hfile⟩
  | discarded hmade hplace hafter => exact .inl (by rw [hafter, if_pos rfl])
  | replaced hmade hplaces htemporary hafter =>
    exact .inl (by rw [hafter, if_neg hplaces, if_pos rfl])

/-! ## Files and documents -/

/-- A document whose place was not touched reads as before. -/
theorem read_keeps {store after : Directory} {touched : List Location} {path text : String}
    (hroot : after.root = store.root) (hkeeps : Keeps touched store.tree after.tree)
    (hplace : placeOf store.tree.here (store.resolve path) ∉ touched)
    (h : store.read path = .ok (some text)) : after.read path = .ok (some text) := by
  unfold Rooted.read at h ⊢
  dsimp only at h ⊢
  have hresolve : after.resolve path = store.resolve path := by rw [resolve, hroot, resolve]
  rw [hresolve]
  split at h
  case h_1 found hfound =>
    obtain rfl := Option.some.inj (Except.ok.inj h)
    have hafter : FileSystem.readText after.tree (store.resolve path) = .ok found :=
      hkeeps.readText hplace hfound
    rw [hafter]
  case h_2 => exact nomatch h
  case h_3 => exact nomatch h

/-- **Theorem.** In a file tree, no change of a document touches a file in another place, or the
text of a document there, if it is not in the place of the temporary file of a write. A file in that
place is lost when the write succeeds. Many changes touch no other files either. -/
theorem other_files_kept (store : Directory) :
    (∀ change l content, l ∉ Change.touched store.root store.tree.here change →
      store.tree.lookup l = some (.file content) →
        (store.apply change).1.tree.lookup l = some (.file content)) ∧
    (∀ change path text,
      placeOf store.tree.here (store.resolve path) ∉
          Change.touched store.root store.tree.here change →
        store.read path = .ok (some text) →
          (store.apply change).1.read path = .ok (some text)) ∧
    (∀ path text content,
      store.tree.lookup (placeOf store.tree.here (temporary (store.resolve path))) =
          some (.file content) →
        (store.write path text).1.tree.lookup
            (placeOf store.tree.here (temporary (store.resolve path))) = none ∨
          (store.write path text).2 ≠ .ok () ∧
            (store.write path text).1.tree.lookup
              (placeOf store.tree.here (temporary (store.resolve path))) =
                some (.file content)) ∧
    (∀ changes l content,
      (∀ change ∈ changes, l ∉ Change.touched store.root store.tree.here change) →
        store.tree.lookup l = some (.file content) →
          (store.applyAll changes).tree.lookup l = some (.file content)) := by
  refine ⟨fun change l content hl hfile => ?_, fun change path text hplace hread => ?_,
    fun path text content hfile => ?_, fun changes l content hl hfile => ?_⟩
  · exact (apply_keeps store change).2.file hl hfile
  · obtain ⟨hroot, hkeeps⟩ := apply_keeps store change
    exact read_keeps hroot hkeeps hplace hread
  · exact (write_outcome store path text).lookup_temporary hfile
  · refine (applyAll_keeps store changes).2.file ?_ hfile
    rw [List.mem_flatMap]
    rintro ⟨change, hchange, hmem⟩
    exact hl change hchange hmem

/-- A file is lost to a write of another document that succeeds, and to one that fails because a
directory has the name of the document. -/
theorem write_loses_other_file :
    let kept : Location := ["work", "calm.json.tmp"]
    let free : Directory := ⟨"", FileTree.empty.put kept (.file "keep".toUTF8)⟩
    let occupied : Directory := ⟨"", free.tree.put ["work", "calm.json"] .directory⟩
    placeOf free.tree.here (free.resolve "calm.json") ≠ kept ∧
      free.tree.lookup kept = some (.file "keep".toUTF8) ∧
      (free.write "calm.json" "new").2 = .ok () ∧
      (free.write "calm.json" "new").1.tree.lookup kept = none ∧
      occupied.tree.lookup kept = some (.file "keep".toUTF8) ∧
      (occupied.write "calm.json" "new").2 =
        .error ⟨"calm.json", .os .isDirectory⟩ ∧
      (occupied.write "calm.json" "new").1.tree.lookup kept = none := by
  decide +kernel

end ArchDoc.Store.Directory
