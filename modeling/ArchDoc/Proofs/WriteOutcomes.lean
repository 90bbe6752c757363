import ArchDoc.Proofs.DirectoryStore

/-!
# What a write does

A write makes directories on the way to its document, puts the text into a temporary file and
moves that file to its place. It can stop before the temporary file exists, or when the file
cannot be moved, and then the file is removed. Nothing else can happen in a file tree, and each of
the three ends says of every location what is there afterwards.

A file tree has plain directories, and regular files with one name each. There are no links, no
permissions and no attributes, so a temporary file that was just made can always be removed.

Main definitions:

* `Outcome`: the three ends of a write.

Results:

* `write_outcome`: every write ends in one of them.
* `placeOf_temporary_ne`: the temporary file has a place of its own.
-/

namespace ArchDoc.Store.Directory

open Rooted
open FileTree (Extends Keeps passed placeOf)

variable {tree : FileTree} {file text : String}

/-! ## The place of the temporary file -/

theorem start_temporary (here : Location) (file : String) :
    FileTree.start here (temporary file) = FileTree.start here file := by
  have habsolute : Path.isAbsolute (temporary file) = Path.isAbsolute file := by
    unfold Path.isAbsolute temporary
    rw [String.toList_append, List.head?_append]
    cases file.toList with
    | nil => rfl
    | cons c cs => rfl
  rw [FileTree.start, habsolute, FileTree.start]

/-- The path of the temporary file has a longer last part, which is always a name. -/
theorem parts_temporary (file : String) :
    ∃ before last, Path.parts file = before ++ [last] ∧
      Path.parts (temporary file) = before ++ [last ++ ".tmp"] ∧
      Path.counts (last ++ ".tmp") = true ∧ last ++ ".tmp" ≠ ".." := by
  have hslash : '/' ∉ ".tmp".toList := by decide
  obtain ⟨before, last, hparts, htemporary⟩ := Path.parts_append_of_not_mem hslash file
  have hlong : ∀ short : String, short.length < 4 → last ++ ".tmp" ≠ short := by
    rintro _ hshort rfl
    rw [String.length_append] at hshort
    exact absurd hshort (Nat.not_lt.mpr (Nat.le_add_left _ _))
  refine ⟨before, last, hparts, htemporary, ?_, hlong ".." (by decide)⟩
  simp [Path.counts, hlong "" (by decide), hlong "." (by decide)]

/-- The place of the temporary file is that of the file with a longer name, or lies inside it when
the path of the file ends in a slash or a dot. -/
theorem placeOf_temporary (here : Location) (file : String) :
    ∃ before last, Path.parts file = before ++ [last] ∧
      placeOf here (temporary file) =
        (before.filter Path.counts).foldl FileTree.step (FileTree.start here file) ++
          [last ++ ".tmp"] := by
  obtain ⟨before, last, hparts, htemporary, hcounts, hup⟩ := parts_temporary file
  have hcounted :
      Path.counted (temporary file) = before.filter Path.counts ++ [last ++ ".tmp"] := by
    rw [Path.counted, htemporary, List.filter_append, List.filter_cons_of_pos hcounts,
      List.filter_nil]
  refine ⟨before, last, hparts, ?_⟩
  rw [FileTree.placeOf_eq_foldl_counted, start_temporary, hcounted, List.foldl_append,
    List.foldl_cons, List.foldl_nil, FileTree.step_of_counts hcounts hup]

/-- A file that is named without a slash behind it is not where its temporary file is. -/
theorem placeOf_temporary_ne {parent : Location} {name : String}
    (h : tree.approach file = .ok (parent, .name name false)) :
    placeOf tree.here (temporary file) ≠ placeOf tree.here file := by
  obtain ⟨before, last, hparts, htemporary⟩ := placeOf_temporary tree.here file
  obtain ⟨_, hlast, hdot, hup, hslash⟩ := FileTree.follow_of_approach h
  have hne : last ≠ "" := by
    rintro rfl
    simp [hparts] at hslash
  have hname : last = name := by
    simpa [FileTree.named, hparts, hne] using hlast
  rw [htemporary, FileTree.placeOf_of_approach h]
  intro heq
  have hnames := (List.append_inj' heq rfl).2
  have hlength : (last ++ ".tmp").length = last.length := by
    rw [List.singleton_inj.mp hnames, hname]
  rw [String.length_append] at hlength
  exact absurd hlength (by simp)

/-! ## Cleaning up -/

/-- What cannot be created cannot be removed either. -/
theorem discard_of_createFile_error {cause : IoCause}
    (h : tree.createFile file text.toUTF8 = .error cause) : Rooted.discard tree file = tree := by
  unfold Rooted.discard
  cases hremove : FileSystem.removeFile tree file with
  | error cause => rfl
  | ok removed =>
    obtain ⟨location, name, content, happroach, hlookup, _⟩ := FileTree.removeFile_eq_ok hremove
    exfalso
    simp [FileTree.createFile, happroach, hlookup, bind, Except.bind, pure, Except.pure] at h

theorem discard_of_lookup {parent : Location} {name : String} {content : ByteArray}
    (h : tree.approach file = .ok (parent, .name name false))
    (hlookup : tree.lookup (parent ++ [name]) = some (.file content)) :
    Rooted.discard tree file = tree.erase (parent ++ [name]) := by
  simp [Rooted.discard, FileSystem.removeFile, FileTree.removeFile, h, hlookup, bind, Except.bind,
    pure, Except.pure]

/-! ## The three ends -/

/-- What a write of a file leaves behind: what is where, and whether it has succeeded. -/
inductive Outcome (before : FileTree) (file text : String) :
    FileTree → Except Error Unit → Prop where
  | refused {made : FileTree} {e : Error} (hmade : Extends (passed before.here file) before made) :
      Outcome before file text made (.error e)
  | discarded {made after : FileTree} {e : Error}
      (hmade : Extends (passed before.here file) before made)
      (hplace : made.lookup (placeOf before.here (temporary file)) ≠ some .directory)
      (hafter : ∀ l, after.lookup l =
        if l = placeOf before.here (temporary file) then none else made.lookup l) :
      Outcome before file text after (.error e)
  | replaced {made after : FileTree} (hmade : Extends (passed before.here file) before made)
      (hplaces : placeOf before.here (temporary file) ≠ placeOf before.here file)
      (htemporary : after.status (temporary file) = .ok none)
      (hafter : ∀ l, after.lookup l =
        if l = placeOf before.here file then some (.file text.toUTF8)
        else if l = placeOf before.here (temporary file) then none else made.lookup l) :
      Outcome before file text after (.ok ())

/-- The temporary file that could not be moved is removed. -/
theorem replaceFile_error {left : FileTree} {e : Error}
    (h : replaceFile tree file text = (left, .error e)) :
    Rooted.discard left (temporary file) = tree ∨
      tree.lookup (placeOf tree.here (temporary file)) ≠ some .directory ∧
        ∀ l, (Rooted.discard left (temporary file)).lookup l =
          if l = placeOf tree.here (temporary file) then none else tree.lookup l := by
  rw [Directory.replaceFile_eq] at h
  cases hcreate : tree.createFile (temporary file) text.toUTF8 with
  | error cause =>
    rw [hcreate] at h
    obtain ⟨rfl, _⟩ := Prod.mk.inj h
    exact .inl (discard_of_createFile_error hcreate)
  | ok written =>
    have hwritten : Keeps (places tree.here file) tree written :=
      FileTree.createFile_keeps hcreate (temporary_mem_places _ _)
    obtain ⟨parent, name, happroach, hdirectory, hput⟩ := FileTree.createFile_eq_ok hcreate
    rw [hcreate] at h
    dsimp only at h
    cases hrename : written.rename (temporary file) file with
    | ok moved =>
      rw [hrename] at h
      exact nomatch (Prod.mk.inj h).2
    | error cause =>
      rw [hrename] at h
      obtain ⟨rfl, _⟩ := Prod.mk.inj h
      have hlookup : written.lookup (parent ++ [name]) = some (.file text.toUTF8) := by
        rw [hput, FileTree.lookup_put (by simp), if_pos rfl]
      rw [discard_of_lookup (hwritten.approach happroach) hlookup,
        FileTree.placeOf_of_approach happroach]
      refine .inr ⟨hdirectory, fun l => ?_⟩
      rw [FileTree.lookup_erase (by simp), hput, FileTree.lookup_put (by simp)]
      split_ifs <;> rfl

/-- The temporary file that was moved is in the place of the document. -/
theorem replaceFile_ok {moved : FileTree} (h : replaceFile tree file text = (moved, .ok ())) :
    placeOf tree.here (temporary file) ≠ placeOf tree.here file ∧
      moved.status (temporary file) = .ok none ∧
      ∀ l, moved.lookup l =
        if l = placeOf tree.here file then some (.file text.toUTF8)
        else if l = placeOf tree.here (temporary file) then none else tree.lookup l := by
  have hhere : moved.here = tree.here := by
    have hkeeps := replaceFile_keeps tree file text
    rw [h] at hkeeps
    exact hkeeps.here
  obtain ⟨parent, name, parent', name', hfile, htemporary, hmoved⟩ := replaceFile_eq_ok h
  have hne := placeOf_temporary_ne hfile
  have hplaces : placeOf tree.here file = parent ++ [name] ∧
      placeOf tree.here (temporary file) = parent' ++ [name'] := by
    rw [← hhere]
    exact ⟨FileTree.placeOf_of_approach hfile, FileTree.placeOf_of_approach htemporary⟩
  have hlookup : ∀ l, moved.lookup l =
      if l = parent ++ [name] then some (.file text.toUTF8)
      else if l = parent' ++ [name'] then none else tree.lookup l := by
    intro l
    rw [hmoved, FileTree.lookup_put (by simp), FileTree.lookup_erase (by simp),
      FileTree.lookup_put (by simp)]
    split_ifs <;> rfl
  rw [hhere, hplaces.1, hplaces.2] at hne
  rw [hplaces.1, hplaces.2]
  refine ⟨hne, ?_, hlookup⟩
  have hnone : moved.lookup (parent' ++ [name']) = none := by
    rw [hlookup, if_neg hne, if_pos rfl]
  simp [FileTree.status, htemporary, hnone, bind, Except.bind, pure, Except.pure]

/-- **Theorem.** In a file tree every write ends in one of the three ways. -/
theorem write_outcome (store : Directory) (path text : String) :
    Outcome store.tree (store.resolve path) text (store.write path text).1.tree
      (store.write path text).2 := by
  have hprepare := prepare_extends store.tree (store.resolve path)
  unfold write
  dsimp only
  split
  case h_1 made e hmade =>
    rw [hmade] at hprepare
    exact .refused hprepare
  case h_2 prepared hprepared =>
    rw [hprepared] at hprepare
    split
    case h_1 moved hmoved =>
      obtain ⟨hplaces, htemporary, hafter⟩ := replaceFile_ok hmoved
      rw [hprepare.here] at hplaces hafter
      exact .replaced hprepare hplaces htemporary hafter
    case h_2 left e hleft =>
      rcases replaceFile_error hleft with hsame | ⟨hplace, hafter⟩
      · rw [hsame]
        exact .refused hprepare
      · rw [hprepare.here] at hplace hafter
        exact .discarded hprepare hplace hafter

end ArchDoc.Store.Directory
