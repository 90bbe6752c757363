import ArchDoc.Proofs.FileTrees
import ArchDoc.Proofs.ParentPaths

/-!
# Directories made on the way

Making the directory of a path makes the directories above it too, and some of them stay when a
later one cannot be made. Whatever comes of it, nothing that existed changes, and what is new is
a directory at a location that the path leads through.

Main definitions:

* `passed`: the locations that a path leads through before what it names.
* `Extends`: a change that only makes directories, at some locations.

Results:

* `FileSystem.makeDirectories_induction`: making directories is making one after the other, in any
  file system.
* `makeDirectories_extends`: making directories extends a tree along the path.
* `Extends.keeps`: such a change keeps everything.
-/

namespace ArchDoc

/-! ## Directories in any file system -/

namespace FileSystem

variable {σ : Type} [FileSystem σ] {R : σ → σ → Prop} {paths : List String}

theorem ensureDirectory_induction {path : String} (refl : ∀ system, R system system)
    (make : ∀ {before after}, makeDirectory before path = .ok after → R before after)
    (system : σ) : R system (ensureDirectory system path).1 := by
  unfold ensureDirectory
  cases hmake : makeDirectory system path with
  | ok made => exact make hmake
  | error cause =>
    dsimp only
    split_ifs
    · exact refl system
    · exact refl system

theorem ensureAll_induction (refl : ∀ system, R system system)
    (trans : ∀ {a b c}, R a b → R b c → R a c)
    (make : ∀ {before after path}, path ∈ paths → makeDirectory before path = .ok after →
      R before after)
    (system : σ) : R system (ensureAll system paths).1 := by
  induction paths generalizing system with
  | nil => exact refl system
  | cons path paths ih =>
    have hfirst := ensureDirectory_induction refl (make List.mem_cons_self) system
    unfold ensureAll
    rcases hensure : ensureDirectory system path with ⟨made, cause | ok⟩
    · rw [hensure] at hfirst
      exact hfirst
    · rw [hensure] at hfirst
      exact trans hfirst (ih (fun hp => make (List.mem_cons_of_mem _ hp)) made)

theorem missing_induction (refl : ∀ system, R system system)
    (make : ∀ {before after path}, path ∈ paths → makeDirectory before path = .ok after →
      R before after)
    (system : σ) : R system (missing system paths).2.1 := by
  induction paths with
  | nil => exact refl system
  | cons path above ih =>
    have hfirst := ensureDirectory_induction refl (make List.mem_cons_self) system
    unfold missing
    split
    · exact ih fun hp => make (List.mem_cons_of_mem _ hp)
    · exact hfirst

theorem missing_subset (system : σ) (paths : List String) :
    (missing system paths).1 ⊆ paths := by
  induction paths with
  | nil => exact List.Subset.refl _
  | cons path above ih =>
    unfold missing
    split
    · exact List.cons_subset_cons _ ih
    · exact List.nil_subset _

/-- What holds of every directory that is made on the way holds of making all of them. -/
theorem makeDirectories_induction {path : String} (refl : ∀ system, R system system)
    (trans : ∀ {a b c}, R a b → R b c → R a c)
    (make : ∀ {before after p}, p ∈ ancestors (Path.parts path).length path →
      makeDirectory before p = .ok after → R before after)
    (system : σ) : R system (makeDirectories system path).1 := by
  have hmissing := missing_induction refl make system
  have hsubset := missing_subset system (ancestors (Path.parts path).length path)
  unfold makeDirectories
  rcases hpaths : missing system (ancestors (Path.parts path).length path) with
    ⟨paths, made, cause | ok⟩
  · rw [hpaths] at hmissing
    exact hmissing
  · rw [hpaths] at hmissing hsubset
    exact trans hmissing
      (ensureAll_induction refl trans (fun hp => make (hsubset (List.mem_reverse.mp hp))) made)

end FileSystem

namespace FileTree

open FileSystem (ancestors makeDirectories)

variable {tree tree' : FileTree} {here : Location} {ways : List Location} {path : String}

/-! ## The way of a path -/

theorem placeOf_eq_foldl_counted (here : Location) (path : String) :
    placeOf here path = (Path.counted path).foldl step (start here path) := by
  rw [Path.counted, foldl_step_filter (by simp)]
  exact getLast?_locationsFrom _ _

/-- The parts of a path, one after the other, lead to the locations that it passes. -/
theorem mem_locationsFrom_iff {location l : Location} {parts : List String} :
    l ∈ locationsFrom location parts ↔
      ∃ before, before ≠ [] ∧ before <+: parts ∧ l = before.foldl step location := by
  induction parts generalizing location with
  | nil => simp [locationsFrom]
  | cons part parts ih =>
    have hfirst : locationsFrom location (part :: parts) =
        step location part :: locationsFrom (step location part) parts := rfl
    rw [hfirst, List.mem_cons, ih]
    constructor
    · rintro (rfl | ⟨before, hne, hprefix, rfl⟩)
      · exact ⟨[part], by simp, by simp, rfl⟩
      · exact ⟨part :: before, by simp, by simpa using hprefix, rfl⟩
    · rintro ⟨before, hne, hprefix, rfl⟩
      cases before with
      | nil => exact absurd rfl hne
      | cons first before =>
        obtain ⟨rfl, hrest⟩ := List.cons_prefix_cons.mp hprefix
        by_cases hbefore : before = []
        · exact .inl (by rw [hbefore]; rfl)
        · exact .inr ⟨before, hbefore, hrest, rfl⟩

/-- The locations that a path leads through before what it names. -/
def passed (here : Location) (path : String) : List Location :=
  locationsFrom (start here path) (Path.counted path).dropLast

/-! ## Extensions -/

/-- A change of a tree that makes directories at some locations and nothing else. -/
structure Extends (ways : List Location) (before after : FileTree) : Prop where
  here : after.here = before.here
  lookup : ∀ l, after.lookup l = before.lookup l ∨
    before.lookup l = none ∧ after.lookup l = some .directory ∧ l ∈ ways

namespace Extends

theorem refl (ways : List Location) (tree : FileTree) : Extends ways tree tree :=
  ⟨rfl, fun _ => .inl rfl⟩

theorem trans {a b c : FileTree} (hab : Extends ways a b) (hbc : Extends ways b c) :
    Extends ways a c where
  here := hbc.here.trans hab.here
  lookup l := by
    rcases hbc.lookup l with hsame | ⟨hnone, hnew, hway⟩
    · rw [hsame]
      exact hab.lookup l
    · rcases hab.lookup l with hsame | ⟨_, hdirectory, _⟩
      · exact .inr ⟨hsame ▸ hnone, hnew, hway⟩
      · exact nomatch hnone.symm.trans hdirectory

theorem put {location : Location} (hlocation : location ≠ []) (hnone : tree.lookup location = none)
    (hway : location ∈ ways) : Extends ways tree (tree.put location .directory) where
  here := rfl
  lookup l := by
    rw [lookup_put hlocation]
    by_cases hl : l = location
    · exact .inr ⟨hl ▸ hnone, if_pos hl, hl ▸ hway⟩
    · exact .inl (if_neg hl)

/-- Nothing that existed changes. -/
theorem lookup_of_some (h : Extends ways tree tree') {l : Location} {entry : FileEntry}
    (hentry : tree.lookup l = some entry) : tree'.lookup l = some entry := by
  rcases h.lookup l with hsame | ⟨hnone, _, _⟩
  · exact hsame.trans hentry
  · exact nomatch hnone.symm.trans hentry

theorem keeps {touched : List Location} (h : Extends ways tree tree') :
    Keeps touched tree tree' :=
  ⟨h.here, h.lookup_of_some, fun _ => h.lookup_of_some⟩

end Extends

/-! ## Making directories -/

/-- A directory is made where its path leads. -/
theorem makeDirectory_extends (h : tree.makeDirectory path = .ok tree')
    (hway : Path.counted path ≠ [] → placeOf tree.here path ∈ ways) : Extends ways tree tree' := by
  obtain ⟨location, name, slash, happroach, hnone, rfl⟩ := makeDirectory_eq_ok h
  obtain ⟨_, hlast, hdot, _, _⟩ := follow_of_approach happroach
  have hname : name ∈ Path.counted path := by
    have hnamed := List.mem_filter.mp (List.mem_of_getLast? hlast)
    exact List.mem_filter.mpr ⟨hnamed.1, by simpa [Path.counts, hdot] using hnamed.2⟩
  have hplace := hway (List.ne_nil_of_mem hname)
  rw [placeOf_of_approach happroach] at hplace
  exact .put (by simp) hnone hplace

/-- The paths above a path lead to locations that it passes. -/
theorem counted_of_mem_ancestors {bound : Nat} {p : String} (h : p ∈ ancestors bound path) :
    start here p = start here path ∧ Path.counted p <+: Path.counted path := by
  induction bound generalizing path with
  | zero => exact nomatch h
  | succ bound ih =>
    unfold ancestors at h
    cases hparent : Path.parent? path with
    | none =>
      rw [hparent] at h
      exact nomatch h
    | some parent =>
      rw [hparent] at h
      obtain ⟨habsolute, hcounted⟩ := Path.parent?_eq_some hparent
      rcases List.mem_cons.mp h with rfl | hmem
      · exact ⟨rfl, List.prefix_refl _⟩
      · obtain ⟨hstart, hprefix⟩ := ih hmem
        refine ⟨hstart.trans (by rw [start, habsolute, start]), hprefix.trans ?_⟩
        rw [hcounted]
        exact List.dropLast_prefix _

/-- Making the directories of a path changes nothing else. -/
theorem makeDirectories_extends (tree : FileTree) (path : String) :
    Extends (locationsFrom (start tree.here path) (Path.counted path)) tree
      (makeDirectories tree path).1 := by
  refine FileSystem.makeDirectories_induction
    (R := fun before after : FileTree =>
      Extends (locationsFrom (start before.here path) (Path.counted path)) before after)
    (fun _ => .refl _ _) (fun {a b c} hab hbc => ?_) (fun {before after p} hp hmake => ?_) tree
  · rw [hab.here] at hbc
    exact hab.trans hbc
  · refine makeDirectory_extends hmake fun hne => ?_
    obtain ⟨hstart, hprefix⟩ := counted_of_mem_ancestors hp
    rw [placeOf_eq_foldl_counted, hstart]
    exact mem_locationsFrom_iff.mpr ⟨_, hne, hprefix, rfl⟩

end FileTree

end ArchDoc
