import ArchDoc.FileTree
import ArchDoc.Proofs.Outcomes
import Mathlib.Data.List.Basic
import Mathlib.Tactic.SplitIfs

/-!
# Changes of a file tree

The operations that a store uses create directories, and create, replace, move and remove files.
None of them removes a directory, and none touches a file other than those that its paths name. A
path is followed through directories only, so whatever could be read at another place can still be
read afterwards.

Main definitions:

* `placeOf`: the location that a path spells, whether or not something is there.
* `Keeps`: a change that keeps directories, and files except at some locations.

Results:

* `Keeps.approach`, `Keeps.readFile`: what a change that keeps them means for paths.
* `placeOf_of_approach`: what is found under a path lies where the path spells it.
* `makeDirectory_eq_ok`, `createFile_eq_ok`, `rename_eq_ok`, `removeFile_eq_ok`: what the operations
  do when they succeed.
* `readText_eq_ok_iff`: the bytes of a file spell its text.
-/

namespace ArchDoc.FileTree

variable {tree tree' : FileTree} {touched : List Location}

/-! ## Entries -/

section

variable {α : Type} (entries : List (Location × α)) (location l : Location)

/-- What is found in a list of entries by location, one of which was taken out. -/
theorem find?_without :
    ((entries.filter (·.1 != location)).find? (·.1 == l)).map (·.2) =
      if l = location then none else (entries.find? (·.1 == l)).map (·.2) := by
  rw [List.find?_filter]
  by_cases hl : l = location
  · simp [hl]
  · have hsame : (fun e : Location × α =>
        decide ((e.1 != location) = true ∧ (e.1 == l) = true)) = fun e => e.1 == l := by
      funext e
      by_cases he : e.1 = l
      · simp [he, hl]
      · simp [he]
    rw [hsame, if_neg hl]

/-- What is found in a list of entries by location, one of which was replaced. -/
theorem find?_with (a : α) :
    ((entries.filter (·.1 != location) ++ [(location, a)]).find? (·.1 == l)).map (·.2) =
      if l = location then some a else (entries.find? (·.1 == l)).map (·.2) := by
  rw [List.find?_append, Option.map_or, find?_without]
  by_cases hl : l = location
  · simp [hl]
  · have hne : (location == l) = false := by simpa using Ne.symm hl
    simp [hl, hne]

end

theorem lookup_erase {location : Location} (h : location ≠ []) (l : Location) :
    (tree.erase location).lookup l = if l = location then none else tree.lookup l := by
  unfold lookup erase
  rw [find?_without]
  split_ifs with hempty hl
  · exact absurd (hl.symm.trans (List.isEmpty_iff.mp hempty)) h
  · rfl
  · rfl
  · rfl

theorem lookup_put {location : Location} (h : location ≠ []) (entry : FileEntry) (l : Location) :
    (tree.put location entry).lookup l = if l = location then some entry else tree.lookup l := by
  unfold lookup put erase
  rw [find?_with]
  split_ifs with hempty hl
  · exact absurd (hl.symm.trans (List.isEmpty_iff.mp hempty)) h
  · rfl
  · rfl
  · rfl

/-! ## The place of a path -/

/-- Where a part of a path leads from a location. -/
def step (location : Location) (part : String) : Location :=
  if !Path.counts part then location
  else if part = ".." then location.dropLast
  else location ++ [part]

theorem step_of_not_counts {part : String} (h : Path.counts part = false) (location : Location) :
    step location part = location := by
  simp [step, h]

theorem step_of_counts {part : String} (h : Path.counts part = true) (hup : part ≠ "..")
    (location : Location) : step location part = location ++ [part] := by
  simp [step, h, hup]

/-- The location from which a path is followed. -/
def start (here : Location) (path : String) : Location :=
  if Path.isAbsolute path then [] else here

/-- The location that a path spells, whether or not something is there: the last one that it
passes. -/
def placeOf (here : Location) (path : String) : Location :=
  (locationsOf here path).getLast?.getD (start here path)

theorem getLast?_locationsFrom (location : Location) (parts : List String) :
    (locationsFrom location parts).getLast?.getD location = parts.foldl step location := by
  induction parts generalizing location with
  | nil => rfl
  | cons part parts ih =>
    rw [List.foldl_cons, ← ih, locationsFrom, List.getLast?_cons, Option.getD_some]
    rfl

/-- The parts of a path that name something. -/
def named (path : String) : List String :=
  (Path.parts path).filter (· != "")

/-- Parts that do not count lead nowhere. -/
theorem foldl_step_filter {keep : String → Bool}
    (hkeep : ∀ part, ¬keep part = true → Path.counts part = false) (parts : List String)
    (location : Location) :
    (parts.filter keep).foldl step location = parts.foldl step location := by
  induction parts generalizing location with
  | nil => rfl
  | cons part parts ih =>
    by_cases h : keep part = true
    · rw [List.filter_cons_of_pos h, List.foldl_cons, List.foldl_cons, ih]
    · rw [List.filter_cons_of_neg h, List.foldl_cons, step_of_not_counts (hkeep part h), ih]

theorem placeOf_eq_foldl (here : Location) (path : String) :
    placeOf here path = (named path).foldl step (start here path) := by
  rw [named, foldl_step_filter (by simp +contextual [Path.counts])]
  exact getLast?_locationsFrom _ _

theorem ne_empty_of_mem_named {path part : String} (h : part ∈ named path) : part ≠ "" := by
  simpa using (List.mem_filter.mp h).2

/-- What the parts of a path lead to is where they spell it. -/
theorem eq_foldl_of_follow {parts : List String} (hparts : ∀ part ∈ parts, part ≠ "")
    {location l : Location} (h : tree.follow location parts = .ok l) :
    l = parts.foldl step location := by
  induction parts generalizing location with
  | nil => exact (Except.ok.inj h).symm
  | cons part parts ih =>
    have hpart : part ≠ "" := hparts part List.mem_cons_self
    have hrest : ∀ part ∈ parts, part ≠ "" := fun p hp => hparts p (List.mem_cons_of_mem _ hp)
    rw [List.foldl_cons]
    unfold follow at h
    split_ifs at h with hdot hup hlong
    · rw [step_of_not_counts (by simp [Path.counts, hdot])]
      exact ih hrest h
    · have hstep : step location part = location.dropLast := by simp [step, Path.counts, hup]
      rw [hstep]
      exact ih hrest h
    · rw [step_of_counts (by simp [Path.counts, hpart, hdot]) hup]
      cases hentry : tree.lookup (location ++ [part]) with
      | none =>
        rw [hentry] at h
        exact nomatch h
      | some entry =>
        rw [hentry] at h
        cases entry with
        | file content => exact nomatch h
        | directory => exact ih hrest h

/-- What the last part of a path says in the directory where it lies. -/
def lastOf (path : String) (location : Location) : Except IoCause (Location × Last) :=
  match (named path).getLast? with
  | none => .ok (location, .known location)
  | some part =>
    if part = "." then .ok (location, .known location)
    else if part = ".." then .ok (location, .known location.dropLast)
    else if maxName < part.utf8ByteSize then .error (.os .nameTooLong)
    else .ok (location, .name part ((Path.parts path).getLast? == some ""))

/-- Why a path cannot be followed anywhere, if it cannot. -/
def refused (path : String) : Option IoCause :=
  if path.toList.contains '\x00' then some .nulInPath
  else if path.isEmpty then some (.os .notFound)
  else if maxPath < path.utf8ByteSize then some (.os .nameTooLong)
  else none

/-- A path is followed up to its last part. -/
theorem approach_eq (tree : FileTree) (path : String) :
    tree.approach path =
      match refused path with
      | some cause => .error cause
      | none =>
        match tree.follow (start tree.here path) (named path).dropLast with
        | .error e => .error (.os e)
        | .ok location => lastOf path location := by
  unfold approach refused start
  generalize (if Path.isAbsolute path then [] else tree.here) = first
  dsimp only
  split_ifs with hnul hempty hlong
  · rfl
  · rfl
  · rfl
  · unfold lastOf named
    cases tree.follow first ((Path.parts path).filter (· != "")).dropLast with
    | error e => rfl
    | ok location => cases ((Path.parts path).filter (· != "")).getLast? <;> rfl

/-- A path whose last part is a name leads to the directory where the name lies. -/
theorem follow_of_approach {path : String} {location : Location} {name : String} {slash : Bool}
    (h : tree.approach path = .ok (location, .name name slash)) :
    tree.follow (start tree.here path) (named path).dropLast = .ok location ∧
      (named path).getLast? = some name ∧ name ≠ "." ∧ name ≠ ".." ∧
      slash = ((Path.parts path).getLast? == some "") := by
  rw [approach_eq] at h
  cases hrefused : refused path with
  | some cause =>
    rw [hrefused] at h
    exact nomatch h
  | none =>
    rw [hrefused] at h
    cases hfollow : tree.follow (start tree.here path) (named path).dropLast with
    | error e =>
      rw [hfollow] at h
      exact nomatch h
    | ok l =>
      rw [hfollow] at h
      dsimp only [lastOf] at h
      cases hlast : (named path).getLast? with
      | none =>
        rw [hlast] at h
        exact nomatch h
      | some part =>
        rw [hlast] at h
        dsimp only at h
        split_ifs at h with hdot hup hlong
        · cases h
        · cases h
        · cases h
          exact ⟨rfl, rfl, hdot, hup, rfl⟩

/-- What is found under a path lies where the path spells it. -/
theorem placeOf_of_approach {path : String} {location : Location} {name : String} {slash : Bool}
    (h : tree.approach path = .ok (location, .name name slash)) :
    placeOf tree.here path = location ++ [name] := by
  obtain ⟨hfollow, hlast, hdot, hup, _⟩ := follow_of_approach h
  have hmem : name ∈ named path := List.mem_of_getLast? hlast
  have hname : name ≠ "" := ne_empty_of_mem_named hmem
  have hlocation : location = (named path).dropLast.foldl step (start tree.here path) :=
    eq_foldl_of_follow (fun part hpart =>
      ne_empty_of_mem_named ((List.dropLast_sublist _).subset hpart)) hfollow
  have hstep : step location name = location ++ [name] :=
    step_of_counts (by simp [Path.counts, hname, hdot]) hup location
  rw [placeOf_eq_foldl, ← List.dropLast_append_getLast? name (Option.mem_def.mpr hlast),
    List.foldl_append, ← hlocation, List.foldl_cons, List.foldl_nil, hstep]

/-! ## Changes -/

/-- A change of a tree that keeps the working directory, the directories, and the files except at
some locations. -/
structure Keeps (touched : List Location) (before after : FileTree) : Prop where
  here : after.here = before.here
  directory : ∀ {l}, before.lookup l = some .directory → after.lookup l = some .directory
  file : ∀ {l content}, l ∉ touched → before.lookup l = some (.file content) →
    after.lookup l = some (.file content)

namespace Keeps

theorem refl (touched : List Location) (tree : FileTree) : Keeps touched tree tree :=
  ⟨rfl, fun h => h, fun _ h => h⟩

theorem trans {a b c : FileTree} (hab : Keeps touched a b) (hbc : Keeps touched b c) :
    Keeps touched a c where
  here := hbc.here.trans hab.here
  directory h := hbc.directory (hab.directory h)
  file hl h := hbc.file hl (hab.file hl h)

theorem mono {more : List Location} (h : Keeps touched tree tree') (hmore : touched ⊆ more) :
    Keeps more tree tree' :=
  ⟨h.here, h.directory, fun hl => h.file fun hmem => hl (hmore hmem)⟩

/-- Something new, or something in the place of a file that may be touched. -/
theorem put {location : Location} (hlocation : location ≠ [])
    (hdirectory : tree.lookup location ≠ some .directory)
    (hfile : location ∈ touched ∨ tree.lookup location = none) (entry : FileEntry) :
    Keeps touched tree (tree.put location entry) where
  here := rfl
  directory h := by
    rw [lookup_put hlocation, if_neg]
    · exact h
    · rintro rfl
      exact hdirectory h
  file hl h := by
    rw [lookup_put hlocation, if_neg]
    · exact h
    · rintro rfl
      rcases hfile with htouched | hnone
      · exact hl htouched
      · exact Option.some_ne_none _ (h.symm.trans hnone)

/-- Something other than a directory is gone. -/
theorem erase {location : Location} (hlocation : location ≠ [])
    (hdirectory : tree.lookup location ≠ some .directory) (hfile : location ∈ touched) :
    Keeps touched tree (tree.erase location) where
  here := rfl
  directory h := by
    rw [lookup_erase hlocation, if_neg]
    · exact h
    · rintro rfl
      exact hdirectory h
  file hl h := by
    rw [lookup_erase hlocation, if_neg]
    · exact h
    · rintro rfl
      exact hl hfile

/-- A path that can be followed leads to the same place afterwards. -/
theorem follow (h : Keeps touched tree tree') {parts : List String} {location l : Location}
    (hfollow : tree.follow location parts = .ok l) : tree'.follow location parts = .ok l := by
  induction parts generalizing location with
  | nil => exact hfollow
  | cons part parts ih =>
    unfold FileTree.follow at hfollow ⊢
    split_ifs at hfollow ⊢
    · exact ih hfollow
    · exact ih hfollow
    · cases hentry : tree.lookup (location ++ [part]) with
      | none =>
        rw [hentry] at hfollow
        exact nomatch hfollow
      | some entry =>
        rw [hentry] at hfollow
        cases entry with
        | file content => exact nomatch hfollow
        | directory =>
          rw [h.directory hentry]
          exact ih hfollow

theorem approach (h : Keeps touched tree tree') {path : String} {place : Location × Last}
    (happroach : tree.approach path = .ok place) : tree'.approach path = .ok place := by
  rw [approach_eq] at happroach ⊢
  rw [h.here]
  cases hrefused : refused path with
  | some cause =>
    rw [hrefused] at happroach
    exact nomatch happroach
  | none =>
    rw [hrefused] at happroach
    cases hfollow : tree.follow (start tree.here path) (named path).dropLast with
    | error e =>
      rw [hfollow] at happroach
      exact nomatch happroach
    | ok l =>
      rw [hfollow] at happroach
      dsimp only
      rw [h.follow hfollow]
      exact happroach

end Keeps

/-! ## Operations that succeed -/

theorem readFile_of_lookup {path : String} {location : Location} {name : String}
    {content : ByteArray} (h : tree.approach path = .ok (location, .name name false))
    (hlookup : tree.lookup (location ++ [name]) = some (.file content)) :
    tree.readFile path = .ok content := by
  simp [readFile, status, h, hlookup, bind, Except.bind, pure, Except.pure]

theorem readFile_of_none {path : String} {location : Location} {name : String} {slash : Bool}
    (h : tree.approach path = .ok (location, .name name slash))
    (hlookup : tree.lookup (location ++ [name]) = none) :
    tree.readFile path = .error (.os .notFound) := by
  simp [readFile, status, h, hlookup, bind, Except.bind, pure, Except.pure]

/-- What can be read is a file that a path names. -/
theorem readFile_eq_ok {path : String} {content : ByteArray}
    (h : tree.readFile path = .ok content) :
    ∃ location name, tree.approach path = .ok (location, .name name false) ∧
      tree.lookup (location ++ [name]) = some (.file content) := by
  obtain ⟨entry, hstatus, hentry⟩ := bind_eq_ok h
  obtain ⟨⟨location, last⟩, happroach, hlast⟩ := bind_eq_ok hstatus
  cases last with
  | known l =>
    obtain rfl := Except.ok.inj hlast
    exact nomatch hentry
  | name name slash =>
    dsimp only at hlast
    cases hlookup : tree.lookup (location ++ [name]) with
    | none =>
      rw [hlookup] at hlast
      obtain rfl := Except.ok.inj hlast
      exact nomatch hentry
    | some found =>
      rw [hlookup] at hlast
      cases found with
      | directory =>
        obtain rfl := Except.ok.inj hlast
        exact nomatch hentry
      | file bytes =>
        cases slash with
        | true => exact nomatch hlast
        | false =>
          obtain rfl := Except.ok.inj hlast
          exact ⟨location, name, happroach, hlookup.trans (by rw [Except.ok.inj hentry])⟩

theorem makeDirectory_eq_ok {path : String} (h : tree.makeDirectory path = .ok tree') :
    ∃ location name slash, tree.approach path = .ok (location, .name name slash) ∧
      tree.lookup (location ++ [name]) = none ∧
      tree' = tree.put (location ++ [name]) .directory := by
  obtain ⟨⟨location, last⟩, happroach, hlast⟩ := bind_eq_ok h
  cases last with
  | known l => exact nomatch hlast
  | name name slash =>
    refine ⟨location, name, slash, happroach, ?_⟩
    dsimp only at hlast
    cases hlookup : tree.lookup (location ++ [name]) with
    | none =>
      rw [hlookup] at hlast
      exact ⟨rfl, (Except.ok.inj hlast).symm⟩
    | some entry =>
      rw [hlookup] at hlast
      exact nomatch hlast

theorem createFile_eq_ok {path : String} {content : ByteArray}
    (h : tree.createFile path content = .ok tree') :
    ∃ location name, tree.approach path = .ok (location, .name name false) ∧
      tree.lookup (location ++ [name]) ≠ some .directory ∧
      tree' = tree.put (location ++ [name]) (.file content) := by
  obtain ⟨⟨location, last⟩, happroach, hlast⟩ := bind_eq_ok h
  cases last with
  | known l => exact nomatch hlast
  | name name slash =>
    cases slash with
    | true => exact nomatch hlast
    | false =>
      refine ⟨location, name, happroach, ?_⟩
      dsimp only at hlast
      rw [if_neg Bool.false_ne_true] at hlast
      cases hlookup : tree.lookup (location ++ [name]) with
      | none =>
        rw [hlookup] at hlast
        exact ⟨by simp, (Except.ok.inj hlast).symm⟩
      | some entry =>
        rw [hlookup] at hlast
        cases entry with
        | directory => exact nomatch hlast
        | file bytes => exact ⟨by simp, (Except.ok.inj hlast).symm⟩

theorem removeFile_eq_ok {path : String} (h : tree.removeFile path = .ok tree') :
    ∃ location name content, tree.approach path = .ok (location, .name name false) ∧
      tree.lookup (location ++ [name]) = some (.file content) ∧
      tree' = tree.erase (location ++ [name]) := by
  obtain ⟨⟨location, last⟩, happroach, hlast⟩ := bind_eq_ok h
  cases last with
  | known l => exact nomatch hlast
  | name name slash =>
    dsimp only at hlast
    cases hlookup : tree.lookup (location ++ [name]) with
    | none =>
      rw [hlookup] at hlast
      exact nomatch hlast
    | some entry =>
      rw [hlookup] at hlast
      cases entry with
      | directory => exact nomatch hlast
      | file content =>
        cases slash with
        | true => exact nomatch hlast
        | false => exact ⟨location, name, content, happroach, hlookup, (Except.ok.inj hlast).symm⟩

theorem rename_eq_ok {source target : String} (h : tree.rename source target = .ok tree') :
    ∃ sourceParent sourceName sourceSlash targetParent targetName content,
      tree.approach source = .ok (sourceParent, .name sourceName sourceSlash) ∧
      tree.approach target = .ok (targetParent, .name targetName false) ∧
      tree.lookup (sourceParent ++ [sourceName]) = some (.file content) ∧
      tree.lookup (targetParent ++ [targetName]) ≠ some .directory ∧
      tree' = (tree.erase (sourceParent ++ [sourceName])).put (targetParent ++ [targetName])
        (.file content) := by
  obtain ⟨⟨sourceParent, sourceLast⟩, hsource, h⟩ := bind_eq_ok h
  obtain ⟨⟨targetParent, targetLast⟩, htarget, h⟩ := bind_eq_ok h
  cases sourceLast with
  | known l => exact nomatch h
  | name sourceName sourceSlash =>
    cases targetLast with
    | known l => exact nomatch h
    | name targetName slash =>
      dsimp only at h
      cases hlookup : tree.lookup (sourceParent ++ [sourceName]) with
      | none =>
        rw [hlookup] at h
        exact nomatch h
      | some entry =>
        rw [hlookup] at h
        cases entry with
        | directory => exact nomatch h
        | file content =>
          cases slash with
          | true => exact nomatch h
          | false =>
            refine ⟨sourceParent, sourceName, sourceSlash, targetParent, targetName, content,
              hsource, htarget, hlookup, ?_⟩
            dsimp only at h
            rw [if_neg Bool.false_ne_true] at h
            cases hplace : tree.lookup (targetParent ++ [targetName]) with
            | none =>
              rw [hplace] at h
              exact ⟨by simp, (Except.ok.inj h).symm⟩
            | some entry =>
              rw [hplace] at h
              cases entry with
              | directory => exact nomatch h
              | file bytes => exact ⟨by simp, (Except.ok.inj h).symm⟩

/-- What cannot be removed because it is not there cannot be read either. -/
theorem readFile_of_removeFile_notFound {path : String}
    (h : tree.removeFile path = .error (.os .notFound)) :
    tree.readFile path = .error (.os .notFound) := by
  unfold removeFile at h
  cases happroach : tree.approach path with
  | error cause =>
    rw [happroach] at h
    obtain rfl := Except.error.inj h
    simp [readFile, status, happroach, bind, Except.bind]
  | ok place =>
    rw [happroach] at h
    obtain ⟨location, last⟩ := place
    cases last with
    | known l => exact nomatch h
    | name name slash =>
      cases hlookup : tree.lookup (location ++ [name]) with
      | none => exact readFile_of_none happroach hlookup
      | some entry =>
        simp only [bind, Except.bind, hlookup] at h
        cases entry with
        | directory => exact nomatch h
        | file content => cases slash <;> exact nomatch h

/-! ## What operations keep -/

theorem createFile_keeps {path : String} {content : ByteArray}
    (h : tree.createFile path content = .ok tree') (htouched : placeOf tree.here path ∈ touched) :
    Keeps touched tree tree' := by
  obtain ⟨location, name, happroach, hdirectory, rfl⟩ := createFile_eq_ok h
  rw [placeOf_of_approach happroach] at htouched
  exact .put (by simp) hdirectory (Or.inl htouched) _

theorem removeFile_keeps {path : String} (h : tree.removeFile path = .ok tree')
    (htouched : placeOf tree.here path ∈ touched) : Keeps touched tree tree' := by
  obtain ⟨location, name, content, happroach, hlookup, rfl⟩ := removeFile_eq_ok h
  rw [placeOf_of_approach happroach] at htouched
  exact .erase (by simp) (by rw [hlookup]; simp) htouched

theorem rename_keeps {source target : String} (h : tree.rename source target = .ok tree')
    (hsource : placeOf tree.here source ∈ touched)
    (htarget : placeOf tree.here target ∈ touched) : Keeps touched tree tree' := by
  obtain ⟨sourceParent, sourceName, _, targetParent, targetName, content, hsourceAt, htargetAt,
    hlookup, hdirectory, rfl⟩ := rename_eq_ok h
  rw [placeOf_of_approach hsourceAt] at hsource
  rw [placeOf_of_approach htargetAt] at htarget
  have herase : Keeps touched tree (tree.erase (sourceParent ++ [sourceName])) :=
    .erase (by simp) (by rw [hlookup]; simp) hsource
  refine herase.trans (.put (by simp) ?_ (Or.inl htarget) _)
  rw [lookup_erase (by simp)]
  split_ifs
  · simp
  · exact hdirectory

/-! ## What is read -/

/-- A file at another place can still be read. -/
theorem Keeps.readFile (h : Keeps touched tree tree') {path : String} {content : ByteArray}
    (hplace : placeOf tree.here path ∉ touched) (hread : tree.readFile path = .ok content) :
    tree'.readFile path = .ok content := by
  obtain ⟨location, name, happroach, hlookup⟩ := readFile_eq_ok hread
  rw [placeOf_of_approach happroach] at hplace
  exact readFile_of_lookup (h.approach happroach) (h.file hplace hlookup)

/-- The bytes that spell a text. -/
theorem fromUTF8?_eq_some_iff {bytes : ByteArray} {text : String} :
    String.fromUTF8? bytes = some text ↔ bytes = text.toUTF8 := by
  unfold String.fromUTF8?
  constructor
  · intro h
    split_ifs at h with hvalid
    rw [← Option.some.inj h]
    rfl
  · rintro rfl
    exact dif_pos text.isValidUTF8

/-- A file has a text when its bytes spell it. -/
theorem readText_eq_ok_iff {path text : String} :
    tree.readText path = .ok text ↔ tree.readFile path = .ok text.toUTF8 := by
  constructor
  · intro h
    obtain ⟨bytes, hread, htext⟩ := bind_eq_ok h
    cases hspelled : String.fromUTF8? bytes with
    | none =>
      rw [hspelled] at htext
      exact nomatch htext
    | some found =>
      rw [hspelled] at htext
      obtain rfl := Except.ok.inj htext
      rw [hread, fromUTF8?_eq_some_iff.mp hspelled]
  · intro h
    have hspelled : String.fromUTF8? text.toUTF8 = some text := fromUTF8?_eq_some_iff.mpr rfl
    rw [readText, h]
    dsimp only [bind, Except.bind]
    rw [hspelled]
    rfl

/-- A file has no text because it is not there exactly when it is not there. -/
theorem readText_eq_notFound_iff {path : String} :
    tree.readText path = .error (.os .notFound) ↔
      tree.readFile path = .error (.os .notFound) := by
  constructor
  · intro h
    unfold readText at h
    cases hread : tree.readFile path with
    | error cause =>
      rw [hread] at h
      rw [Except.error.inj h]
    | ok bytes =>
      rw [hread] at h
      simp only [bind, Except.bind] at h
      split at h
      · exact nomatch h
      · exact nomatch h
  · intro h
    unfold readText
    rw [h]
    rfl

theorem Keeps.readText (h : Keeps touched tree tree') {path text : String}
    (hplace : placeOf tree.here path ∉ touched) (hread : tree.readText path = .ok text) :
    tree'.readText path = .ok text :=
  readText_eq_ok_iff.mpr (h.readFile hplace (readText_eq_ok_iff.mp hread))

end ArchDoc.FileTree
