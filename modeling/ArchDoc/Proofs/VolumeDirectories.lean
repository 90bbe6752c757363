import ArchDoc.Proofs.NewDirectories
import ArchDoc.Proofs.VolumePaths
import ArchDoc.Store.Directory
import Mathlib.Data.List.Induction

/-!
# Directories made in a volume

Making the directory of a document makes directories above it where there was nothing, and changes
nothing else, whether it comes to an end or not. A path that has no two dots does not lead through
what it names or through something below it, even if it leads through symbolic links: what is made
on the way is empty, and from there it only goes down.

Main definitions:

* `Volume.Grows`: a change that only makes directories, where some paths lead.
* `above`: the paths that are made for a file.
* `Volume.Closed`: whatever has a name stands in a directory.
* `Volume.Straight`: a way to a file on which nothing is made where the file belongs.

Results:

* `prepare_grows`: making the directory of a file does nothing else.
* `Grows.straight`: paths without two dots are straight.
-/

namespace ArchDoc

open FileSystem (ancestors makeDirectories)
open FileTree (start named)
open Store (Rooted)
open Store.Rooted (prepare)

namespace Volume

variable {v v' : Volume} {ways : List String} {path file : String} {l : Location}

/-! ## Growing -/

/-- A change of a volume that makes directories where some paths lead, and nothing else. -/
structure Grows (ways : List String) (before after : Volume) : Prop where
  here : after.here = before.here
  contents : after.contents = before.contents
  refusal : after.refusal = before.refusal
  torn : after.torn = before.torn
  lookup : ∀ l, after.lookup l = before.lookup l ∨
    before.lookup l = none ∧ after.lookup l = some .directory ∧
      ∃ path ∈ ways, after.place? path = some l

namespace Grows

theorem leads (h : Grows ways v v') : Leads v v' where
  here := h.here
  refusal := h.refusal
  directory {l} hl := by
    rcases h.lookup l with hsame | ⟨hnone, _⟩
    · exact hsame.trans hl
    · exact nomatch hnone.symm.trans hl
  link l := by
    rcases h.lookup l with hsame | ⟨hnone, hnew, _⟩
    · exact link?_congr hsame
    · simp [link?, hnone, hnew]

theorem refl (ways : List String) (v : Volume) : Grows ways v v :=
  ⟨rfl, rfl, rfl, rfl, fun _ => .inl rfl⟩

theorem trans {a b c : Volume} (hab : Grows ways a b) (hbc : Grows ways b c) : Grows ways a c where
  here := hbc.here.trans hab.here
  contents := hbc.contents.trans hab.contents
  refusal := hbc.refusal.trans hab.refusal
  torn := hbc.torn.trans hab.torn
  lookup l := by
    rcases hbc.lookup l with hsame | ⟨hnone, hnew, hway⟩
    · rcases hab.lookup l with hold | ⟨hnone, hnew, path, hpath, hplace⟩
      · exact .inl (hsame.trans hold)
      · exact .inr ⟨hnone, hsame.trans hnew, path, hpath, hbc.leads.place? hplace⟩
    · rcases hab.lookup l with hold | ⟨_, hmade, _⟩
      · exact .inr ⟨hold.symm.trans hnone, hnew, hway⟩
      · exact nomatch hnone.symm.trans hmade

theorem seen (h : Grows ways v v') (hsame : v'.lookup l = v.lookup l) : v'.seen l = v.seen l := by
  unfold Volume.seen
  rw [hsame]
  unfold look
  rw [h.contents]

end Grows

theorem makeDirectory_eq_ok (h : v.makeDirectory path = .ok v') :
    ∃ dir name slash, v.approach path = .ok (dir, .name name slash) ∧
      v.lookup (dir ++ [name]) = none ∧ v' = v.put (dir ++ [name]) .directory := by
  obtain ⟨⟨dir, last⟩, happroach, h⟩ := bind_eq_ok h
  cases last with
  | known l => exact nomatch h
  | name name slash =>
    dsimp only at h
    cases hnone : v.lookup (dir ++ [name]) with
    | some node =>
      rw [hnone] at h
      exact nomatch h
    | none =>
      rw [hnone] at h
      exact ⟨dir, name, slash, happroach, hnone, (eq_ok_of_unlessRefused h).symm⟩

/-- A directory in the place of nothing is in no path's way. -/
theorem leads_putDirectory (hl : l ≠ []) (hnone : v.lookup l = none) :
    Leads v (v.put l .directory) where
  here := rfl
  refusal := rfl
  directory {below} hbelow := by
    rw [lookup_put hl]
    split_ifs
    · rfl
    · exact hbelow
  link below := by
    by_cases hsame : below = l
    · simp [link?, lookup_put hl, hsame, hnone]
    · exact link?_congr (by rw [lookup_put hl, if_neg hsame])

/-- A new directory is where its path leads. -/
theorem makeDirectory_grows (hpath : path ∈ ways) (h : v.makeDirectory path = .ok v') :
    Grows ways v v' := by
  obtain ⟨dir, name, slash, happroach, hnone, rfl⟩ := makeDirectory_eq_ok h
  have hne : dir ++ [name] ≠ [] := by simp
  have hplace := (leads_putDirectory hne hnone).place? (place?_of_approach happroach)
  refine ⟨rfl, rfl, rfl, rfl, fun l => ?_⟩
  rw [lookup_put hne]
  split_ifs with hl
  · subst hl
    exact .inr ⟨hnone, rfl, path, hpath, hplace⟩
  · exact .inl rfl

/-- Making directories does nothing else. -/
theorem makeDirectories_grows (v : Volume) (path : String) :
    Grows (ancestors (Path.parts path).length path) v (makeDirectories v path).1 :=
  FileSystem.makeDirectories_induction (R := Grows (ancestors (Path.parts path).length path))
    (.refl _) .trans makeDirectory_grows v

end Volume

/-! ## The directories above a file -/

/-- The paths above a file, as far as they are neither the root nor empty. -/
def above (file : String) : List String :=
  match Path.parent? file with
  | none => []
  | some parent => ancestors (Path.parts parent).length parent

namespace Volume

variable {v v' : Volume} {ways : List String} {path file : String} {l : Location}

theorem prepare_grows (v : Volume) (file : String) : Grows (above file) v (prepare v file).1 := by
  unfold prepare above
  cases Path.parent? file with
  | none => exact .refl _ _
  | some parent =>
    have hmake := makeDirectories_grows v parent
    dsimp only
    rcases hmade : makeDirectories v parent with ⟨made, cause | ok⟩
    · rw [hmade] at hmake
      exact hmake
    · rw [hmade] at hmake
      exact hmake

/-- A path above a file starts where the file starts and has fewer parts that count. -/
theorem counted_of_mem_above {here : Location} (h : path ∈ above file) :
    start here path = start here file ∧ Path.counted path <+: (Path.counted file).dropLast := by
  unfold above at h
  cases hparent : Path.parent? file with
  | none =>
    rw [hparent] at h
    exact nomatch h
  | some parent =>
    rw [hparent] at h
    obtain ⟨habsolute, hcounted⟩ := Path.parent?_eq_some hparent
    obtain ⟨hstart, hprefix⟩ : start here path = start here parent ∧
        Path.counted path <+: Path.counted parent := FileTree.counted_of_mem_ancestors h
    rw [hcounted] at hprefix
    exact ⟨hstart.trans (by rw [start, habsolute, start]), hprefix⟩

/-! ## Below the file -/

/-- Whatever has a name stands in a directory. -/
def Closed (v : Volume) : Prop :=
  ∀ l, v.lookup l ≠ none → v.lookup l.dropLast = some .directory

theorem closed_of_nodes (h : ∀ entry ∈ v.nodes, v.lookup entry.1.dropLast = some .directory) :
    Closed v := by
  intro l hl
  unfold lookup at hl
  split_ifs at hl with hroot
  · rw [List.isEmpty_iff.mp hroot]
    rfl
  · obtain ⟨entry, hfind⟩ := Option.ne_none_iff_exists'.mp (mt Option.map_eq_none_iff.mpr hl)
    have hentry : entry.1 = l := by simpa using List.find?_some hfind
    rw [← hentry]
    exact h entry (List.mem_of_find?_eq_some hfind)

/-- Below nothing is nothing. -/
theorem Closed.lookup_of_prefix (h : Closed v) {l below : Location} (hnone : v.lookup l = none)
    (hbelow : l <+: below) : v.lookup below = none := by
  obtain ⟨more, rfl⟩ := hbelow
  induction more using List.reverseRecOn with
  | nil => rwa [List.append_nil]
  | append_singleton more name ih =>
    by_contra hsome
    have hdirectory := h _ hsome
    rw [← List.append_assoc, List.dropLast_concat, ih] at hdirectory
    exact nomatch hdirectory

theorem counted_eq_filter_named (path : String) :
    Path.counted path = (named path).filter Path.counts := by
  unfold Path.counted named
  rw [List.filter_filter]
  refine List.filter_congr fun part _ => ?_
  unfold Path.counts
  cases part != "" <;> simp

/-- The parts that count of a path that ends in a name. -/
theorem counted_of_named {before : List String} {name : String}
    (hnamed : named path = before ++ [name]) (hdot : name ≠ ".") :
    Path.counted path = before.filter Path.counts ++ [name] ∧ ∀ part ∈ before, part ≠ "" := by
  have hmem : ∀ part ∈ before ++ [name], part ≠ "" := by
    rw [← hnamed]
    exact fun _ => FileTree.ne_empty_of_mem_named
  have hname : Path.counts name = true := by
    simp [Path.counts, hdot, hmem name (by simp)]
  refine ⟨?_, fun part hpart => hmem part (List.mem_append_left _ hpart)⟩
  rw [counted_eq_filter_named, hnamed, List.filter_append, List.filter_cons_of_pos hname,
    List.filter_nil]

/-- The parts that count lead where the path leads, and those before the last one lead to the
directory where it lies. -/
theorem reaches_counted {dir : Location} {name : String} {slash : Bool}
    (h : v.approach path = .ok (dir, .name name slash)) :
    ∃ before left, Path.counted path = before ++ [name] ∧
      v.Reaches maxLinks (start v.here path) before left dir ∧
      v.resolve false maxLinks (start v.here path) (Path.counted path) slash =
        .ok (dir, .name name slash) := by
  obtain ⟨before, left, hnamed, hdot, _, rfl, hreaches⟩ := reaches_of_approach h
  obtain ⟨hcounted, hbefore⟩ := counted_of_named hnamed hdot
  have hway := (resolve_of_locate h).2
  rw [hnamed, resolve_filter (List.cons_ne_nil _ _) hbefore, ← hcounted] at hway
  refine ⟨before.filter Path.counts, left, hcounted, fun followLast more slash hmore => ?_, hway⟩
  rw [← resolve_filter hmore hbefore]
  exact hreaches followLast more slash hmore

/-- A path that ends in a directory without a name, and has no two dots, ends in a dot behind the
parts that count. -/
theorem resolve_counted_known {last : Location} (h : v.approach path = .ok (last, .known l))
    (hdown : ".." ∉ Path.counted path) (hne : Path.counted path ≠ []) :
    ∃ slash, v.resolve false maxLinks (start v.here path) (Path.counted path ++ ["."]) slash =
      .ok (last, .known l) := by
  have hway := (resolve_of_locate h).2
  have hparts : ∀ part ∈ named path, part ≠ "" := fun _ => FileTree.ne_empty_of_mem_named
  rcases List.eq_nil_or_concat' (named path) with hnil | ⟨before, part, hnamed⟩
  · exact absurd (by rw [counted_eq_filter_named, hnil, List.filter_nil]) hne
  rw [hnamed] at hway hparts
  rcases resolve_concat hway with ⟨_, hname, _⟩ | ⟨rfl | rfl, _⟩
  · exact nomatch hname
  · have hcounted : Path.counted path = before.filter Path.counts := by
      rw [counted_eq_filter_named, hnamed, List.filter_append]
      simp [Path.counts]
    rw [resolve_filter (List.cons_ne_nil _ _) fun part hpart =>
      hparts part (List.mem_append_left _ hpart), ← hcounted] at hway
    exact ⟨_, hway⟩
  · refine absurd ?_ hdown
    rw [counted_eq_filter_named, hnamed]
    exact List.mem_filter.mpr ⟨by simp, by decide⟩

/-- Behind a directory below which there are no symbolic links, the parts of a path only lead
down. -/
theorem location?_eq_append {dir place : Location} {before more : List String} {part : String}
    {left : Nat} (hreaches : v.Reaches maxLinks (start v.here file) before left dir)
    (hcounted : Path.counted file = before ++ part :: more) (hmore : more ≠ [])
    (hdown : ".." ∉ Path.counted file) (hlinks : ∀ l, dir ++ [part] <+: l → v.link? l = none)
    (hplace : v.location? file = some place) : place = dir ++ [part] ++ more := by
  have hparts : ∀ p ∈ part :: more, Path.counts p = true ∧ p ≠ ".." := by
    intro p hp
    have hmem : p ∈ Path.counted file := by
      rw [hcounted]
      exact List.mem_append_right _ hp
    exact ⟨(List.mem_filter.mp hmem).2, fun hup => hdown (hup ▸ hmem)⟩
  obtain ⟨hpart, hparts⟩ := List.forall_mem_cons.mp hparts
  -- what stands behind the directory is followed from it, and then downwards
  have hfollow : ∀ {names rest slash result}, (∀ p ∈ names, Path.counts p = true ∧ p ≠ "..") →
      rest ≠ [] → v.resolve false maxLinks (start v.here file)
        (before ++ part :: (names ++ rest)) slash = .ok result →
      v.resolve false left (dir ++ [part] ++ names) rest slash = .ok result := by
    intro names rest slash result hnames hrest h
    rw [hreaches false _ _ (List.cons_ne_nil _ _)] at h
    have hrest' := List.append_ne_nil_of_right_ne_nil names hrest
    exact resolve_down hnames hrest hlinks
      (resolve_name hpart hrest' (hlinks _ (List.prefix_refl _)) h)
  unfold location? at hplace
  cases happroach : v.approach file with
  | error cause =>
    rw [happroach] at hplace
    exact nomatch hplace
  | ok found =>
    obtain ⟨fileDir, last⟩ := found
    rw [happroach] at hplace
    cases last with
    | known l =>
      obtain rfl := Option.some.inj hplace
      obtain ⟨slash, hway⟩ := resolve_counted_known happroach hdown (by simp [hcounted])
      rw [hcounted, List.append_assoc, List.cons_append] at hway
      have hend := hfollow hparts (List.cons_ne_nil _ _) hway
      rw [resolve_dot] at hend
      exact (FileTree.Last.known.inj (Prod.mk.inj (Except.ok.inj hend)).2).symm
    | name name slash =>
      obtain rfl := Option.some.inj hplace
      obtain ⟨_, _, _, _, hway⟩ := reaches_counted happroach
      obtain ⟨between, final, rfl⟩ := (List.eq_nil_or_concat' more).resolve_left hmore
      rw [hcounted] at hway
      have hend := hfollow (fun p hp => hparts p (List.mem_append_left _ hp))
        (List.cons_ne_nil _ _) hway
      rcases resolve_singleton hend with ⟨_, hfound⟩ | ⟨_, _, hfound⟩
      · obtain ⟨rfl, hname⟩ := Prod.mk.inj hfound
        obtain ⟨rfl, _⟩ := FileTree.Last.name.inj hname
        rw [List.append_assoc]
      · exact nomatch (Prod.mk.inj hfound).2

/-- No directory that is missing on the way to a file lies where the file belongs, or below. -/
def Straight (before made : Volume) (file : String) : Prop :=
  ∀ place path l, made.location? file = some place → path ∈ above file →
    made.place? path = some l → before.lookup l = none → ¬place <+: l

/-- On a straight way nothing is made where the file belongs, or below. -/
theorem Grows.lookup_below (h : Grows (above file) v v') (hstraight : Straight v v' file)
    {place : Location} (hplace : v'.location? file = some place) (hl : place <+: l) :
    v'.lookup l = v.lookup l := by
  rcases h.lookup l with hsame | ⟨hnone, _, path, hpath, hway⟩
  · exact hsame
  · exact absurd hl (hstraight place path l hplace hpath hway hnone)

/-- A path without two dots is straight. -/
theorem Grows.straight (h : Grows (above file) v v') (hclosed : Closed v)
    (hdown : ".." ∉ Path.counted file) : Straight v v' file := by
  intro place path l hplace hpath hway hnone hl
  obtain ⟨hstart, hprefix⟩ : start v'.here path = start v'.here file ∧
      Path.counted path <+: (Path.counted file).dropLast := counted_of_mem_above hpath
  obtain ⟨dir, name, slash, happroach, rfl⟩ := place?_eq_some_iff.mp hway
  obtain ⟨before, left, hparts, hreaches, _⟩ := reaches_counted happroach
  rw [hstart] at hreaches
  rw [hparts] at hprefix
  -- the file has the parts of the directory that is missing, and more behind them
  obtain ⟨more, hmore, hall⟩ : ∃ more, more ≠ [] ∧ Path.counted file = before ++ name :: more := by
    obtain ⟨between, hbetween⟩ := hprefix
    rcases List.eq_nil_or_concat' (Path.counted file) with hnil | ⟨init, final, hfinal⟩
    · simp [hnil] at hbetween
    · rw [hfinal, List.dropLast_concat] at hbetween
      exact ⟨between ++ [final], by simp, by rw [hfinal, ← hbetween]; simp⟩
  have hlinks : ∀ below, dir ++ [name] <+: below → v'.link? below = none := by
    intro below hbelow
    rw [h.leads.link]
    exact (bare_of_none (hclosed.lookup_of_prefix hnone hbelow)).not_link
  have hdeep := location?_eq_append hreaches hall hmore hdown hlinks hplace
  -- so it lies below that directory and not above it
  have hlong := hl.length_le
  rw [hdeep, List.length_append] at hlong
  have hpos : 0 < more.length := List.length_pos_iff.mpr hmore
  omega

end Volume

end ArchDoc
