import ArchDoc.Proofs.VolumeDirectories
import ArchDoc.Proofs.WriteOutcomes

/-!
# What a write does in a volume

A write can end in four ways: nothing but directories was made, the temporary file is gone again, it
had to be left behind because the volume refused to remove it, or it has taken the place of the
document. In each of them nothing else is seen to change, if the name of the temporary file is no
symbolic link, and no other name of a file in the place of the document: either would lead the
writing elsewhere.

Main definitions:

* `Volume.Written`: a file was written to, where there was none or a file.
* `Volume.Ending`: the four ends of a write.
* `Volume.Apart`: a temporary file that shares nothing with the document.

Results:

* `createAt_cases`, `discard_cases`, `renameAt_eq_ok`: what the calls do.
* `temporary_beside`: the temporary file lies in the directory of the document.
* `write_ending`: every write ends in one of the four ways.
-/

namespace ArchDoc.Volume

open FileTree (Last start named)
open Store (Error Rooted)
open Store.Rooted (discard prepare replaceFile temporary)

variable {v w : Volume} {location l : Location} {path file text : String} {number : Nat}
  {content : ByteArray}

/-! ## Writing to a file -/

/-- What was written to a file: a new one, or one that was there. -/
structure Written (location : Location) (number : Nat) (before after : Volume) : Prop where
  here : after.here = before.here
  refusal : after.refusal = before.refusal
  torn : after.torn = before.torn
  bare : before.Bare location
  lookup : ∀ l, after.lookup l = if l = location then some (.file number) else before.lookup l
  contents : ∀ n, n ≠ number → after.contents n = before.contents n
  origin : (∀ l, before.lookup l ≠ some (.file number)) ∨
    before.lookup location = some (.file number)

namespace Written

theorem leads (h : Written location number v w) : Leads v w := by
  refine leads_of_bare h.here h.refusal fun l => ?_
  rw [h.lookup]
  split_ifs with hl
  · exact .inr ⟨hl ▸ h.bare, bare_of_file (by rw [h.lookup, if_pos hl])⟩
  · exact .inl rfl

theorem leads_back (h : Written location number v w) : Leads w v := by
  refine leads_of_bare h.here.symm h.refusal.symm fun l => ?_
  rw [h.lookup]
  split_ifs with hl
  · exact .inr ⟨bare_of_file (by rw [h.lookup, if_pos hl]), hl ▸ h.bare⟩
  · exact .inl rfl

/-- No other name stands for the file, unless it did so before. -/
theorem lookup_ne (h : Written location number v w) (hl : l ≠ location)
    (htwin : ¬v.Twin location l) : v.lookup l ≠ some (.file number) := by
  intro hnumber
  rcases h.origin with hnew | hold
  · exact hnew l hnumber
  · exact htwin ⟨hl.symm, number, hold, hnumber⟩

/-- Nothing else is seen to change. -/
theorem look (h : Written location number v w) (hl : l ≠ location) (htwin : ¬v.Twin location l)
    {node : Node} (hnode : v.lookup l = some node) : w.look node = v.look node := by
  cases node with
  | directory => rfl
  | link target => rfl
  | file n =>
    have hne : n ≠ number := fun hn => h.lookup_ne hl htwin (hn ▸ hnode)
    exact congrArg Seen.file (h.contents n hne)

theorem seen (h : Written location number v w) (hl : l ≠ location) (htwin : ¬v.Twin location l) :
    w.seen l = v.seen l := by
  unfold Volume.seen
  rw [h.lookup, if_neg hl]
  cases hnode : v.lookup l with
  | none => rfl
  | some node => exact congrArg some (h.look hl htwin hnode)

end Written

theorem write_cases (v : Volume) (location : Location) (number : Nat) (content : ByteArray) :
    v.write location number content = (v.fill number content, .ok ()) ∨
      ∃ part e, v.write location number content = (v.fill number part, .error e) := by
  unfold write
  cases v.torn location with
  | none => exact .inl rfl
  | some torn => exact .inr ⟨_, _, rfl⟩

theorem written_put (hlocation : location ≠ []) (hnone : v.lookup location = none)
    (content : ByteArray) :
    Written location v.fresh v ((v.put location (.file v.fresh)).fill v.fresh content) where
  here := rfl
  refusal := rfl
  torn := rfl
  bare := bare_of_none hnone
  lookup := lookup_put hlocation _
  contents _ hn := contents_fill_of_ne hn content
  origin := .inl fun _ hl => fresh_ne hl rfl

theorem written_fill (hnode : v.lookup location = some (.file number)) (content : ByteArray) :
    Written location number v (v.fill number content) where
  here := rfl
  refusal := rfl
  torn := rfl
  bare := bare_of_file hnode
  lookup l := by
    split_ifs with hl
    · rw [hl]
      exact hnode
    · rfl
  contents _ hn := contents_fill_of_ne hn content
  origin := .inr hnode

/-- A file is created, or written to, or nothing happens. -/
theorem createAt_cases (hlocation : location ≠ []) (content : ByteArray) :
    (∃ e, v.createAt location content = (v, .error e)) ∨
      ∃ number w, Written location number v w ∧
        (v.createAt location content = (w, .ok ()) ∧ w.contents number = content ∨
          ∃ e, v.createAt location content = (w, .error e)) := by
  have hwrite : ∀ {number : Nat} {u : Volume},
      (∀ part, Written location number v (u.fill number part)) →
      v.createAt location content = u.write location number content →
      ∃ number w, Written location number v w ∧
        (v.createAt location content = (w, .ok ()) ∧ w.contents number = content ∨
          ∃ e, v.createAt location content = (w, .error e)) := by
    intro number u hwritten hcreate
    rcases write_cases u location number content with hok | ⟨part, e, herror⟩
    · exact ⟨number, _, hwritten content, .inl ⟨hcreate.trans hok, contents_fill ..⟩⟩
    · exact ⟨number, _, hwritten part, .inr ⟨e, hcreate.trans herror⟩⟩
  cases hnode : v.lookup location with
  | none =>
    cases hrefusal : v.refusal (.create location) with
    | some e => exact .inl ⟨_, by rw [createAt, hnode, hrefusal]⟩
    | none =>
      exact .inr (hwrite (written_put hlocation hnode) (by rw [createAt, hnode, hrefusal]))
  | some node =>
    cases node with
    | directory => exact .inl ⟨_, by rw [createAt, hnode]⟩
    | link target => exact .inl ⟨_, by rw [createAt, hnode]⟩
    | file number =>
      cases hrefusal : v.refusal (.create location) with
      | some e => exact .inl ⟨_, by rw [createAt, hnode, hrefusal]⟩
      | none => exact .inr (hwrite (written_fill hnode) (by rw [createAt, hnode, hrefusal]))

theorem createFile_of_approach {dir : Location} {name : String}
    (happroach : v.approach path = .ok (dir, .name name false))
    (hlink : v.link? (dir ++ [name]) = none) (content : ByteArray) :
    v.createFile path content = v.createAt (dir ++ [name]) content := by
  have harrive : v.arrive path = .ok (dir, .name name false) := by
    rw [arrive_eq, happroach]
    intro l hplace
    rw [place?_of_approach happroach] at hplace
    rw [← Option.some.inj hplace]
    exact hlink
  rw [createFile, harrive]
  exact if_neg Bool.false_ne_true

theorem createFile_of_error {cause : IoCause} (happroach : v.approach path = .error cause) :
    v.createFile path content = (v, .error cause) := by
  have harrive : v.arrive path = .error cause := by
    rw [arrive_eq, happroach]
    intro l hplace
    obtain ⟨dir, name, slash, hfound, _⟩ := place?_eq_some_iff.mp hplace
    exact nomatch happroach.symm.trans hfound
  rw [createFile, harrive]

/-! ## Removing and moving a file -/

theorem removeFile_of_approach {dir : Location} {name : String}
    (happroach : v.approach path = .ok (dir, .name name false)) :
    v.removeFile path =
      match v.lookup (dir ++ [name]) with
      | none => .error (.os .notFound)
      | some .directory => .error (.os .isDirectory)
      | some _ => v.unlessRefused (.remove (dir ++ [name])) (v.erase (dir ++ [name])) := by
  rw [removeFile, happroach]
  rfl

/-- A file is removed, unless the volume refuses that or there is none. -/
theorem discard_cases {dir : Location} {name : String}
    (happroach : v.approach path = .ok (dir, .name name false)) :
    v.lookup (dir ++ [name]) ≠ some .directory ∧
        Rooted.discard v path = v.erase (dir ++ [name]) ∨
      Rooted.discard v path = v ∧ (v.lookup (dir ++ [name]) = none ∨
        v.lookup (dir ++ [name]) = some .directory ∨
        v.refusal (.remove (dir ++ [name])) ≠ none) := by
  have hremove : FileSystem.removeFile v path = _ := removeFile_of_approach happroach
  unfold Rooted.discard
  rw [hremove]
  cases hnode : v.lookup (dir ++ [name]) with
  | none => exact .inr ⟨rfl, .inl rfl⟩
  | some node =>
    cases node with
    | directory => exact .inr ⟨rfl, .inr (.inl rfl)⟩
    | file number =>
      dsimp only [unlessRefused]
      cases hrefusal : v.refusal (.remove (dir ++ [name])) with
      | none => exact .inl ⟨by simp, rfl⟩
      | some e => exact .inr ⟨rfl, .inr (.inr (Option.some_ne_none e))⟩
    | link target =>
      dsimp only [unlessRefused]
      cases hrefusal : v.refusal (.remove (dir ++ [name])) with
      | none => exact .inl ⟨by simp, rfl⟩
      | some e => exact .inr ⟨rfl, .inr (.inr (Option.some_ne_none e))⟩

/-- What cannot be approached is not removed. -/
theorem discard_of_error {cause : IoCause} (h : v.approach path = .error cause) :
    Rooted.discard v path = v := by
  have hremove : FileSystem.removeFile v path = .error cause := by
    change v.removeFile path = _
    rw [removeFile, h]
    rfl
  unfold Rooted.discard
  rw [hremove]

/-- A file that was moved has a new name, and the old one is gone, unless both names already stood
for it. -/
theorem renameAt_eq_ok {source target : Location} {slash : Bool}
    (h : v.renameAt source target slash = .ok w) :
    slash = false ∧ v.lookup target ≠ some .directory ∧
      (v.sameFile source target = true ∨
        ∃ node, v.lookup source = some node ∧ w = (v.erase source).put target node) := by
  unfold renameAt at h
  split at h
  · exact nomatch h
  · exact nomatch h
  · next node _ hnode =>
    split_ifs at h with hslash hdirectory hsame
    · exact ⟨by simpa using hslash, hdirectory, .inl hsame⟩
    · exact ⟨by simpa using hslash, hdirectory, .inr ⟨node, hnode, (eq_ok_of_unlessRefused h).symm⟩⟩

theorem rename_eq_ok {source target : String} (h : v.rename source target = .ok w) :
    ∃ sourceDir sourceName sourceSlash targetDir targetName slash,
      v.approach source = .ok (sourceDir, .name sourceName sourceSlash) ∧
      v.approach target = .ok (targetDir, .name targetName slash) ∧
      v.renameAt (sourceDir ++ [sourceName]) (targetDir ++ [targetName]) slash = .ok w := by
  obtain ⟨⟨sourceDir, sourceLast⟩, hsource, h⟩ := bind_eq_ok h
  obtain ⟨⟨targetDir, targetLast⟩, htarget, h⟩ := bind_eq_ok h
  cases sourceLast with
  | known l => exact nomatch h
  | name sourceName sourceSlash =>
    cases targetLast with
    | known l => exact nomatch h
    | name targetName slash =>
      exact ⟨sourceDir, sourceName, sourceSlash, targetDir, targetName, slash, hsource, htarget, h⟩

theorem sameFile_eq_true_iff {a b : Location} :
    v.sameFile a b = true ↔
      a = b ∨ ∃ n, v.lookup a = some (.file n) ∧ v.lookup b = some (.file n) := by
  unfold sameFile
  rw [Bool.or_eq_true, beq_iff_eq]
  refine or_congr_right ?_
  cases v.lookup a with
  | none => simp
  | some node =>
    cases node with
    | directory => simp
    | link target => simp
    | file m =>
      cases v.lookup b with
      | none => simp
      | some other =>
        cases other with
        | directory => simp
        | link target => simp
        | file n => simpa using eq_comm

namespace Written

variable {source target : Location}

/-- A file is moved for good, unless the target is another name of it. -/
theorem eq_of_renameAt {slash : Bool} {moved : Volume} (h : Written source number v w)
    (hne : source ≠ target) (htwin : ¬v.Twin source target)
    (hmoved : w.renameAt source target slash = .ok moved) :
    moved = (w.erase source).put target (.file number) := by
  have hnode : w.lookup source = some (.file number) := by
    rw [h.lookup, if_pos rfl]
  have hown : w.lookup target ≠ some (.file number) := by
    rw [h.lookup, if_neg hne.symm]
    exact h.lookup_ne hne.symm htwin
  obtain ⟨_, _, hsame | ⟨node, hsource, rfl⟩⟩ := renameAt_eq_ok hmoved
  · rcases sameFile_eq_true_iff.mp hsame with heq | ⟨n, hsource, htarget⟩
    · exact absurd heq hne
    · rw [hnode] at hsource
      exact absurd (htarget.trans hsource.symm) hown
  · rw [Option.some.inj (hsource.symm.trans hnode)]

variable (hsource : source ≠ []) (htarget : target ≠ [])
include hsource htarget

theorem lookup_moved (h : Written source number v w) (l : Location) :
    ((w.erase source).put target (.file number)).lookup l =
      if l = target then some (.file number) else if l = source then none else v.lookup l := by
  rw [lookup_put htarget, lookup_erase hsource, h.lookup]
  split_ifs <;> rfl

/-- A file that was moved is seen in its new place and not in the old one. -/
theorem seen_moved (h : Written source number v w) (htwin : ¬v.Twin source l) :
    ((w.erase source).put target (.file number)).seen l =
      if l = target then some (.file (w.contents number))
      else if l = source then none else v.seen l := by
  unfold Volume.seen
  rw [h.lookup_moved hsource htarget]
  split_ifs with hplace hbeside
  · rfl
  · rfl
  · cases hnode : v.lookup l with
    | none => rfl
    | some node => exact congrArg some (h.look hbeside htwin hnode)

/-- A way that does not lead through the new place leads where it led. -/
theorem leads_moved (h : Written source number v w) :
    Leads (v.erase target) ((w.erase source).put target (.file number)) := by
  have hlookup := h.lookup_moved hsource htarget
  refine leads_of_bare h.here h.refusal fun l => ?_
  by_cases hplace : l = target
  · exact .inr ⟨bare_of_none (by rw [lookup_erase htarget, if_pos hplace]),
      bare_of_file (by rw [hlookup, if_pos hplace])⟩
  by_cases hbeside : l = source
  · have hkept : (v.erase target).lookup l = v.lookup l := by
      rw [lookup_erase htarget, if_neg hplace]
    exact .inr ⟨(hbeside ▸ h.bare).congr hkept,
      bare_of_none (by rw [hlookup, if_neg hplace, if_pos hbeside])⟩
  · exact .inl (by rw [hlookup, lookup_erase htarget, if_neg hplace, if_neg hbeside, if_neg hplace])

end Written

/-! ## The temporary file -/

/-- The path of a temporary file leads to a name. -/
theorem name_of_approach_temporary {result : Location × Last}
    (h : v.approach (temporary file) = .ok result) :
    ∃ name, result.2 = .name name false := by
  obtain ⟨before, last, _, htemporary, hcounts, hup⟩ := Store.Directory.parts_temporary file
  have hne : last ++ ".tmp" ≠ "" := Path.ne_empty_of_counts hcounts
  have hdot : last ++ ".tmp" ≠ "." := by
    intro hdot
    rw [hdot] at hcounts
    exact nomatch hcounts
  have hnamed : named (temporary file) = before.filter (· != "") ++ [last ++ ".tmp"] := by
    rw [named, htemporary, List.filter_append, List.filter_cons_of_pos (by simp [hne]),
      List.filter_nil]
  have hslash : endsInSlash (temporary file) = false := by
    simp [endsInSlash, htemporary, hne]
  obtain ⟨_, hway⟩ := resolve_of_locate h
  rw [hnamed] at hway
  rcases resolve_concat hway with ⟨_, hfound, _⟩ | ⟨hpart, _⟩
  · exact ⟨_, hslash ▸ hfound⟩
  · exact absurd hpart (by simp [hdot, hup])

/-- The temporary file of a file that is named without a slash behind it lies in the directory of
the file, under another name. -/
theorem temporary_beside {dir dir' : Location} {name name' : String} {slash : Bool}
    (hfile : v.approach file = .ok (dir, .name name false))
    (htemporary : v.approach (temporary file) = .ok (dir', .name name' slash)) :
    dir' = dir ∧ name' ≠ name := by
  obtain ⟨before, last, hparts, htemporaryParts, hcounts, _⟩ :=
    Store.Directory.parts_temporary file
  obtain ⟨fileBefore, _, hfileNamed, hdot, hup, hslash, _⟩ := reaches_of_approach hfile
  obtain ⟨temporaryBefore, left, htemporaryNamed, _, _, _, hreaches⟩ :=
    reaches_of_approach htemporary
  have hlast : last ≠ "" := by
    rintro rfl
    simp [endsInSlash, hparts] at hslash
  have hfileEq : before.filter (· != "") ++ [last] = fileBefore ++ [name] := by
    rw [← hfileNamed, named, hparts, List.filter_append,
      List.filter_cons_of_pos (by simpa using hlast), List.filter_nil]
  have htemporaryEq :
      before.filter (· != "") ++ [last ++ ".tmp"] = temporaryBefore ++ [name'] := by
    rw [← htemporaryNamed, named, htemporaryParts, List.filter_append,
      List.filter_cons_of_pos (by simp), List.filter_nil]
  obtain ⟨rfl, hname⟩ := List.append_inj' hfileEq rfl
  obtain ⟨rfl, hname'⟩ := List.append_inj' htemporaryEq rfl
  constructor
  · -- both names are looked for where the parts before them lead
    have hway := (resolve_of_locate hfile).2
    rw [hfileNamed, ← Store.Directory.start_temporary,
      hreaches false _ _ (List.cons_ne_nil _ _)] at hway
    rcases resolve_singleton hway with ⟨_, hfound⟩ | ⟨hpart, _⟩
    · exact (Prod.mk.inj hfound).1.symm
    · exact absurd hpart (by simp [hdot, hup])
  · intro hsame
    have hlength : (last ++ ".tmp").length = last.length := by
      rw [List.singleton_inj.mp hname', List.singleton_inj.mp hname, hsame]
    rw [String.length_append] at hlength
    exact absurd hlength (by simp)

/-! ## The four ends -/

/-- How the writing of a file ends, once the directories above it have been made: what is seen
then, and whether it has succeeded. Other names of the temporary file are left out. A text that has
been written can be read, unless the volume refuses that, if the path of the file does not lead
through a link that the file has replaced. -/
inductive Ending (made : Volume) (file text : String) : Volume → Except Error Unit → Prop where
  | refused (e : Error) : Ending made file text made (.error e)
  | discarded {after : Volume} {beside : Location} (e : Error)
      (hbeside : made.place? (temporary file) = some beside)
      (hdirectory : made.lookup beside ≠ some .directory)
      (hafter : ∀ l, ¬made.Twin beside l →
        after.seen l = if l = beside then none else made.seen l) :
      Ending made file text after (.error e)
  | leftBehind {after : Volume} {beside : Location} (e : Error)
      (hbeside : made.place? (temporary file) = some beside)
      (hrefusal : made.refusal (.remove beside) ≠ none)
      (hafter : ∀ l, l ≠ beside → ¬made.Twin beside l → after.seen l = made.seen l) :
      Ending made file text after (.error e)
  | replaced {after : Volume} {place beside : Location}
      (hplace : made.place? file = some place)
      (hdirectory : made.lookup place ≠ some .directory)
      (hbeside : made.place? (temporary file) = some beside)
      (hafter : ∀ l, ¬made.Twin beside l → after.seen l =
        if l = place then some (.file text.toUTF8) else if l = beside then none else made.seen l)
      (hne : beside ≠ place)
      (hread : (made.erase place).place? file = some place → made.refusal (.read place) = none →
        after.readText file = .ok text) :
      Ending made file text after (.ok ())

theorem seen_erase (h : location ≠ []) (l : Location) :
    (v.erase location).seen l = if l = location then none else v.seen l := by
  unfold seen
  rw [lookup_erase h]
  split_ifs
  · rfl
  · rfl

variable {made moved : Volume} {dir : Location} {name : String}

/-- Where the temporary file could not be opened, one that was there is removed. -/
theorem discard_ending (e : Error) :
    Ending made file text (Rooted.discard made (temporary file)) (.error e) := by
  cases happroach : made.approach (temporary file) with
  | error cause =>
    rw [discard_of_error happroach]
    exact .refused e
  | ok result =>
    obtain ⟨name, hname⟩ := name_of_approach_temporary happroach
    obtain ⟨dir, last⟩ := result
    obtain rfl : last = .name name false := hname
    rcases discard_cases happroach with ⟨hdirectory, hgone⟩ | ⟨hsame, _⟩
    · rw [hgone]
      exact .discarded e (place?_of_approach happroach) hdirectory fun l _ => seen_erase (by simp) l
    · rw [hsame]
      exact .refused e

/-- A temporary file that was written is removed, unless the volume refuses that. -/
theorem Written.discard_ending (h : Written (dir ++ [name]) number made w)
    (happroach : made.approach (temporary file) = .ok (dir, .name name false)) (e : Error) :
    Ending made file text (Rooted.discard w (temporary file)) (.error e) := by
  have hbeside := place?_of_approach happroach
  rcases discard_cases (h.leads.locate happroach) with ⟨_, hgone⟩ | ⟨hsame, hwhy⟩
  · rw [hgone]
    refine .discarded e hbeside h.bare.not_directory fun l htwin => ?_
    rw [seen_erase (by simp)]
    split_ifs with hl
    · rfl
    · exact h.seen hl htwin
  · rw [hsame]
    refine .leftBehind e hbeside ?_ fun l hl htwin => h.seen hl htwin
    rw [h.lookup, if_pos rfl, h.refusal] at hwhy
    rcases hwhy with hnone | hdirectory | hrefusal
    · exact nomatch hnone
    · exact nomatch hdirectory
    · exact hrefusal

/-- A text that is in the place of its file is read, if the path leads there and the volume lets
it be read. -/
theorem readText_of_lookup (happroach : v.approach file = .ok (dir, .name name false))
    (hnode : v.lookup (dir ++ [name]) = some (.file number))
    (hcontents : v.contents number = text.toUTF8)
    (hrefusal : v.refusal (.read (dir ++ [name])) = none) : v.readText file = .ok text := by
  have harrive : v.arrive file = .ok (dir, .name name false) := by
    rw [arrive_eq, happroach]
    intro l hplace
    rw [place?_of_approach happroach] at hplace
    rw [← Option.some.inj hplace]
    exact (bare_of_file hnode).not_link
  have hread : v.readFile file = .ok text.toUTF8 := by
    rw [readFile, harrive]
    simp [bind, Except.bind, hnode, unlessRefused, hrefusal, hcontents]
  have hspelled : String.fromUTF8? text.toUTF8 = some text :=
    FileTree.fromUTF8?_eq_some_iff.mpr rfl
  rw [readText, hread]
  dsimp only [bind, Except.bind]
  rw [hspelled]
  rfl

/-- A temporary file that was written and moved is the file. -/
theorem Written.rename_ending (h : Written (dir ++ [name]) number made w)
    (hcontents : w.contents number = text.toUTF8)
    (happroach : made.approach (temporary file) = .ok (dir, .name name false))
    (htwin : ∀ place, made.place? file = some place → ¬made.Twin (dir ++ [name]) place)
    (hmoved : w.rename (temporary file) file = .ok moved) :
    Ending made file text moved (.ok ()) := by
  obtain ⟨sourceDir, sourceName, _, targetDir, targetName, slash, hsource, htarget, hmoved⟩ :=
    rename_eq_ok hmoved
  -- the temporary file that is moved is the one that was written
  have hsame := (h.leads.locate happroach).symm.trans hsource
  simp only [Except.ok.injEq, Prod.mk.injEq, FileTree.Last.name.injEq] at hsame
  obtain ⟨rfl, rfl, rfl⟩ := hsame
  obtain ⟨rfl, hdirectory, _⟩ := renameAt_eq_ok hmoved
  obtain ⟨rfl, hname⟩ := temporary_beside htarget hsource
  have hne : dir ++ [name] ≠ dir ++ [targetName] := by
    intro heq
    exact hname (List.singleton_inj.mp (List.append_cancel_left heq))
  have hplace := h.leads_back.place? (place?_of_approach htarget)
  obtain rfl := h.eq_of_renameAt hne (htwin _ hplace) hmoved
  rw [h.lookup, if_neg hne.symm] at hdirectory
  refine .replaced hplace hdirectory (place?_of_approach happroach) (fun l hl => ?_) hne
    fun hway hrefusal => ?_
  · rw [h.seen_moved (by simp) (by simp) hl, hcontents]
  · have hleads := h.leads_moved (by simp) (by simp : dir ++ [targetName] ≠ [])
    obtain ⟨wayDir, wayName, slash, hway, hlast⟩ :=
      place?_eq_some_iff.mp (hleads.place? hway)
    obtain ⟨rfl, hname⟩ := List.append_inj' hlast rfl
    obtain rfl := List.singleton_inj.mp hname
    obtain ⟨_, _, _, _, _, rfl, _⟩ := reaches_of_approach hway
    obtain ⟨_, _, _, _, _, hslash, _⟩ := reaches_of_approach htarget
    rw [← hslash] at hway
    refine readText_of_lookup hway ?_ hcontents ((congrFun h.refusal _).trans hrefusal)
    rw [lookup_put (by simp), if_pos rfl]

/-! ## All writes -/

/-- The temporary file of a file is no symbolic link, and shares nothing with what is in the place
of the file. -/
def Apart (v : Volume) (file : String) : Prop :=
  ∀ beside, v.place? (temporary file) = some beside →
    v.link? beside = none ∧
      ∀ place l, v.location? file = some place → place <+: l → ¬v.Twin beside l

section

variable (hapart : made.Apart file)
include hapart

/-- The temporary file is written to, at least in part, or nothing happens. -/
theorem createFile_temporary (content : ByteArray) :
    (∃ cause, FileSystem.createFile made (temporary file) content = (made, .error cause)) ∨
      ∃ dir name number w, made.approach (temporary file) = .ok (dir, .name name false) ∧
        Written (dir ++ [name]) number made w ∧
        (FileSystem.createFile made (temporary file) content = (w, .ok ()) ∧
            w.contents number = content ∨
          ∃ cause, FileSystem.createFile made (temporary file) content = (w, .error cause)) := by
  cases happroach : made.approach (temporary file) with
  | error cause => exact .inl ⟨cause, createFile_of_error happroach⟩
  | ok result =>
    obtain ⟨name, hname⟩ := name_of_approach_temporary happroach
    obtain ⟨dir, last⟩ := result
    obtain rfl : last = .name name false := hname
    have hlink := (hapart _ (place?_of_approach happroach)).1
    have hcreate : FileSystem.createFile made (temporary file) content =
        made.createAt (dir ++ [name]) content := createFile_of_approach happroach hlink content
    rw [hcreate]
    refine (createAt_cases (by simp) content).imp_right ?_
    rintro ⟨number, w, hwritten, hcases⟩
    exact ⟨dir, name, number, w, rfl, hwritten, hcases⟩

/-- Replacing a file does nothing, or it writes the temporary file and stops there, or it moves that
file in the end. -/
theorem replaceFile_cases (text : String) :
    (∃ e, replaceFile made file text = (made, .error e)) ∨
      ∃ dir name number w, made.approach (temporary file) = .ok (dir, .name name false) ∧
        Written (dir ++ [name]) number made w ∧
        ((∃ e, replaceFile made file text = (w, .error e)) ∨
          ∃ moved, replaceFile made file text = (moved, .ok ()) ∧
            w.contents number = text.toUTF8 ∧ w.rename (temporary file) file = .ok moved) := by
  unfold replaceFile
  rcases createFile_temporary hapart text.toUTF8 with
    ⟨cause, hcreate⟩ | ⟨dir, name, number, w, happroach, hwritten, ⟨hcreate, hcontents⟩ |
      ⟨cause, hcreate⟩⟩
  · rw [hcreate]
    exact .inl ⟨_, rfl⟩
  · rw [hcreate]
    refine .inr ⟨dir, name, number, w, happroach, hwritten, ?_⟩
    dsimp only
    cases hmoved : FileSystem.rename w (temporary file) file with
    | error cause => exact .inl ⟨_, rfl⟩
    | ok moved => exact .inr ⟨moved, rfl, hcontents, hmoved⟩
  · rw [hcreate]
    exact .inr ⟨dir, name, number, w, happroach, hwritten, .inl ⟨_, rfl⟩⟩

end

/-- Every write ends in one of the four ways, once the directories of the document have been
made. -/
theorem write_ending (store : Rooted Volume) (path text : String)
    (hapart : (prepare store.tree (store.resolve path)).1.Apart (store.resolve path)) :
    Ending (prepare store.tree (store.resolve path)).1 (store.resolve path) text
      (store.write path text).1.tree (store.write path text).2 := by
  unfold Rooted.write
  dsimp only
  split
  case h_1 made e hmade =>
    rw [hmade]
    exact .refused e
  case h_2 prepared hprepared =>
    rw [hprepared] at hapart ⊢
    rcases replaceFile_cases hapart text with
      ⟨e, hreplace⟩ | ⟨dir, name, number, w, happroach, hwritten, ⟨e, hreplace⟩ |
        ⟨moved, hreplace, hcontents, hmoved⟩⟩
    · rw [hreplace]
      exact discard_ending e
    · rw [hreplace]
      exact hwritten.discard_ending happroach e
    · rw [hreplace]
      refine hwritten.rename_ending hcontents happroach (fun place hplace => ?_) hmoved
      exact (hapart _ (place?_of_approach happroach)).2 place place (location?_of_place? hplace)
        (List.prefix_refl _)

end ArchDoc.Volume
