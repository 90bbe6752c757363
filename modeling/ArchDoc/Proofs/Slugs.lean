import ArchDoc.Identifier
import Mathlib.Data.List.Chain
import Mathlib.Data.List.Induction
import Mathlib.Tactic.SplitIfs

/-!
# The form of slugs

A slug is written character by character, and every character of the name leaves what is written in
form: no hyphen leads and none follows another one. Only separators leave a hyphen at the end, so
whether the slug ends in one, and whether it is empty, can be read off the name.

An identifier that joins a tag to a slug with a hyphen keeps the form only if the slug does not end
in one.

Main definitions:

* `Hyphenated`: no hyphen leads, and none follows another one.
* `WellFormed`: an identifier in this form that is not empty.
* `hasContent`, `endsInContent`: a name that is not all separators, and one that does not end in
  one.

Results:

* `slugChars_concat`: what one more character of a name writes.
* `hyphenated_slugChars`: the form of all slugs.
* `slugChars_eq_nil_iff`, `getLast?_slugChars`: when a slug is empty, and when a hyphen is its end.
* `wellFormed_slug_iff`, `wellFormed_tagged_iff`: which identifiers are well-formed.
-/

namespace ArchDoc.Identifier

open Text

/-! ## Characters -/

/-- The code points of separators. -/
theorem toNat_of_isSeparator {c : Char} (h : isSeparator c = true) :
    c.toNat = 0x20 ∨ c.toNat = 0x5f ∨ c.toNat = 0x2d := by
  simp only [isSeparator, Bool.or_eq_true, beq_iff_eq] at h
  rcases h with (rfl | rfl) | rfl <;> decide

theorem isSeparator_eq_false {c : Char} (h : c.toNat = 0 ∨ 0x61 ≤ c.toNat) :
    isSeparator c = false := by
  rw [Bool.eq_false_iff]
  intro hseparator
  have := toNat_of_isSeparator hseparator
  omega

theorem ne_hyphen_of_isSeparator {c : Char} (h : isSeparator c = false) : c ≠ '-' := by
  rintro rfl
  exact absurd h (by decide)

/-- No separator is a capital. -/
theorem isSeparator_of_isCapital {c : Char} (h : isCapital c = true) : isSeparator c = false := by
  rw [Bool.eq_false_iff]
  intro hseparator
  simp only [isSeparator, Bool.or_eq_true, beq_iff_eq] at hseparator
  rcases hseparator with (rfl | rfl) | rfl <;> exact absurd h (by decide +kernel)

/-- The lower case of every capital of the table is behind the ASCII capitals. -/
theorem le_shift_of_mem_capitalRuns :
    ∀ r ∈ capitalRuns, (0x61 : Int) ≤ r.first + r.shift := by
  decide +kernel

/-- What the lower case of a character can be. -/
theorem lowercase_cases (c : Char) :
    lowercase c = ['i', '\u0307'] ∨
      (∃ r ∈ capitalRuns, r.covers c.toNat = true ∧
        lowercase c = [Char.ofNat (c.toNat + r.shift).toNat]) ∨
      lowercase c = [c] := by
  unfold lowercase
  split_ifs with hdotted
  · exact .inl rfl
  · cases hfind : capitalRuns.find? (·.covers c.toNat) with
    | none => exact .inr (.inr rfl)
    | some r =>
      have hcovers := List.find?_some hfind
      exact .inr (.inl ⟨r, List.mem_of_find?_eq_some hfind, hcovers, rfl⟩)

/-- A number that is no code point stands for the one of code point 0. -/
theorem toNat_ofNat_eq_or (n : Nat) : (Char.ofNat n).toNat = n ∨ Char.ofNat n = '\x00' := by
  by_cases hvalid : n.isValidChar
  · rw [Char.ofNat, dif_pos hvalid]
    exact .inl rfl
  · rw [Char.ofNat, dif_neg hvalid]
    exact .inr rfl

/-- The lower case of a capital holds no separator. -/
theorem isSeparator_of_mem_lowercase {c d : Char} (hc : isCapital c = true)
    (hd : d ∈ lowercase c) : isSeparator d = false := by
  rcases lowercase_cases c with h | ⟨r, hr, hcovers, h⟩ | h
  · rw [h] at hd
    rcases List.mem_pair.mp hd with rfl | rfl <;> decide
  · rw [h] at hd
    rw [List.mem_singleton.mp hd]
    have hfirst : r.first ≤ c.toNat := by
      simp only [CapitalRun.covers, Bool.and_eq_true, decide_eq_true_eq] at hcovers
      exact hcovers.1.1
    have hshift := le_shift_of_mem_capitalRuns r hr
    rcases toNat_ofNat_eq_or (c.toNat + r.shift).toNat with hcode | hzero
    · refine isSeparator_eq_false (.inr ?_)
      rw [hcode]
      omega
    · rw [hzero]
      exact isSeparator_eq_false (.inl rfl)
  · rw [h] at hd
    rw [List.mem_singleton.mp hd]
    exact isSeparator_of_isCapital hc

theorem lowercase_ne_nil (c : Char) : lowercase c ≠ [] := by
  rcases lowercase_cases c with h | ⟨r, _, _, h⟩ | h <;> rw [h] <;> exact List.cons_ne_nil _ _

/-! ## One more character -/

/-- What is written, first character first, after the word in progress has ended. -/
def endWord (written : List Char) : List Char :=
  if written = [] ∨ written.getLast? = some '-' then written else written ++ ['-']

theorem reverse_separate (written : List Char) :
    (separate written).reverse = endWord written.reverse := by
  cases written with
  | nil => rfl
  | cons c written =>
    unfold separate endWord
    by_cases hc : c = '-' <;> simp [hc]

/-- What one more character of a name writes. -/
theorem slugChars_concat (name : List Char) (c : Char) :
    slugChars (name ++ [c]) =
      if isCapital c then endWord (slugChars name) ++ lowercase c
      else if isSeparator c then endWord (slugChars name)
      else slugChars name ++ [c] := by
  unfold slugChars
  rw [List.foldl_append, List.foldl_cons, List.foldl_nil, slugStep]
  split_ifs
  · rw [List.reverse_append, List.reverse_reverse, reverse_separate]
  · exact reverse_separate _
  · exact List.reverse_cons

theorem endWord_eq_nil_iff {written : List Char} : endWord written = [] ↔ written = [] := by
  unfold endWord
  split_ifs with h
  · rfl
  · simp [(not_or.mp h).1]

theorem getLast?_endWord {written : List Char} :
    (endWord written).getLast? = some '-' ↔ written ≠ [] := by
  unfold endWord
  by_cases hnil : written = []
  · simp [hnil]
  · by_cases hlast : written.getLast? = some '-' <;> simp [hnil, hlast]

/-! ## The form -/

/-- No hyphen leads, and none follows another one. -/
structure Hyphenated (cs : List Char) : Prop where
  head : cs.head? ≠ some '-'
  chain : cs.IsChain fun a b => ¬(a = '-' ∧ b = '-')

theorem hyphenated_nil : Hyphenated [] :=
  ⟨nofun, List.isChain_nil⟩

/-- Characters that are no hyphens may follow. -/
theorem Hyphenated.append {cs ds : List Char} (h : Hyphenated cs) (hds : ∀ d ∈ ds, d ≠ '-') :
    Hyphenated (cs ++ ds) where
  head := by
    rw [List.head?_append]
    cases hcs : cs.head? with
    | some c =>
      rw [Option.some_or, ← hcs]
      exact h.head
    | none => exact fun hd => hds _ (List.mem_of_mem_head? hd) rfl
  chain := by
    refine h.chain.append ?_ fun a _ b hb hboth => hds b (List.mem_of_mem_head? hb) hboth.2
    exact List.isChain_iff_getElem.mpr fun i hi hboth => hds _ (List.getElem_mem _) hboth.2

/-- One hyphen may follow where a word ends. -/
theorem Hyphenated.endWord {cs : List Char} (h : Hyphenated cs) : Hyphenated (endWord cs) := by
  unfold Identifier.endWord
  split_ifs with hlast
  · exact h
  · obtain ⟨hnil, hlast⟩ := not_or.mp hlast
    constructor
    · rw [List.head?_append_of_ne_nil _ hnil]
      exact h.head
    · refine h.chain.append (List.isChain_singleton _) fun a ha b _ hboth => hlast ?_
      rw [← hboth.1]
      exact ha

/-- Every slug is in form, whatever the name. -/
theorem hyphenated_slugChars (name : List Char) : Hyphenated (slugChars name) := by
  induction name using List.reverseRecOn with
  | nil => exact hyphenated_nil
  | append_singleton name c ih =>
    rw [slugChars_concat]
    split_ifs with hcapital hseparator
    · exact ih.endWord.append fun d hd =>
        ne_hyphen_of_isSeparator (isSeparator_of_mem_lowercase hcapital hd)
    · exact ih.endWord
    · refine ih.append fun d hd => ?_
      rw [List.mem_singleton.mp hd]
      exact ne_hyphen_of_isSeparator (by simpa using hseparator)

/-- A slug is empty when its name is all separators. -/
theorem slugChars_eq_nil_iff {name : List Char} :
    slugChars name = [] ↔ ∀ c ∈ name, isSeparator c = true := by
  induction name using List.reverseRecOn with
  | nil => exact iff_of_true rfl fun _ h => absurd h List.not_mem_nil
  | append_singleton name c ih =>
    rw [slugChars_concat]
    split_ifs with hcapital hseparator
    · simp [lowercase_ne_nil, isSeparator_of_isCapital hcapital]
    · rw [endWord_eq_nil_iff, ih]
      simp [or_imp, forall_and, hseparator]
    · simp [or_imp, forall_and, hseparator]

/-- A slug that is not empty ends in a hyphen when its name ends in a separator. -/
theorem getLast?_slugChars {name : List Char} :
    (slugChars name).getLast? = some '-' ↔
      slugChars name ≠ [] ∧ name.getLast?.any isSeparator = true := by
  induction name using List.reverseRecOn with
  | nil => exact iff_of_false nofun fun h => h.1 rfl
  | append_singleton name c _ =>
    rw [slugChars_concat, List.getLast?_concat, Option.any_some]
    split_ifs with hcapital hseparator
    · refine iff_of_false ?_ fun h => ?_
      · rw [List.getLast?_append_of_ne_nil _ (lowercase_ne_nil c)]
        exact fun hlast => ne_hyphen_of_isSeparator
          (isSeparator_of_mem_lowercase hcapital (List.mem_of_mem_getLast? hlast)) rfl
      · exact absurd h.2 (by simp [isSeparator_of_isCapital hcapital])
    · rw [getLast?_endWord, ne_eq (endWord _), endWord_eq_nil_iff]
      exact (and_iff_left hseparator).symm
    · rw [List.getLast?_concat]
      refine iff_of_false ?_ fun h => hseparator h.2
      exact fun hlast =>
        ne_hyphen_of_isSeparator (by simpa using hseparator) (Option.some.inj hlast)

/-! ## Identifiers -/

/-- An identifier that is not empty, has no hyphen in front and no two hyphens in a row. -/
structure WellFormed (id : String) : Prop where
  nonempty : id ≠ ""
  hyphenated : Hyphenated id.toList

instance (cs : List Char) : Decidable (Hyphenated cs) :=
  decidable_of_iff (cs.head? ≠ some '-' ∧ cs.IsChain fun a b => ¬(a = '-' ∧ b = '-'))
    ⟨fun h => ⟨h.1, h.2⟩, fun h => ⟨h.head, h.chain⟩⟩

instance (id : String) : Decidable (WellFormed id) :=
  decidable_of_iff (id ≠ "" ∧ Hyphenated id.toList)
    ⟨fun h => ⟨h.1, h.2⟩, fun h => ⟨h.nonempty, h.hyphenated⟩⟩

/-- Whether some character of a name is no separator. -/
def hasContent (name : String) : Bool :=
  name.toList.any (!isSeparator ·)

/-- Whether the last character of a name is no separator. -/
def endsInContent (name : String) : Bool :=
  name.toList.getLast?.any (!isSeparator ·)

theorem slugChars_ne_nil_iff {name : String} :
    slugChars name.toList ≠ [] ↔ hasContent name = true := by
  rw [ne_eq, slugChars_eq_nil_iff, hasContent, List.any_eq_true]
  simp

theorem hasContent_of_endsInContent {name : String} (h : endsInContent name = true) :
    hasContent name = true := by
  obtain ⟨c, hlast, hcontent⟩ := (Option.any_eq_true _ _).mp h
  exact List.any_eq_true.mpr ⟨c, List.mem_of_mem_getLast? hlast, hcontent⟩

/-- A slug that is not empty has its last hyphen before its last word if the name ends in
content. -/
theorem endsInContent_iff {name : String} :
    endsInContent name = true ↔
      slugChars name.toList ≠ [] ∧ (slugChars name.toList).getLast? ≠ some '-' := by
  rw [ne_eq ((slugChars _).getLast?), getLast?_slugChars]
  constructor
  · intro h
    refine ⟨slugChars_ne_nil_iff.mpr (hasContent_of_endsInContent h), fun hlast => ?_⟩
    obtain ⟨c, hc, hcontent⟩ := (Option.any_eq_true _ _).mp h
    obtain ⟨d, hd, hseparator⟩ := (Option.any_eq_true _ _).mp hlast.2
    obtain rfl := Option.some.inj (hc.symm.trans hd)
    exact absurd hseparator (by simpa using hcontent)
  · rintro ⟨hnil, hlast⟩
    cases hend : name.toList.getLast? with
    | none =>
      rw [List.getLast?_eq_none_iff.mp hend] at hnil
      exact absurd rfl hnil
    | some c =>
      have hcontent : ¬isSeparator c = true := fun h => hlast ⟨hnil, by rw [hend]; exact h⟩
      simpa [endsInContent, hend] using hcontent

/-- The slug of a name is well-formed when the name has content. -/
theorem wellFormed_slug_iff {name : String} :
    WellFormed (slug name) ↔ hasContent name = true := by
  rw [← slugChars_ne_nil_iff]
  have htext : (slug name).toList = slugChars name.toList := String.toList_ofList
  constructor
  · intro h hnil
    refine h.nonempty (String.toList_inj.mp ?_)
    rw [htext, hnil]
    rfl
  · intro h
    refine ⟨fun hempty => h ?_, htext ▸ hyphenated_slugChars _⟩
    rw [← htext, hempty]
    rfl

/-- A tag may follow behind a hyphen where there is a word to end. -/
theorem hyphenated_append_hyphen {cs tag : List Char} (hcs : Hyphenated cs)
    (htag : Hyphenated tag) :
    Hyphenated (cs ++ '-' :: tag) ↔ cs ≠ [] ∧ cs.getLast? ≠ some '-' := by
  have hchain : ('-' :: tag).IsChain fun a b => ¬(a = '-' ∧ b = '-') :=
    htag.chain.cons fun b hb hboth => htag.head (by rw [← hboth.2]; exact hb)
  constructor
  · intro h
    refine ⟨?_, ?_⟩
    · rintro rfl
      exact h.head rfl
    · intro hlast
      exact (List.isChain_append.mp h.chain).2.2 '-' hlast '-' rfl ⟨rfl, rfl⟩
  · rintro ⟨hnil, hlast⟩
    constructor
    · rw [List.head?_append_of_ne_nil _ hnil]
      exact hcs.head
    · refine hcs.chain.append hchain fun a ha b _ hboth => hlast ?_
      rw [← hboth.1]
      exact ha

/-- An identifier with a tag behind a hyphen is well-formed when the name ends in content. -/
theorem wellFormed_tagged_iff {name suffix : String} {tag : List Char}
    (hsuffix : suffix.toList = '-' :: tag) (htag : Hyphenated tag) :
    WellFormed (slug name ++ suffix) ↔ endsInContent name = true := by
  have htext : (slug name ++ suffix).toList = slugChars name.toList ++ '-' :: tag := by
    rw [String.toList_append, hsuffix, slug, String.toList_ofList]
  have hform : WellFormed (slug name ++ suffix) ↔
      Hyphenated (slugChars name.toList ++ '-' :: tag) := by
    rw [← htext]
    refine ⟨fun h => h.hyphenated, fun h => ⟨fun hempty => ?_, h⟩⟩
    rw [hempty] at htext
    exact absurd htext.symm (List.append_ne_nil_of_right_ne_nil _ (List.cons_ne_nil _ _))
  rw [hform, hyphenated_append_hyphen (hyphenated_slugChars _) htag, endsInContent_iff]

end ArchDoc.Identifier
