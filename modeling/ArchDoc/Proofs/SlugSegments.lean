import ArchDoc.Proofs.StableSlugs
import Mathlib.Data.List.SplitBy

/-!
# The segments of a slug

A slug is written in one pass over the name, with a look back at what is written. What it writes
can be said without the pass: cut the name into segments, write their capitals in lower case, and
join them with hyphens. The proof reads the name from its end, together with characters behind it
that only continue the last segment.

Main definitions:

* `segments`: what stands between separators, cut before every capital.
* `joinSegments`: segments with a hyphen between each two, their capitals in lower case.
* `hyphenatedSegments`: the segments of a name joined, with one more hyphen if the name ends in a
  separator.

Results:

* `segments_append_separator`, `segments_append_capital`: where names are cut.
* `flatten_segments`: the segments hold what is no separator.
* `slugChars_append_eq`: the pass writes the hyphenated segments.
* `slug_eq_hyphenatedSegments`: the same of slugs, with what survives and when nothing does.
-/

namespace ArchDoc.Identifier

open Text

/-! ## Segments -/

/-- The segments of a name: what stands between separators, cut before every capital, where
something stands. -/
def segments (name : List Char) : List (List Char) :=
  ((name.splitOnP isSeparator).flatMap (List.splitBy fun _ c => !isCapital c)).filter (!·.isEmpty)

/-- Names are cut at separators. -/
theorem segments_append_separator {c : Char} (hc : isSeparator c = true) (x y : List Char) :
    segments (x ++ c :: y) = segments x ++ segments y := by
  unfold segments
  rw [List.splitOnP_append_cons x y hc, List.flatMap_append, List.filter_append]

/-- Without separators, names are only cut before capitals. -/
theorem segments_of_content {x : List Char} (h : ∀ c ∈ x, isSeparator c = false) :
    segments x = x.splitBy fun _ c => !isCapital c := by
  rw [segments, List.splitOnP_eq_singleton h, List.flatMap_singleton, List.filter_eq_self]
  intro segment hsegment
  simpa using List.ne_nil_of_mem_splitBy hsegment

/-- A name can be read as one whose last part has no separators. -/
theorem exists_last_part (x : List Char) :
    ∃ before last, (∀ c ∈ last, isSeparator c = false) ∧
      ∀ y, segments (x ++ y) = segments before ++ segments (last ++ y) := by
  induction x using List.reverseRecOn with
  | nil => exact ⟨[], [], List.forall_mem_nil _, fun y => rfl⟩
  | append_singleton x c ih =>
    by_cases hc : isSeparator c = true
    · refine ⟨x, [], List.forall_mem_nil _, fun y => ?_⟩
      rw [List.append_assoc, List.singleton_append, segments_append_separator hc, List.nil_append]
    · obtain ⟨before, last, hlast, hsegments⟩ := ih
      refine ⟨before, last ++ [c], ?_, fun y => ?_⟩
      · rw [List.forall_mem_append, List.forall_mem_singleton]
        exact ⟨hlast, by simpa using hc⟩
      · rw [List.append_assoc, List.append_assoc, hsegments]

/-- Verbatim characters continue a segment. -/
theorem segments_cons_verbatim {c : Char} {more : List Char} (hc : isSeparator c = false)
    (hmore : ∀ d ∈ more, Verbatim d) : segments (c :: more) = [c :: more] := by
  rw [segments_of_content (List.forall_mem_cons.mpr ⟨hc, fun d hd => (hmore d hd).2⟩)]
  refine List.splitBy_of_isChain (List.cons_ne_nil _ _) ?_
  induction more generalizing c with
  | nil => exact List.isChain_singleton c
  | cons d more ih =>
    obtain ⟨hd, hrest⟩ := List.forall_mem_cons.mp hmore
    exact List.isChain_cons_cons.mpr ⟨by simp [hd.1], ih hd.2 hrest⟩

/-- Names are cut before capitals. -/
theorem segments_append_capital {c : Char} (hc : isCapital c = true) (x : List Char)
    {more : List Char} (hmore : ∀ d ∈ more, Verbatim d) :
    segments (x ++ c :: more) = segments x ++ [c :: more] := by
  obtain ⟨before, last, hlast, hsegments⟩ := exists_last_part x
  have hseparator := isSeparator_of_isCapital hc
  have hcontent : ∀ d ∈ c :: more, isSeparator d = false :=
    List.forall_mem_cons.mpr ⟨hseparator, fun d hd => (hmore d hd).2⟩
  have hcut : segments (last ++ c :: more) = segments last ++ segments (c :: more) := by
    rw [segments_of_content (List.forall_mem_append.mpr ⟨hlast, hcontent⟩),
      segments_of_content hlast, segments_of_content hcontent]
    exact List.splitBy_append_cons more fun _ _ => by simp [hc]
  calc segments (x ++ c :: more)
      = segments before ++ (segments last ++ segments (c :: more)) := by rw [hsegments, hcut]
    _ = segments (x ++ []) ++ segments (c :: more) := by
        rw [hsegments [], List.append_nil, List.append_assoc]
    _ = segments x ++ [c :: more] := by
        rw [List.append_nil, segments_cons_verbatim hseparator hmore]

/-! ### What segments hold -/

theorem flatten_splitOnP {α : Type} (p : α → Bool) (as : List α) :
    (as.splitOnP p).flatten = as.filter (!p ·) := by
  induction as with
  | nil => rfl
  | cons a rest ih =>
    obtain ⟨head, tail, hsplit⟩ := List.exists_cons_of_ne_nil (List.splitOnP_ne_nil p rest)
    rw [List.splitOnP_cons_eq_if_modifyHead, hsplit]
    rw [hsplit, List.flatten_cons] at ih
    split_ifs with ha
    · rw [List.flatten_cons, List.nil_append, List.flatten_cons, ih,
        List.filter_cons_of_neg (by simp [ha])]
    · rw [List.modifyHead_cons, List.flatten_cons, List.cons_append, ih,
        List.filter_cons_of_pos (by simp [ha])]

/-- The segments of a name hold what is no separator, in order. -/
theorem flatten_segments (name : List Char) :
    (segments name).flatten = name.filter (!isSeparator ·) := by
  rw [segments, List.flatten_filter_not_isEmpty, ← flatten_splitOnP]
  induction name.splitOnP isSeparator with
  | nil => rfl
  | cons part parts ih =>
    rw [List.flatMap_cons, List.flatten_append, List.flatten_splitBy, ih, List.flatten_cons]

theorem segments_eq_nil_iff {name : List Char} :
    segments name = [] ↔ ∀ c ∈ name, isSeparator c = true := by
  have hfilter : (segments name).flatten = [] ↔ ∀ c ∈ name, isSeparator c = true := by
    simp [flatten_segments]
  rw [← hfilter, List.flatten_eq_nil_iff]
  constructor
  · intro h
    simp [h]
  · intro h
    rw [List.eq_nil_iff_forall_not_mem]
    intro segment hsegment
    have hnonempty := (List.mem_filter.mp hsegment).2
    simp [h segment hsegment] at hnonempty

/-! ## Joining -/

/-- A character in lower case if it is a capital. -/
def lowerChars (c : Char) : List Char :=
  if isCapital c then lowercase c else [c]

/-- Segments with a hyphen between each two, and their capitals in lower case. -/
def joinSegments (segments : List (List Char)) : List Char :=
  ['-'].intercalate (segments.map (·.flatMap lowerChars))

/-- What stands before one more segment. -/
def beforeNext (segments : List (List Char)) : List Char :=
  if segments = [] then [] else joinSegments segments ++ ['-']

theorem joinSegments_concat (segments : List (List Char)) (segment : List Char) :
    joinSegments (segments ++ [segment]) = beforeNext segments ++ segment.flatMap lowerChars := by
  unfold beforeNext joinSegments
  induction segments with
  | nil => simp
  | cons first rest ih =>
    rw [if_neg (List.cons_ne_nil _ _), List.cons_append, List.map_cons, List.map_cons,
      List.intercalate_cons_of_ne_nil (by simp), ih]
    split_ifs with hrest
    · simp [hrest]
    · rw [List.intercalate_cons_of_ne_nil (by simpa using hrest)]
      simp [List.append_assoc]

theorem lowerChars_of_verbatim {c : Char} (h : Verbatim c) : lowerChars c = [c] :=
  if_neg (Bool.eq_false_iff.mp h.1)

theorem flatMap_lowerChars {cs : List Char} (h : ∀ c ∈ cs, Verbatim c) :
    cs.flatMap lowerChars = cs := by
  induction cs with
  | nil => rfl
  | cons c rest ih =>
    obtain ⟨hc, hrest⟩ := List.forall_mem_cons.mp h
    rw [List.flatMap_cons, ih hrest, lowerChars_of_verbatim hc, List.singleton_append]

/-- The segments of a name joined, and one more hyphen if there are segments and the name ends in a
separator. -/
def hyphenatedSegments (name : List Char) : List Char :=
  joinSegments (segments name) ++
    if segments name ≠ [] ∧ name.getLast?.any isSeparator = true then ['-'] else []

/-- A name whose last segment is known. -/
theorem hyphenatedSegments_append {name : List Char} {first : List (List Char)} {c : Char}
    {more : List Char} (hc : isSeparator c = false) (hmore : ∀ d ∈ more, Verbatim d)
    (h : segments (name ++ c :: more) = first ++ [c :: more]) :
    hyphenatedSegments (name ++ c :: more) = beforeNext first ++ (lowerChars c ++ more) := by
  have hend : (name ++ c :: more).getLast?.any isSeparator = false := by
    rw [List.getLast?_append_of_ne_nil _ (List.cons_ne_nil _ _), Option.any_eq_false]
    intro d hd
    rcases List.mem_cons.mp (List.mem_of_mem_getLast? hd) with rfl | hd
    · simpa using hc
    · simpa using (hmore d hd).2
  rw [hyphenatedSegments, hend, if_neg (by simp), List.append_nil, h, joinSegments_concat,
    List.flatMap_cons, flatMap_lowerChars hmore]

/-- A name that ends in a separator. -/
theorem hyphenatedSegments_concat_separator {c : Char} (hc : isSeparator c = true)
    (name : List Char) : hyphenatedSegments (name ++ [c]) = beforeNext (segments name) := by
  have hsegments : segments (name ++ [c]) = segments name :=
    (segments_append_separator hc name []).trans (List.append_nil _)
  rw [hyphenatedSegments, hsegments, List.getLast?_concat, Option.any_some, hc, beforeNext]
  by_cases hnil : segments name = []
  · simp [hnil, joinSegments]
  · simp [hnil]

/-! ## The pass -/

/-- Where the pass ends a segment, it has written what stands before the next one. -/
theorem endWord_eq_beforeNext {name : List Char} (h : slugChars name = hyphenatedSegments name) :
    endWord (slugChars name) = beforeNext (segments name) := by
  have hnil : slugChars name = [] ↔ segments name = [] :=
    slugChars_eq_nil_iff.trans segments_eq_nil_iff.symm
  unfold endWord beforeNext
  simp only [getLast?_slugChars, ne_eq, hnil]
  by_cases hsegments : segments name = []
  · rw [if_pos (.inl hsegments), if_pos hsegments, hnil.mpr hsegments]
  · rw [if_neg hsegments, h, hyphenatedSegments]
    by_cases hend : name.getLast?.any isSeparator = true <;> simp [hsegments, hend]

/-- The pass writes the hyphenated segments, whatever verbatim characters follow. -/
theorem slugChars_append_eq (name : List Char) {more : List Char} (hmore : ∀ d ∈ more, Verbatim d) :
    slugChars (name ++ more) = hyphenatedSegments (name ++ more) := by
  induction name using List.reverseRecOn generalizing more with
  | nil =>
    rw [slugChars_append [] hmore]
    cases more with
    | nil => rfl
    | cons d rest =>
      obtain ⟨hd, hrest⟩ := List.forall_mem_cons.mp hmore
      have hsegments : segments ([] ++ d :: rest) = [] ++ [d :: rest] :=
        segments_cons_verbatim hd.2 hrest
      rw [hyphenatedSegments_append hd.2 hrest hsegments, lowerChars_of_verbatim hd]
      rfl
  | append_singleton name c ih =>
    have hname : slugChars name = hyphenatedSegments name := by
      simpa using ih (List.forall_mem_nil _)
    by_cases hcapital : isCapital c = true
    · -- the capital begins the last segment, and all that follows belongs to it
      rw [slugChars_append _ hmore, slugChars_concat, if_pos hcapital, endWord_eq_beforeNext hname,
        List.append_assoc name, List.singleton_append,
        hyphenatedSegments_append (isSeparator_of_isCapital hcapital) hmore
          (segments_append_capital hcapital name hmore),
        lowerChars, if_pos hcapital, List.append_assoc]
    by_cases hseparator : isSeparator c = true
    · rw [slugChars_append _ hmore, slugChars_concat, if_neg hcapital, if_pos hseparator,
        endWord_eq_beforeNext hname]
      cases more with
      | nil => rw [List.append_nil, List.append_nil, hyphenatedSegments_concat_separator hseparator]
      | cons d rest =>
        obtain ⟨hd, hrest⟩ := List.forall_mem_cons.mp hmore
        have hsegments : segments ((name ++ [c]) ++ d :: rest) = segments name ++ [d :: rest] := by
          rw [List.append_assoc, List.singleton_append, segments_append_separator hseparator,
            segments_cons_verbatim hd.2 hrest]
        rw [hyphenatedSegments_append hd.2 hrest hsegments, lowerChars_of_verbatim hd,
          List.singleton_append]
    · -- a verbatim character joins those that follow
      have hc : Verbatim c := ⟨by simpa using hcapital, by simpa using hseparator⟩
      rw [List.append_assoc, List.singleton_append]
      exact ih (List.forall_mem_cons.mpr ⟨hc, hmore⟩)

/-! ## What survives -/

theorem filter_endWord (written : List Char) :
    (endWord written).filter (!isSeparator ·) = written.filter (!isSeparator ·) := by
  have hhyphen : ['-'].filter (!isSeparator ·) = [] := by decide
  unfold endWord
  split_ifs
  · rfl
  · rw [List.filter_append, hhyphen, List.append_nil]

/-- A slug without its hyphens is the name without its separators, with capitals in lower case. -/
theorem filter_slugChars (name : List Char) :
    (slugChars name).filter (!isSeparator ·) =
      (name.filter (!isSeparator ·)).flatMap lowerChars := by
  induction name using List.reverseRecOn with
  | nil => rfl
  | append_singleton name c ih =>
    rw [slugChars_concat, List.filter_append, List.flatMap_append, ← ih]
    by_cases hcapital : isCapital c = true
    · have hlower : (lowercase c).filter (!isSeparator ·) = lowercase c := by
        rw [List.filter_eq_self]
        exact fun d hd => by simp [isSeparator_of_mem_lowercase hcapital hd]
      rw [if_pos hcapital, List.filter_append, filter_endWord, hlower,
        List.filter_cons_of_pos (by simp [isSeparator_of_isCapital hcapital]), List.filter_nil,
        List.flatMap_singleton, lowerChars, if_pos hcapital]
    by_cases hseparator : isSeparator c = true
    · rw [if_neg hcapital, if_pos hseparator, filter_endWord,
        List.filter_cons_of_neg (by simp [hseparator]), List.filter_nil, List.flatMap_nil,
        List.append_nil]
    · rw [if_neg hcapital, if_neg hseparator, List.filter_append,
        List.filter_cons_of_pos (by simpa using hseparator), List.filter_nil,
        List.flatMap_singleton, lowerChars, if_neg hcapital]

/-- **Main theorem.** The slug of every name spells its segments, joined with hyphens and with one
more hyphen behind them if the name ends in a separator. The characters that are no separators all
survive in their order, capitals in lower case, and the slug is empty exactly if there are none. -/
theorem slug_eq_hyphenatedSegments (name : String) :
    slug name = String.ofList (hyphenatedSegments name.toList) ∧
      (slug name).toList.filter (!isSeparator ·) =
        (name.toList.filter (!isSeparator ·)).flatMap lowerChars ∧
      (slug name = "" ↔ ∀ c ∈ name.toList, isSeparator c = true) := by
  have htext : (slug name).toList = slugChars name.toList := String.toList_ofList
  have hsegments : slugChars name.toList = hyphenatedSegments name.toList := by
    simpa using slugChars_append_eq name.toList (List.forall_mem_nil _)
  refine ⟨?_, ?_, ?_⟩
  · rw [slug, hsegments]
  · rw [htext, filter_slugChars]
  · rw [← slugChars_eq_nil_iff, ← htext, String.toList_eq_nil_iff]

/-- Separators lead, repeat and end the name, and a capital needs none. -/
example : hyphenatedSegments " _HTTP  Client_".toList = "h-t-t-p-client-".toList := by
  decide +kernel

end ArchDoc.Identifier
