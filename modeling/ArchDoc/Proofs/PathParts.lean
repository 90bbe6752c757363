import ArchDoc.Path
import Mathlib.Data.List.Basic
import Mathlib.Tactic.SplitIfs

/-!
# The parts of a path

A path is its parts with slashes between them, and slashes never stand in a part. So parts can be
taken away and put together like the elements of a list.

Results:

* `splitChars_append`, `intercalate_splitChars`: blocks between separators, taken apart and put
  together.
* `parts_append`, `intercalate_parts`, `parts_intercalate`: the same for the parts of a path.
* `isAbsolute_iff`: which parts make a path start at the root.
-/

namespace ArchDoc.Path

/-! ## Blocks -/

theorem splitChars_ne_nil (separator : Char) (cs : List Char) : splitChars separator cs ≠ [] := by
  cases cs with
  | nil => exact List.cons_ne_nil _ _
  | cons c cs =>
    unfold splitChars
    split_ifs
    · exact List.cons_ne_nil _ _
    · split <;> exact List.cons_ne_nil _ _

theorem splitChars_cons_of_ne {separator c : Char} (h : c ≠ separator) (cs : List Char) :
    ∃ block blocks, splitChars separator cs = block :: blocks ∧
      splitChars separator (c :: cs) = (c :: block) :: blocks := by
  obtain ⟨block, blocks, hblocks⟩ := List.exists_cons_of_ne_nil (splitChars_ne_nil separator cs)
  refine ⟨block, blocks, hblocks, ?_⟩
  rw [splitChars, if_neg h, hblocks]

/-- A separator keeps the blocks before it and those behind it apart. -/
theorem splitChars_append (separator : Char) (as bs : List Char) :
    splitChars separator (as ++ separator :: bs) =
      splitChars separator as ++ splitChars separator bs := by
  induction as with
  | nil => simp [splitChars]
  | cons a as ih =>
    by_cases h : a = separator
    · simp [splitChars, h, ih]
    · obtain ⟨block, blocks, hblocks, hcons⟩ := splitChars_cons_of_ne h as
      rw [hcons, List.cons_append, splitChars, if_neg h, ih, hblocks]
      rfl

/-- The blocks with separators between them are the text. -/
theorem intercalate_splitChars (separator : Char) (cs : List Char) :
    [separator].intercalate (splitChars separator cs) = cs := by
  induction cs with
  | nil => rfl
  | cons c cs ih =>
    by_cases h : c = separator
    · obtain ⟨block, blocks, hblocks⟩ :=
        List.exists_cons_of_ne_nil (splitChars_ne_nil separator cs)
      rw [hblocks] at ih
      rw [splitChars, if_pos h, hblocks, List.intercalate_cons_cons, ih, h]
      rfl
    · obtain ⟨block, blocks, hblocks, hcons⟩ := splitChars_cons_of_ne h cs
      rw [hblocks] at ih
      rw [hcons]
      cases blocks with
      | nil => simpa using ih
      | cons next blocks =>
        rw [List.intercalate_cons_cons] at ih ⊢
        rw [List.cons_append, List.cons_append, ih]

/-- Blocks have no separators. -/
theorem not_mem_of_mem_splitChars {separator : Char} {cs block : List Char}
    (h : block ∈ splitChars separator cs) : separator ∉ block := by
  induction cs generalizing block with
  | nil =>
    rw [List.mem_singleton.mp h]
    exact List.not_mem_nil
  | cons c cs ih =>
    by_cases hc : c = separator
    · rw [splitChars, if_pos hc] at h
      rcases List.mem_cons.mp h with rfl | hblock
      · exact List.not_mem_nil
      · exact ih hblock
    · obtain ⟨first, blocks, hblocks, hcons⟩ := splitChars_cons_of_ne hc cs
      rw [hblocks] at ih
      rw [hcons] at h
      rcases List.mem_cons.mp h with rfl | hblock
      · exact List.not_mem_cons_of_ne_of_not_mem (Ne.symm hc) (ih List.mem_cons_self)
      · exact ih (List.mem_cons_of_mem _ hblock)

/-- Without separators there is one block. -/
theorem splitChars_of_not_mem {separator : Char} {cs : List Char} (h : separator ∉ cs) :
    splitChars separator cs = [cs] := by
  induction cs with
  | nil => rfl
  | cons c cs ih =>
    obtain ⟨hc, hcs⟩ := List.ne_and_not_mem_of_not_mem_cons h
    obtain ⟨first, blocks, hblocks, hcons⟩ := splitChars_cons_of_ne hc.symm cs
    rw [ih hcs] at hblocks
    obtain ⟨rfl, rfl⟩ := List.cons.inj hblocks
    exact hcons

/-- Characters other than separators continue the last block. -/
theorem splitChars_append_of_not_mem {separator : Char} {more : List Char} (h : separator ∉ more)
    (cs : List Char) :
    ∃ blocks last, splitChars separator cs = blocks ++ [last] ∧
      splitChars separator (cs ++ more) = blocks ++ [last ++ more] := by
  induction cs with
  | nil => exact ⟨[], [], rfl, splitChars_of_not_mem h⟩
  | cons c cs ih =>
    obtain ⟨blocks, last, hold, hnew⟩ := ih
    by_cases hc : c = separator
    · refine ⟨[] :: blocks, last, ?_, ?_⟩
      · rw [splitChars, if_pos hc, hold, List.cons_append]
      · rw [List.cons_append, splitChars, if_pos hc, hnew, List.cons_append]
    · obtain ⟨first, rest, hsplit, hcons⟩ := splitChars_cons_of_ne hc cs
      obtain ⟨first', rest', hsplit', hcons'⟩ := splitChars_cons_of_ne hc (cs ++ more)
      rw [hcons, List.cons_append, hcons']
      rw [hsplit] at hold
      rw [hsplit'] at hnew
      cases blocks with
      | nil =>
        obtain ⟨rfl, rfl⟩ := List.cons.inj hold
        obtain ⟨rfl, rfl⟩ := List.cons.inj hnew
        exact ⟨[], c :: _, rfl, rfl⟩
      | cons block blocks =>
        obtain ⟨rfl, rfl⟩ := List.cons.inj hold
        obtain ⟨rfl, rfl⟩ := List.cons.inj hnew
        exact ⟨(c :: _) :: blocks, last, rfl, rfl⟩

/-- Blocks are read off the text that has separators between them. -/
theorem splitChars_intercalate {separator : Char} {blocks : List (List Char)} (hne : blocks ≠ [])
    (h : ∀ block ∈ blocks, separator ∉ block) :
    splitChars separator ([separator].intercalate blocks) = blocks := by
  induction blocks with
  | nil => exact absurd rfl hne
  | cons block blocks ih =>
    obtain ⟨hblock, hblocks⟩ := List.forall_mem_cons.mp h
    cases blocks with
    | nil =>
      rw [List.intercalate_singleton]
      exact splitChars_of_not_mem hblock
    | cons next blocks =>
      rw [List.intercalate_cons_cons, List.append_assoc, List.singleton_append, splitChars_append,
        splitChars_of_not_mem hblock, ih (List.cons_ne_nil _ _) hblocks, List.singleton_append]

/-! ## Parts -/

theorem parts_ne_nil (path : String) : parts path ≠ [] := by
  rw [parts, Ne, List.map_eq_nil_iff]
  exact splitChars_ne_nil _ _

/-- A slash keeps the parts before it and those behind it apart. -/
theorem parts_append (a b : String) : parts (a ++ "/" ++ b) = parts a ++ parts b := by
  have hchars : (a ++ "/" ++ b).toList = a.toList ++ '/' :: b.toList := by
    simp [String.toList_append]
  rw [parts, hchars, splitChars_append, List.map_append, parts, parts]

/-- The parts with slashes between them are the path. -/
theorem intercalate_parts (path : String) : "/".intercalate (parts path) = path := by
  apply String.toList_injective
  rw [String.toList_intercalate, parts, List.map_map]
  have hid : String.toList ∘ String.ofList = id := funext fun _ => String.toList_ofList
  rw [hid, List.map_id]
  exact intercalate_splitChars '/' path.toList

theorem parts_injective : Function.Injective parts := by
  intro a b h
  rw [← intercalate_parts a, h, intercalate_parts]

/-- Parts have no slashes. -/
theorem not_mem_of_mem_parts {path part : String} (h : part ∈ parts path) :
    '/' ∉ part.toList := by
  obtain ⟨block, hblock, rfl⟩ := List.mem_map.mp h
  rw [String.toList_ofList]
  exact not_mem_of_mem_splitChars hblock

/-- Parts are read off the path that has slashes between them. -/
theorem parts_intercalate {ps : List String} (hne : ps ≠ []) (h : ∀ p ∈ ps, '/' ∉ p.toList) :
    parts ("/".intercalate ps) = ps := by
  have hblocks : ∀ block ∈ ps.map String.toList, '/' ∉ block := List.forall_mem_map.mpr h
  have hsplit := splitChars_intercalate (by simpa using hne) hblocks
  have hid : String.ofList ∘ String.toList = id := funext fun _ => String.ofList_toList
  rw [parts, String.toList_intercalate]
  refine (congrArg (List.map String.ofList) hsplit).trans ?_
  rw [List.map_map, hid, List.map_id]

/-- What has no slash continues the last part. -/
theorem parts_append_of_not_mem {more : String} (h : '/' ∉ more.toList) (path : String) :
    ∃ before last, parts path = before ++ [last] ∧
      parts (path ++ more) = before ++ [last ++ more] := by
  obtain ⟨blocks, last, hold, hnew⟩ := splitChars_append_of_not_mem h path.toList
  refine ⟨blocks.map String.ofList, String.ofList last, ?_, ?_⟩
  · rw [parts, hold, List.map_append, List.map_singleton]
  · rw [parts, String.toList_append, hnew, List.map_append, List.map_singleton,
      String.ofList_append, String.ofList_toList]

/-- A path starts at the root when it has a part after an empty one. -/
theorem isAbsolute_iff {path : String} :
    isAbsolute path = true ↔ ∃ rest, rest ≠ [] ∧ parts path = "" :: rest := by
  unfold isAbsolute parts
  cases path.toList with
  | nil => simp [splitChars]
  | cons c cs =>
    by_cases hc : c = '/'
    · rw [splitChars, if_pos hc]
      simp [hc, splitChars_ne_nil]
    · obtain ⟨first, blocks, _, hcons⟩ := splitChars_cons_of_ne hc cs
      rw [hcons]
      simp [hc]

end ArchDoc.Path
