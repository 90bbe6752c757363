import ArchDoc.Proofs.Slugs

/-!
# The slug of a slug

A slug is its own slug. Reading it once more, each of its characters writes itself: hyphens stand
only where a word ends, and what a capital wrote is either itself, if it has no lower case, or holds
no capital any more. The latter is a property of the whole table of capitals. Sets of code points
are written as the bits of numbers, so that two of them can be compared at once.

Main definitions:

* `CapitalRun.bits`, `bitsOf`: the code points of a run and of many runs, as the bits of a number.
* `CapitalRun.lowered`: the lower case of a run.

Results:

* `lowered_disjoint`: no lower case of the table is a capital, where it is not the capital itself.
* `lowercase_settles`: the lower case of a capital is itself alone, or holds no capital.
* `slugChars_slugChars`: a slug is its own slug.
* `slug_stable`: the same with the form of slugs.
-/

namespace ArchDoc.Text

/-! ## Sets of code points -/

/-- The union of sets that are the bits of numbers. -/
def bitUnion {α : Type} (bits : α → Nat) (as : List α) : Nat :=
  as.foldr (fun a rest => rest ||| bits a) 0

theorem testBit_bitUnion {α : Type} {bits : α → Nat} {as : List α} {n : Nat} :
    (bitUnion bits as).testBit n = true ↔ ∃ a ∈ as, (bits a).testBit n = true := by
  induction as with
  | nil => simp [bitUnion]
  | cons a rest ih =>
    rw [bitUnion, List.foldr_cons, ← bitUnion, Nat.testBit_or, Bool.or_eq_true, ih,
      List.exists_mem_cons_iff, or_comm]

/-- Sets that have no bit in common have no number in common. -/
theorem not_testBit_of_and_eq_zero {a b n : Nat} (h : a &&& b = 0) (ha : a.testBit n = true) :
    b.testBit n = false := by
  have hn := congrArg (Nat.testBit · n) h
  simpa [ha] using hn

namespace CapitalRun

/-- The code points of a run. -/
def bits (r : CapitalRun) : Nat :=
  bitUnion (fun k => 1 <<< (r.first + k * r.step)) (List.range r.count)

/-- The run of the lower case. -/
def lowered (r : CapitalRun) : CapitalRun :=
  ⟨(r.first + r.shift).toNat, r.count, r.step, 0⟩

theorem testBit_bits {r : CapitalRun} {n : Nat} :
    r.bits.testBit n = true ↔ ∃ k < r.count, r.first + k * r.step = n := by
  simp only [bits, testBit_bitUnion, List.mem_range, Nat.one_shiftLeft, Nat.testBit_two_pow,
    decide_eq_true_eq]

theorem testBit_bits_of_covers {r : CapitalRun} {n : Nat} (h : r.covers n = true) :
    r.bits.testBit n = true := by
  simp only [covers, Bool.and_eq_true, decide_eq_true_eq, beq_iff_eq] at h
  obtain ⟨⟨hfirst, hstop⟩, hstep⟩ := h
  obtain ⟨k, hk⟩ := Nat.dvd_of_mod_eq_zero hstep
  rw [Nat.mul_comm] at hk
  have hcount : k * r.step < r.count * r.step := by omega
  exact testBit_bits.mpr ⟨k, Nat.lt_of_mul_lt_mul_right hcount, by omega⟩

end CapitalRun

/-- The code points of runs. -/
def bitsOf (runs : List CapitalRun) : Nat :=
  bitUnion CapitalRun.bits runs

/-! ## Capitals and lower case -/

/-- The table with the capital that stands beside it. -/
def allRuns : List CapitalRun :=
  ⟨0x130, 1, 1, 0⟩ :: capitalRuns

/-- The lower case of all runs that have one. -/
def loweredRuns : List CapitalRun :=
  (capitalRuns.filter (·.shift != 0)).map (·.lowered)

/-- No lower case of the table is a capital, where it is not the capital itself. -/
theorem lowered_disjoint : bitsOf loweredRuns &&& bitsOf allRuns = 0 := by
  decide +kernel

theorem testBit_of_isCapital {c : Char} (h : isCapital c = true) :
    (bitsOf allRuns).testBit c.toNat = true := by
  rw [bitsOf, testBit_bitUnion]
  rcases (Bool.or_eq_true _ _).mp h with hdotted | hrun
  · rw [beq_iff_eq.mp hdotted]
    exact ⟨_, List.mem_cons_self, CapitalRun.testBit_bits.mpr ⟨0, Nat.one_pos, rfl⟩⟩
  · obtain ⟨r, hr, hcovers⟩ := List.any_eq_true.mp hrun
    exact ⟨r, List.mem_cons_of_mem _ hr, CapitalRun.testBit_bits_of_covers hcovers⟩

theorem testBit_of_shift {r : CapitalRun} (hr : r ∈ capitalRuns) (hshift : r.shift ≠ 0) {n : Nat}
    (hn : r.covers n = true) : (bitsOf loweredRuns).testBit (n + r.shift).toNat = true := by
  obtain ⟨k, hk, rfl⟩ := CapitalRun.testBit_bits.mp (CapitalRun.testBit_bits_of_covers hn)
  have hmem : r.lowered ∈ loweredRuns :=
    List.mem_map_of_mem (List.mem_filter.mpr ⟨hr, by simpa using hshift⟩)
  refine testBit_bitUnion.mpr ⟨r.lowered, hmem, CapitalRun.testBit_bits.mpr ⟨k, hk, ?_⟩⟩
  have hfirst := Identifier.le_shift_of_mem_capitalRuns r hr
  simp only [CapitalRun.lowered]
  omega

/-- The lower case of a capital is the capital itself alone, or holds no capital. -/
theorem lowercase_settles (c : Char) :
    lowercase c = [c] ∨ ∀ d ∈ lowercase c, isCapital d = false := by
  rcases Identifier.lowercase_cases c with h | ⟨r, hr, hcovers, h⟩ | h
  · rw [h]
    exact .inr (List.forall_mem_cons.mpr
      ⟨by decide +kernel, List.forall_mem_singleton.mpr (by decide +kernel)⟩)
  · rw [h]
    by_cases hshift : r.shift = 0
    · refine .inl ?_
      rw [hshift, Int.add_zero, Int.toNat_natCast, Char.ofNat_toNat]
    · refine .inr (List.forall_mem_singleton.mpr (Bool.eq_false_iff.mpr fun hcapital => ?_))
      rcases Identifier.toNat_ofNat_eq_or (c.toNat + r.shift).toNat with hcode | hzero
      · have hbit := testBit_of_isCapital hcapital
        rw [hcode, not_testBit_of_and_eq_zero lowered_disjoint
          (testBit_of_shift hr hshift hcovers)] at hbit
        exact Bool.false_ne_true hbit
      · rw [hzero] at hcapital
        exact absurd hcapital (by decide +kernel)
  · exact .inl h

end ArchDoc.Text

namespace ArchDoc.Identifier

open Text

/-! ## Reading a slug -/

/-- A character that is written as it is: neither a capital nor a separator. -/
def Verbatim (c : Char) : Prop :=
  isCapital c = false ∧ isSeparator c = false

/-- Verbatim characters write themselves. -/
theorem slugChars_append (name : List Char) {more : List Char} (h : ∀ c ∈ more, Verbatim c) :
    slugChars (name ++ more) = slugChars name ++ more := by
  induction more generalizing name with
  | nil => rw [List.append_nil, List.append_nil]
  | cons c more ih =>
    obtain ⟨hcapital, hseparator⟩ := h c List.mem_cons_self
    calc slugChars (name ++ c :: more)
        = slugChars ((name ++ [c]) ++ more) := by rw [List.append_assoc, List.singleton_append]
      _ = slugChars (name ++ [c]) ++ more := ih _ fun d hd => h d (List.mem_cons_of_mem c hd)
      _ = slugChars name ++ c :: more := by
          rw [slugChars_concat, if_neg (Bool.eq_false_iff.mp hcapital),
            if_neg (Bool.eq_false_iff.mp hseparator), List.append_assoc, List.singleton_append]

theorem endWord_endWord (written : List Char) : endWord (endWord written) = endWord written := by
  have hlast : endWord written = [] ∨ (endWord written).getLast? = some '-' := by
    rw [getLast?_endWord, endWord_eq_nil_iff]
    exact Decidable.em _
  rw [endWord, if_pos hlast]

/-- Where a word has ended, reading on does not change what is written. -/
theorem slugChars_endWord {written : List Char} (h : slugChars written = written) :
    slugChars (endWord written) = endWord written := by
  by_cases hend : written = [] ∨ written.getLast? = some '-'
  · rw [endWord, if_pos hend, h]
  · have hhyphen : isCapital '-' = false := by decide +kernel
    rw [show endWord written = written ++ ['-'] from if_neg hend, slugChars_concat, hhyphen, h]
    exact if_neg hend

/-- A slug is its own slug: each step writes what it would write if it read what is written. -/
theorem slugChars_slugChars (name : List Char) : slugChars (slugChars name) = slugChars name := by
  induction name using List.reverseRecOn with
  | nil => rfl
  | append_singleton name c ih =>
    have hword := slugChars_endWord ih
    rw [slugChars_concat]
    split_ifs with hcapital hseparator
    · rcases lowercase_settles c with hself | hlower
      · rw [hself, slugChars_concat, if_pos hcapital, hword, endWord_endWord, hself]
      · rw [slugChars_append _ fun d hd =>
          ⟨hlower d hd, isSeparator_of_mem_lowercase hcapital hd⟩, hword]
    · exact hword
    · rw [slugChars_concat, if_neg hcapital, if_neg hseparator, ih]

theorem eq_hyphen_of_mem_endWord {written : List Char} {d : Char} (h : d ∈ endWord written) :
    d ∈ written ∨ d = '-' := by
  unfold endWord at h
  split_ifs at h
  · exact .inl h
  · exact (List.mem_append.mp h).imp_right List.mem_singleton.mp

/-- The only separators in a slug are hyphens. -/
theorem eq_hyphen_of_mem_slugChars {name : List Char} {d : Char} (hd : d ∈ slugChars name)
    (hseparator : isSeparator d = true) : d = '-' := by
  induction name using List.reverseRecOn with
  | nil => exact absurd hd List.not_mem_nil
  | append_singleton name c ih =>
    rw [slugChars_concat] at hd
    split_ifs at hd with hcapital hc
    · rcases List.mem_append.mp hd with hword | hlower
      · exact (eq_hyphen_of_mem_endWord hword).elim ih id
      · exact absurd hseparator (by simp [isSeparator_of_mem_lowercase hcapital hlower])
    · exact (eq_hyphen_of_mem_endWord hd).elim ih id
    · rcases List.mem_append.mp hd with hold | hnew
      · exact ih hold
      · rw [List.mem_singleton.mp hnew] at hseparator
        exact absurd hseparator hc

/-- **Main theorem.** The slug of every name is its own slug. It has no hyphen in front and no two
hyphens in a row, and neither spaces nor underscores. -/
theorem slug_stable (name : String) :
    slug (slug name) = slug name ∧ Hyphenated (slug name).toList ∧
      ∀ c ∈ (slug name).toList, c ≠ ' ' ∧ c ≠ '_' := by
  have htext : (slug name).toList = slugChars name.toList := String.toList_ofList
  rw [htext]
  refine ⟨?_, hyphenated_slugChars _, fun c hc => ⟨?_, ?_⟩⟩
  · rw [slug, htext, slugChars_slugChars]
    rfl
  · rintro rfl
    exact absurd (eq_hyphen_of_mem_slugChars hc rfl) (by decide)
  · rintro rfl
    exact absurd (eq_hyphen_of_mem_slugChars hc rfl) (by decide)

/-- A capital whose lower case takes two characters, and one that has no lower case. -/
example : slugChars "İ𝐁 ".toList = "i̇-𝐁-".toList := by decide +kernel

end ArchDoc.Identifier
