import ArchDoc.Proofs.PathSpellings

/-!
# Parents and joined paths

What a path counts on its way is the list of its parts other than dots and empty ones. The parent
of a path starts where the path starts and stops one such part earlier, in whatever spelling the
path is given, and a path below another one has the parts of both.

Main definitions:

* `counted`: the parts that count anywhere in a path.

Results:

* `parent?_eq_some`, `counted_join`: the parts of a parent and of a joined path.
* `up_mem_components_iff`: two dots are never left out.
-/

namespace ArchDoc.Path

/-- The parts of a path that count anywhere. -/
def counted (path : String) : List String :=
  (parts path).filter counts

/-! ## Two dots -/

theorem componentOf_eq_up_iff {part : String} : componentOf part = .up ↔ part = ".." := by
  unfold componentOf
  split_ifs with hdot hup
  · rw [hdot]
    decide
  · exact iff_of_true rfl hup
  · exact iff_of_false nofun hup

theorem mem_counted_up_iff {path : String} : ".." ∈ counted path ↔ ".." ∈ parts path := by
  have hcounts : counts ".." = true := by decide
  simp [counted, hcounts]

/-- Two dots are a component wherever they stand. -/
theorem up_mem_components_iff {path : String} : .up ∈ components path ↔ ".." ∈ counted path := by
  have hsteps : ∀ ps : List String, .up ∈ steps ps ↔ ".." ∈ ps := by
    intro ps
    have hcounts : counts ".." = true := by decide
    rw [steps, List.mem_map]
    constructor
    · rintro ⟨part, hpart, hup⟩
      rw [← componentOf_eq_up_iff.mp hup]
      exact (List.mem_filter.mp hpart).1
    · intro h
      exact ⟨"..", List.mem_filter.mpr ⟨h, hcounts⟩, rfl⟩
  rw [mem_counted_up_iff]
  rcases parts_cases path with rfl | ⟨rest, hrest, hparts⟩ | ⟨first, rest, hfirst, hparts⟩
  · decide +kernel
  · rw [components_of_absolute hrest hparts, hparts]
    simp [hsteps]
  · rw [components_of_relative hfirst hparts, hparts, List.mem_cons, List.mem_cons, hsteps, eq_comm,
      componentOf_eq_up_iff, eq_comm]

/-! ## Parents -/

theorem ne_empty_of_counts {part : String} (h : counts part = true) : part ≠ "" := by
  rintro rfl
  exact nomatch h

theorem dropIdle_suffix (ps : List String) : dropIdle ps <:+ ps := by
  fun_induction dropIdle ps with
  | case1 => exact List.suffix_refl _
  | case2 => exact List.nil_suffix
  | case3 => exact List.suffix_refl _
  | case4 => exact List.suffix_refl _
  | case5 part rest hrest hcounts ih => exact ih.trans (List.suffix_cons _ _)

/-- Dropped parts do not count. -/
theorem filter_counts_dropIdle (ps : List String) :
    (dropIdle ps).filter counts = ps.filter counts := by
  fun_induction dropIdle ps with
  | case1 => rfl
  | case2 => rfl
  | case3 => rfl
  | case4 => rfl
  | case5 part rest hrest hcounts ih => rw [ih, List.filter_cons_of_neg hcounts]

/-- What is kept ends in a part that counts, unless it is the first part alone. -/
theorem dropIdle_eq_cons {ps rest : List String} {part : String}
    (h : dropIdle ps = part :: rest) : part ≠ "" ∧ (rest ≠ [] → counts part = true) := by
  fun_induction dropIdle ps with
  | case1 => exact nomatch h
  | case2 => exact nomatch h
  | case3 first hfirst =>
    obtain ⟨rfl, rfl⟩ := List.cons.inj h
    exact ⟨hfirst, fun hne => absurd rfl hne⟩
  | case4 first ps hps hcounts =>
    obtain ⟨rfl, rfl⟩ := List.cons.inj h
    exact ⟨ne_empty_of_counts hcounts, fun _ => hcounts⟩
  | case5 first ps hps hcounts ih => exact ih h

/-- A path that is continued starts where it started, unless it was empty. -/
theorem isAbsolute_of_prefix {shorter path : String} (hne : shorter ≠ "")
    (h : parts shorter <+: parts path) : isAbsolute shorter = isAbsolute path := by
  obtain ⟨more, hmore⟩ := h
  rw [Bool.eq_iff_iff, isAbsolute_iff, isAbsolute_iff]
  rcases parts_cases shorter with rfl | ⟨rest, hrest, hparts⟩ | ⟨first, rest, hfirst, hparts⟩
  · exact absurd rfl hne
  · rw [hparts, List.cons_append] at hmore
    exact iff_of_true ⟨rest, hrest, hparts⟩ ⟨rest ++ more, by simp [hrest], hmore.symm⟩
  · rw [hparts, List.cons_append] at hmore
    refine iff_of_false ?_ ?_
    · rintro ⟨_, _, hroot⟩
      exact hfirst (List.cons.inj (hparts.symm.trans hroot)).1
    · rintro ⟨_, _, hroot⟩
      exact hfirst (List.cons.inj (hmore.trans hroot)).1

/-- Parts from the first one on spell a path of these parts. -/
theorem parts_intercalate_of_prefix {path : String} {ps : List String} (hne : ps ≠ [])
    (h : ps <+: parts path) : parts ("/".intercalate ps) = ps :=
  parts_intercalate hne fun _ hp => not_mem_of_mem_parts (h.subset hp)

theorem counted_eq_reverse (path : String) :
    counted path = ((dropIdle (parts path).reverse).filter counts).reverse := by
  rw [filter_counts_dropIdle, List.filter_reverse, List.reverse_reverse, counted]

/-- The parent of a path starts where the path starts, and has one part less that counts. -/
theorem parent?_eq_some {path parent : String} (h : parent? path = some parent) :
    isAbsolute parent = isAbsolute path ∧ counted parent = (counted path).dropLast := by
  unfold parent? at h
  rw [counted_eq_reverse path]
  cases hdrop : dropIdle (parts path).reverse with
  | nil =>
    rw [hdrop] at h
    exact nomatch h
  | cons last rest =>
    rw [hdrop] at h
    dsimp only at h
    cases hrest : dropIdle rest with
    | nil =>
      rw [hrest] at h
      have hnone : rest.filter counts = [] := by
        rw [← filter_counts_dropIdle, hrest]
        rfl
      have hsingle : ((last :: rest).filter counts).reverse.dropLast = [] := by
        rw [List.filter_cons, hnone]
        split_ifs <;> rfl
      rw [hsingle]
      obtain rfl := Option.some.inj h
      cases isAbsolute path <;> exact ⟨rfl, rfl⟩
    | cons next kept =>
      rw [hrest] at h
      obtain rfl := Option.some.inj h
      have hinner : next :: kept <:+ rest := hrest ▸ dropIdle_suffix rest
      have houter : last :: rest <:+ (parts path).reverse := hdrop ▸ dropIdle_suffix _
      have hsuffix : next :: kept <:+ (parts path).reverse :=
        (hinner.trans (List.suffix_cons _ _)).trans houter
      have hprefix : (next :: kept).reverse <+: parts path :=
        List.reverse_suffix.mp (by rwa [List.reverse_reverse])
      have hparts : parts ("/".intercalate (next :: kept).reverse) = (next :: kept).reverse :=
        parts_intercalate_of_prefix (by simp) hprefix
      have hlast : counts last = true := by
        refine (dropIdle_eq_cons hdrop).2 ?_
        rintro rfl
        exact nomatch hrest
      constructor
      · refine isAbsolute_of_prefix ?_ (by rwa [hparts])
        intro hempty
        have hsingle : (next :: kept).reverse = [""] := by
          rw [← hparts, hempty]
          rfl
        have hnext : next = "" ∧ kept = [] := by simpa using List.reverse_eq_iff.mp hsingle
        exact (dropIdle_eq_cons hrest).1 hnext.1
      · rw [counted, hparts, List.filter_reverse, ← hrest, filter_counts_dropIdle,
          List.filter_cons_of_pos hlast, List.reverse_cons, List.dropLast_concat]

/-! ## Joined paths -/

theorem counted_append (a b : String) : counted (a ++ "/" ++ b) = counted a ++ counted b := by
  rw [counted, parts_append, List.filter_append, counted, counted]

/-- A path that ends in a slash is continued without another one. -/
theorem counted_append_of_slash {root : String} (h : root.toList.getLast? = some '/')
    (path : String) : counted (root ++ path) = counted root ++ counted path := by
  obtain ⟨front, hfront⟩ := List.getLast?_eq_some_iff.mp h
  have hroot : root = String.ofList front ++ "/" := by
    apply String.toList_injective
    rw [hfront, String.toList_append, String.toList_ofList]
    rfl
  have hslash : counted (String.ofList front ++ "/") = counted (String.ofList front) := by
    rw [← String.append_empty (s := String.ofList front ++ "/"), counted_append]
    exact List.append_nil _
  rw [hroot, counted_append, hslash]

/-- A path below another one has the parts of both. -/
theorem counted_join (root path : String) :
    counted (join root path) =
      if isAbsolute path then counted path else counted root ++ counted path := by
  unfold join
  split_ifs with habsolute hslash
  · rfl
  · rcases Bool.or_eq_true_iff.mp hslash with hempty | hlast
    · have hroot : root = "" := by simpa using hempty
      rw [hroot, String.empty_append]
      rfl
    · exact counted_append_of_slash (by simpa using hlast) path
  · exact counted_append root path

end ArchDoc.Path
