import ArchDoc.Proofs.PathParts
import Mathlib.Logic.Relation

/-!
# Spellings of a path

Two spellings name one path when a slash is repeated in one of them, when a single dot stands
between slashes or at the end, or when the path ends in a slash. Nothing else makes spellings
agree: a dot at the beginning counts, and two dots are not resolved. The components of a path are
what these changes of spelling leave alone.

Main definitions:

* `Respelled`, `SamePath`: one change of spelling, and any number of changes in both directions.
* `canonical`: the shortest spelling of components.

Results:

* `samePath_canonical`: every path is respelled to the spelling of its components.
* `components_eq_iff`: spellings name one path exactly if their components agree.
-/

namespace ArchDoc.Path

/-! ## Changes of spelling -/

/-- A spelling and a shorter one of the same path. A slash at the end counts only in the path that
is nothing else. -/
inductive Respelled : String → String → Prop where
  | slashes (a b : String) : Respelled (a ++ "//" ++ b) (a ++ "/" ++ b)
  | dot (a b : String) : Respelled (a ++ "/./" ++ b) (a ++ "/" ++ b)
  | lastDot (a : String) : Respelled (a ++ "/.") (a ++ "/")
  | lastSlash {a : String} (h : a ≠ "") : Respelled (a ++ "/") a

/-- Spellings of the same path. -/
def SamePath : String → String → Prop :=
  Relation.EqvGen Respelled

namespace SamePath

variable {a b c : String}

theorem refl (a : String) : SamePath a a :=
  Relation.EqvGen.refl a

theorem symm (h : SamePath a b) : SamePath b a :=
  Relation.EqvGen.symm a b h

theorem trans (hab : SamePath a b) (hbc : SamePath b c) : SamePath a c :=
  Relation.EqvGen.trans a b c hab hbc

end SamePath

theorem Respelled.same {a b : String} (h : Respelled a b) : SamePath a b :=
  Relation.EqvGen.rel a b h

/-! ## Components of joined paths -/

/-- The components of the parts behind the first one. -/
def steps (parts : List String) : List Component :=
  (parts.filter counts).map componentOf

theorem steps_append (ps qs : List String) : steps (ps ++ qs) = steps ps ++ steps qs := by
  rw [steps, List.filter_append, List.map_append, steps, steps]

theorem steps_cons_of_not_counts {p : String} (h : counts p = false) (ps : List String) :
    steps (p :: ps) = steps ps := by
  rw [steps, List.filter_cons_of_neg (by simp [h]), steps]

theorem components_of_absolute {path : String} {rest : List String} (hne : rest ≠ [])
    (h : parts path = "" :: rest) : components path = .root :: steps rest := by
  have habsolute : isAbsolute path = true := isAbsolute_iff.mpr ⟨rest, hne, h⟩
  rw [components, h]
  simp [habsolute, steps]

theorem components_of_relative {path first : String} {rest : List String} (hfirst : first ≠ "")
    (h : parts path = first :: rest) : components path = componentOf first :: steps rest := by
  have hrelative : ¬isAbsolute path = true := by
    rw [isAbsolute_iff]
    rintro ⟨_, _, hroot⟩
    exact hfirst (List.cons.inj (h.symm.trans hroot)).1
  rw [components, h]
  simp [hrelative, hfirst, steps]

/-- A path is empty, starts at the root, or starts with a part. -/
theorem parts_cases (path : String) :
    path = "" ∨ (∃ rest, rest ≠ [] ∧ parts path = "" :: rest) ∨
      ∃ first rest, first ≠ "" ∧ parts path = first :: rest := by
  obtain ⟨first, rest, h⟩ := List.exists_cons_of_ne_nil (parts_ne_nil path)
  by_cases hfirst : first = ""
  · by_cases hrest : rest = []
    · refine .inl (parts_injective ?_)
      rw [h, hfirst, hrest]
      rfl
    · exact .inr (.inl ⟨rest, hrest, hfirst ▸ h⟩)
  · exact .inr (.inr ⟨first, rest, hfirst, h⟩)

/-- A path that is continued behind a slash has more components. -/
theorem components_append {a : String} (ha : a ≠ "") (b : String) :
    components (a ++ "/" ++ b) = components a ++ steps (parts b) := by
  rcases parts_cases a with rfl | ⟨rest, hne, h⟩ | ⟨first, rest, hfirst, h⟩
  · exact absurd rfl ha
  · have hparts : parts (a ++ "/" ++ b) = "" :: (rest ++ parts b) := by
      rw [parts_append, h, List.cons_append]
    rw [components_of_absolute (by simp [hne]) hparts, components_of_absolute hne h, steps_append,
      List.cons_append]
  · have hparts : parts (a ++ "/" ++ b) = first :: (rest ++ parts b) := by
      rw [parts_append, h, List.cons_append]
    rw [components_of_relative hfirst hparts, components_of_relative hfirst h, steps_append,
      List.cons_append]

/-- A path that begins with a slash starts at the root. -/
theorem components_root (b : String) : components ("" ++ "/" ++ b) = .root :: steps (parts b) :=
  components_of_absolute (parts_ne_nil b) (parts_append "" b)

/-- Only the steps of what stands behind a slash matter. -/
theorem components_congr (a : String) {b c : String} (h : steps (parts b) = steps (parts c)) :
    components (a ++ "/" ++ b) = components (a ++ "/" ++ c) := by
  by_cases ha : a = ""
  · rw [ha, components_root, components_root, h]
  · rw [components_append ha, components_append ha, h]

theorem components_of_respelled {a b : String} (h : Respelled a b) :
    components a = components b := by
  cases h with
  | slashes a b =>
    have hsplit : a ++ "//" ++ b = a ++ "/" ++ ("" ++ "/" ++ b) := by
      rw [show "//" = "/" ++ ("" ++ "/") from rfl]
      simp only [String.append_assoc]
    rw [hsplit]
    apply components_congr
    rw [parts_append]
    exact steps_cons_of_not_counts rfl _
  | dot a b =>
    have hsplit : a ++ "/./" ++ b = a ++ "/" ++ ("." ++ "/" ++ b) := by
      rw [show "/./" = "/" ++ ("." ++ "/") from rfl]
      simp only [String.append_assoc]
    rw [hsplit]
    apply components_congr
    rw [parts_append]
    exact steps_cons_of_not_counts rfl _
  | lastDot a =>
    have hsplit : a ++ "/." = a ++ "/" ++ "." := by
      rw [show "/." = "/" ++ "." from rfl, String.append_assoc]
    calc components (a ++ "/.")
        = components (a ++ "/" ++ "") := by
          rw [hsplit]
          exact components_congr a (by decide)
      _ = components (a ++ "/") := by rw [String.append_empty]
  | lastSlash ha =>
    calc components (b ++ "/")
        = components (b ++ "/" ++ "") := by rw [String.append_empty]
      _ = components b ++ steps (parts "") := components_append ha ""
      _ = components b := List.append_nil _

/-- Spellings of the same path have the same components. -/
theorem SamePath.components_eq {a b : String} (h : SamePath a b) :
    components a = components b := by
  induction h with
  | rel a b h => exact components_of_respelled h
  | refl a => rfl
  | symm a b _ ih => exact ih.symm
  | trans a b c _ _ hab hbc => exact hab.trans hbc

/-! ## The shortest spelling -/

/-- A component as a part of a path. -/
def Component.part : Component → String
  | root => ""
  | current => "."
  | up => ".."
  | name s => s

/-- The shortest spelling of components. -/
def canonical (components : List Component) : String :=
  if components = [.root] then "/" else "/".intercalate (components.map Component.part)

@[simp] theorem part_componentOf (p : String) : (componentOf p).part = p := by
  unfold componentOf
  split_ifs with hdot hup
  · exact hdot.symm
  · exact hup.symm
  · rfl

theorem map_part_steps (ps : List String) : (steps ps).map Component.part = ps.filter counts := by
  rw [steps, List.map_map]
  exact List.map_id'' part_componentOf _

theorem counts_eq_false_iff {p : String} : counts p = false ↔ p = "" ∨ p = "." := by
  unfold counts
  by_cases h : p = "" <;> simp [h]

/-- Between slashes, a part that does not count can be left out. -/
theorem same_skip {p : String} (hp : counts p = false) (a b : String) :
    SamePath (a ++ "/" ++ (p ++ "/" ++ b)) (a ++ "/" ++ b) := by
  rcases counts_eq_false_iff.mp hp with rfl | rfl
  · have hsplit : a ++ "/" ++ ("" ++ "/" ++ b) = a ++ "//" ++ b := by
      rw [show "//" = "/" ++ ("" ++ "/") from rfl]
      simp only [String.append_assoc]
    rw [hsplit]
    exact (Respelled.slashes a b).same
  · have hsplit : a ++ "/" ++ ("." ++ "/" ++ b) = a ++ "/./" ++ b := by
      rw [show "/./" = "/" ++ ("." ++ "/") from rfl]
      simp only [String.append_assoc]
    rw [hsplit]
    exact (Respelled.dot a b).same

/-- Behind the last slash as well. -/
theorem same_skip_last {p : String} (hp : counts p = false) (a : String) :
    SamePath (a ++ "/" ++ p) (a ++ "/") := by
  rcases counts_eq_false_iff.mp hp with rfl | rfl
  · rw [String.append_empty]
    exact .refl _
  · have hsplit : a ++ "/" ++ "." = a ++ "/." := by
      rw [show "/." = "/" ++ "." from rfl, String.append_assoc]
    rw [hsplit]
    exact (Respelled.lastDot a).same

theorem same_intercalate_cons {a : String} (ha : a ≠ "") (ps : List String) :
    SamePath (a ++ "/" ++ "/".intercalate ps) ("/".intercalate (a :: ps)) := by
  cases ps with
  | nil =>
    have hslash := (Respelled.lastSlash ha).same
    simpa using hslash
  | cons p ps =>
    rw [String.intercalate_cons_cons]
    exact .refl _

/-- Behind a slash, all parts that do not count can be left out. -/
theorem same_intercalate_filter (a : String) (ps : List String) :
    SamePath (a ++ "/" ++ "/".intercalate ps)
      (a ++ "/" ++ "/".intercalate (ps.filter counts)) := by
  induction ps generalizing a with
  | nil => exact .refl _
  | cons p ps ih =>
    by_cases hp : counts p = true
    · rw [List.filter_cons_of_pos hp]
      cases ps with
      | nil => exact .refl _
      | cons q ps =>
        -- the part is taken to the text before the slash
        have hne : a ++ "/" ++ p ≠ "" := by simp
        have hleft : a ++ "/" ++ "/".intercalate (p :: q :: ps) =
            a ++ "/" ++ p ++ "/" ++ "/".intercalate (q :: ps) := by
          rw [String.intercalate_cons_cons]
          simp only [String.append_assoc]
        have hright : "/".intercalate ((a ++ "/" ++ p) :: (q :: ps).filter counts) =
            a ++ "/" ++ "/".intercalate (p :: (q :: ps).filter counts) :=
          String.intercalate_cons_append
        rw [hleft, ← hright]
        exact (ih _).trans (same_intercalate_cons hne _)
    · rw [List.filter_cons_of_neg hp]
      have hskip : counts p = false := by simpa using hp
      cases ps with
      | nil =>
        have hlast := same_skip_last hskip a
        simpa using hlast
      | cons q ps =>
        rw [String.intercalate_cons_cons]
        exact (same_skip hskip a _).trans (ih a)

theorem canonical_root (ps : List String) :
    canonical (.root :: steps ps) = "" ++ "/" ++ "/".intercalate (ps.filter counts) := by
  cases hfilter : ps.filter counts with
  | nil => simp [canonical, steps, hfilter]
  | cons p qs =>
    have hne : (.root :: steps ps : List Component) ≠ [.root] := by simp [steps, hfilter]
    rw [canonical, if_neg hne, List.map_cons, map_part_steps, hfilter]
    exact String.intercalate_cons_cons

theorem canonical_componentOf (first : String) (ps : List String) :
    canonical (componentOf first :: steps ps) = "/".intercalate (first :: ps.filter counts) := by
  have hroot : componentOf first ≠ .root := by
    unfold componentOf
    split_ifs <;> exact nofun
  have hne : componentOf first :: steps ps ≠ [.root] := fun h => hroot (List.cons.inj h).1
  rw [canonical, if_neg hne, List.map_cons, part_componentOf, map_part_steps]

/-- Every path is respelled to the shortest spelling of its components. -/
theorem samePath_canonical (path : String) : SamePath path (canonical (components path)) := by
  rcases parts_cases path with rfl | ⟨rest, hne, h⟩ | ⟨first, rest, hfirst, h⟩
  · exact .refl _
  · have hpath : path = "" ++ "/" ++ "/".intercalate rest := by
      rw [← String.intercalate_cons_of_ne_nil hne, ← h, intercalate_parts]
    rw [components_of_absolute hne h, canonical_root]
    nth_rewrite 1 [hpath]
    exact same_intercalate_filter "" rest
  · rw [components_of_relative hfirst h, canonical_componentOf]
    nth_rewrite 1 [← intercalate_parts path]
    rw [h]
    by_cases hrest : rest = []
    · rw [hrest]
      exact .refl _
    · rw [String.intercalate_cons_of_ne_nil hrest]
      exact (same_intercalate_filter first rest).trans (same_intercalate_cons hfirst _)

/-- **Theorem.** Spellings name one path exactly if their components agree. -/
theorem components_eq_iff {a b : String} : components a = components b ↔ SamePath a b := by
  constructor
  · intro h
    have ha := samePath_canonical a
    rw [h] at ha
    exact ha.trans (samePath_canonical b).symm
  · exact SamePath.components_eq

instance (a b : String) : Decidable (SamePath a b) :=
  decidable_of_iff _ components_eq_iff

/-- Slashes and inner dots do not matter, while a dot at the beginning and two dots do. -/
example : SamePath "a//b/./c/" "a/b/c" ∧ ¬SamePath "./a" "a" ∧ ¬SamePath "a/../b" "b" ∧
    ¬SamePath "/" "" := by
  decide +kernel

end ArchDoc.Path
