import ArchDoc.Proofs.Candidates
import Mathlib.Data.List.Induction

/-!
# Endpoints by class

The rows of a class may stand anywhere among the rows of other classes. The services pass gathers
them in one loop, with a group for each class in the order in which the classes appear. Filtering
the rows of each class gives the same groups.

Main definitions:

* `classesOf`: the classes of rows, each once, in the order of their first rows.
* `filtered`: the rows of each class.

Results:

* `grouped_eq`: the loop gathers the same rows that a filter finds.
-/

namespace ArchDoc.Synthesis

open ArchDoc.Fact

/-! ## Classes -/

/-- The classes of rows, each once and in the order of their first rows. -/
def classesOf (rows : List ServiceEndpoint) : List String :=
  keepFirst id ((rows.map (·.serviceClass)).filter (!·.isEmpty))

theorem mem_classesOf {rows : List ServiceEndpoint} {className : String} :
    className ∈ classesOf rows ↔
      className ≠ "" ∧ ∃ row ∈ rows, row.serviceClass = className := by
  rw [classesOf, mem_keepFirst_id, List.mem_filter, List.mem_map, and_comm]
  simp

theorem classesOf_concat (rows : List ServiceEndpoint) (row : ServiceEndpoint) :
    classesOf (rows ++ [row]) =
      if row.serviceClass = "" ∨ row.serviceClass ∈ classesOf rows then classesOf rows
      else classesOf rows ++ [row.serviceClass] := by
  by_cases hempty : row.serviceClass = ""
  · simp [classesOf, hempty]
  · have hnamed : ((rows ++ [row]).map (·.serviceClass)).filter (!·.isEmpty) =
        (rows.map (·.serviceClass)).filter (!·.isEmpty) ++ [row.serviceClass] := by
      simp [hempty]
    rw [classesOf, hnamed, keepFirst_concat]
    simp only [hempty, false_or, classesOf, mem_keepFirst_id, List.map_id, id_eq]

/-! ## Rows gathered by class -/

theorem rowsOf_concat (rows : List ServiceEndpoint) (row : ServiceEndpoint) (className : String) :
    rowsOf (rows ++ [row]) className =
      if className = row.serviceClass then rowsOf rows className ++ [row]
      else rowsOf rows className := by
  unfold rowsOf
  rw [List.filter_append, List.filter_singleton]
  split_ifs with h
  · simp [h]
  · simp [beq_false_of_ne (Ne.symm h)]

/-- A class that does not appear has no rows. -/
theorem rowsOf_eq_nil {rows : List ServiceEndpoint} {className : String} (hne : className ≠ "")
    (h : className ∉ classesOf rows) : rowsOf rows className = [] := by
  rw [rowsOf, List.filter_eq_nil_iff]
  intro row hrow heq
  exact h (mem_classesOf.mpr ⟨hne, row, hrow, by simpa using heq⟩)

/-- The rows that a filter finds for each class. -/
def filtered (rows : List ServiceEndpoint) : Groups :=
  (classesOf rows).map fun className => (className, rowsOf rows className)

theorem map_fst_filtered (rows : List ServiceEndpoint) :
    (filtered rows).map Prod.fst = classesOf rows := by
  rw [filtered, List.map_map]
  exact List.map_id _

/-- One more row goes to the group of its class. -/
theorem filtered_concat (rows : List ServiceEndpoint) (row : ServiceEndpoint) :
    filtered (rows ++ [row]) = addToGroup (filtered rows) row := by
  have hothers : ∀ classes : List String, row.serviceClass ∉ classes →
      classes.map (fun className => (className, rowsOf (rows ++ [row]) className)) =
        classes.map fun className => (className, rowsOf rows className) := by
    intro classes habsent
    refine List.map_congr_left fun className hclass => ?_
    rw [rowsOf_concat, if_neg (ne_of_mem_of_not_mem hclass habsent)]
  rw [addToGroup, map_fst_filtered, filtered, classesOf_concat]
  split_ifs with hold hempty hknown hempty hknown
  · rw [hempty] at hothers
    exact hothers _ fun h => (mem_classesOf.mp h).1 rfl
  · rw [filtered, List.map_map]
    refine List.map_congr_left fun className _ => ?_
    rw [rowsOf_concat]
    exact apply_ite (Prod.mk className) _ _ _
  · exact absurd (hold.resolve_left hempty) hknown
  · exact absurd (.inl hempty) hold
  · exact absurd (.inr hknown) hold
  · rw [List.map_append, hothers _ hknown, List.map_singleton, rowsOf_concat, if_pos rfl,
      rowsOf_eq_nil hempty hknown, List.nil_append, filtered]

/-- The loop gathers the rows that a filter finds. -/
theorem grouped_eq (rows : List ServiceEndpoint) : grouped rows = filtered rows := by
  induction rows using List.reverseRecOn with
  | nil => rfl
  | append_singleton rows row ih =>
    rw [filtered_concat, ← ih, grouped, List.foldl_append, List.foldl_cons, List.foldl_nil,
      grouped]

end ArchDoc.Synthesis
