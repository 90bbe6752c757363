import ArchDoc.Store.Memory
import Mathlib.Tactic.SplitIfs

/-!
# Documents in memory

What reading gives after a change of the store: paths that agree by components are one path, and
documents at other paths are left alone.

Results:

* `get?_insert`, `get?_write`, `get?_delete`: the document at any path after a change.
-/

namespace ArchDoc.Store.Memory

theorem find?_others (store : Memory) (path other : String) :
    (store.others path).find? (·.1 == Path.components other) =
      if Path.components other = Path.components path then none
      else store.documents.find? (·.1 == Path.components other) := by
  rw [others, List.find?_filter]
  split_ifs with h
  · rw [List.find?_eq_none]
    intro e _
    simp [h]
  · congr 1
    funext e
    by_cases he : e.1 = Path.components other
    · simp [he, h]
    · simp [he]

theorem get?_insert (store : Memory) (path text other : String) :
    (store.insert path text).get? other =
      if Path.components other = Path.components path then some text else store.get? other := by
  unfold get? insert
  rw [List.find?_cons, find?_others]
  split_ifs with h
  · simp [h]
  · have hne : (Path.components path == Path.components other) = false := by
      simpa using Ne.symm h
    rw [hne]

theorem get?_write (store : Memory) (path text other : String) :
    (store.write path text).get? other =
      if Path.components other = Path.components path then some text else store.get? other :=
  get?_insert store path text other

theorem get?_delete (store : Memory) (path other : String) :
    (store.delete path).get? other =
      if Path.components other = Path.components path then none else store.get? other := by
  unfold delete
  split_ifs with hsome h h
  · unfold get?
    rw [find?_others, if_pos h]
    rfl
  · unfold get?
    rw [find?_others, if_neg h]
  · have hnone : store.get? path = none := by simpa using hsome
    unfold get? at hnone ⊢
    rw [h]
    exact hnone
  · rfl

end ArchDoc.Store.Memory
