import ArchDoc.Proofs.MemoryStore
import ArchDoc.Proofs.PathSpellings
import Mathlib.Data.List.Induction

/-!
# Runs of a store in memory

After any operations in any spellings of their paths, a document in memory is the one that was
stored last at its path, if it was not deleted since. Operations at other paths do not matter. The
store counts what is written and what is deleted, and it cannot delete more than was stored.

Main definitions:

* `Operation`, `performAll`: what can be done with a store, and the store afterwards.
* `Operation.effect`: what an operation makes of the document at a path.

Results:

* `get?_perform`, `get?_performAll`: the document at any path after one operation and after many.
* `deletes_add_length_le`: what was deleted and what is there was stored.
* `performAll_answers`: what a store answers after any operations, in terms of the operations.
-/

namespace ArchDoc.Store.Memory

open ArchDoc.Path (SamePath components_eq_iff)

/-! ## Operations -/

/-- What can be done with a store: `insert` puts a document there without counting. -/
inductive Operation where
  | insert (path text : String)
  | write (path text : String)
  | delete (path : String)
  | read (path : String)

namespace Operation

/-- The path of an operation. -/
def path : Operation → String
  | insert path _ | write path _ | delete path | read path => path

/-- What an operation makes of the document at a path, a text or nothing, if it changes that
document. -/
def effect (path : String) : Operation → Option (Option String)
  | insert other text | write other text => if SamePath other path then some (some text) else none
  | delete other => if SamePath other path then some none else none
  | read _ => none

def isInsert : Operation → Bool
  | insert _ _ => true
  | write _ _ | delete _ | read _ => false

def isWrite : Operation → Bool
  | write _ _ => true
  | insert _ _ | delete _ | read _ => false

/-- Operations change documents at their own path only. -/
theorem effect_eq_none {operation : Operation} {path : String}
    (h : ¬SamePath operation.path path) : operation.effect path = none := by
  cases operation with
  | insert other text => exact if_neg h
  | write other text => exact if_neg h
  | delete other => exact if_neg h
  | read other => rfl

end Operation

/-- The store after an operation. -/
def perform (store : Memory) : Operation → Memory
  | .insert path text => store.insert path text
  | .write path text => (DocumentStore.write store path text).1
  | .delete path => (DocumentStore.delete store path).1
  | .read _ => store

/-- The store after operations in order. -/
def performAll (store : Memory) (operations : List Operation) : Memory :=
  operations.foldl perform store

theorem performAll_concat (store : Memory) (operations : List Operation) (last : Operation) :
    store.performAll (operations ++ [last]) = (store.performAll operations).perform last := by
  rw [performAll, List.foldl_append, List.foldl_cons, List.foldl_nil, performAll]

/-! ## Documents -/

/-- An operation leaves what it makes of a document, or else the document that was there. -/
theorem get?_perform (store : Memory) (operation : Operation) (path : String) :
    (store.perform operation).get? path = (operation.effect path).getD (store.get? path) := by
  have hsame : ∀ other, Path.components path = Path.components other ↔ SamePath other path :=
    fun other => eq_comm.trans components_eq_iff
  cases operation with
  | insert other text =>
    simp only [perform, get?_insert, hsame, Operation.effect]
    split_ifs <;> rfl
  | write other text =>
    simp only [perform, DocumentStore.write, get?_write, hsame, Operation.effect]
    split_ifs <;> rfl
  | delete other =>
    simp only [perform, DocumentStore.delete, get?_delete, hsame, Operation.effect]
    split_ifs <;> rfl
  | read other => rfl

/-- The last operation that changes a document decides. -/
theorem get?_performAll (operations : List Operation) (path : String) :
    (empty.performAll operations).get? path =
      (operations.reverse.findSome? (·.effect path)).join := by
  induction operations using List.reverseRecOn with
  | nil => rfl
  | append_singleton operations last ih =>
    rw [performAll_concat, get?_perform, List.reverse_concat, List.findSome?_cons]
    cases last.effect path with
    | none => exact ih
    | some text => rfl

/-- A document has the text that was stored last, if it was not changed since. -/
theorem get?_performAll_eq_some_iff {operations : List Operation} {path text : String} :
    (empty.performAll operations).get? path = some text ↔
      ∃ before last after, operations = before ++ last :: after ∧
        last.effect path = some (some text) ∧ ∀ later ∈ after, later.effect path = none := by
  rw [get?_performAll, Option.join_eq_some_iff, List.findSome?_eq_some_iff]
  constructor
  · rintro ⟨after, last, before, hreverse, hlast, hafter⟩
    refine ⟨before.reverse, last, after.reverse, ?_, hlast, fun later hlater => ?_⟩
    · rw [← List.reverse_reverse operations, hreverse]
      simp
    · exact hafter later (List.mem_reverse.mp hlater)
  · rintro ⟨before, last, after, rfl, hlast, hafter⟩
    refine ⟨after.reverse, last, before.reverse, by simp, hlast, fun later hlater => ?_⟩
    exact hafter later (List.mem_reverse.mp hlater)

/-- Operations at other paths can be left out. -/
theorem get?_performAll_filter (operations : List Operation) (path : String) :
    (empty.performAll (operations.filter fun operation => SamePath operation.path path)).get? path =
      (empty.performAll operations).get? path := by
  induction operations using List.reverseRecOn with
  | nil => rfl
  | append_singleton operations last ih =>
    rw [List.filter_append, performAll_concat, get?_perform, ← ih]
    by_cases h : SamePath last.path path
    · rw [List.filter_cons_of_pos (by simpa using h), List.filter_nil, performAll_concat,
        get?_perform]
    · rw [List.filter_cons_of_neg (by simpa using h), List.filter_nil, List.append_nil,
        Operation.effect_eq_none h]
      rfl

/-! ## Counters -/

theorem writes_perform (store : Memory) (operation : Operation) :
    (store.perform operation).writes = store.writes + [operation].countP Operation.isWrite := by
  cases operation with
  | insert path text => rfl
  | write path text => rfl
  | delete path =>
    show (store.delete path).writes = store.writes
    unfold delete
    split_ifs <;> rfl
  | read path => rfl

/-- A store counts the writes. -/
theorem writes_performAll (operations : List Operation) :
    (empty.performAll operations).writes = operations.countP Operation.isWrite := by
  induction operations using List.reverseRecOn with
  | nil => rfl
  | append_singleton operations last ih =>
    rw [performAll_concat, writes_perform, ih, List.countP_append]

/-- An operation that deletes a document which is there. -/
def finds (store : Memory) : Operation → Bool
  | .delete path => (store.get? path).isSome
  | .insert _ _ | .write _ _ | .read _ => false

theorem deletes_perform (store : Memory) (operation : Operation) :
    (store.perform operation).deletes =
      store.deletes + if store.finds operation then 1 else 0 := by
  cases operation with
  | insert path text => rfl
  | write path text => rfl
  | delete path =>
    show (store.delete path).deletes = store.deletes + if (store.get? path).isSome then 1 else 0
    unfold delete
    split_ifs <;> rfl
  | read path => rfl

/-- Whether the operation at an index deletes a document that the operations before it left. -/
def findsAt (operations : List Operation) (index : Nat) : Bool :=
  operations[index]?.any (empty.performAll (operations.take index)).finds

/-- A store counts the deletions that find a document. -/
theorem deletes_performAll (operations : List Operation) :
    (empty.performAll operations).deletes =
      (List.range operations.length).countP (findsAt operations) := by
  induction operations using List.reverseRecOn with
  | nil => rfl
  | append_singleton operations last ih =>
    have hbefore : (List.range operations.length).countP (findsAt (operations ++ [last])) =
        (List.range operations.length).countP (findsAt operations) := by
      apply List.countP_congr
      intro index hindex
      have hlt : index < operations.length := List.mem_range.mp hindex
      rw [findsAt, findsAt, List.getElem?_append_left hlt,
        List.take_append_of_le_length (Nat.le_of_lt hlt)]
    have hlast : findsAt (operations ++ [last]) operations.length =
        (empty.performAll operations).finds last := by
      simp [findsAt]
    rw [performAll_concat, deletes_perform, ih, List.length_append, List.length_singleton,
      List.range_succ, List.countP_append, hbefore, List.countP_singleton, hlast]

/-- Fewer documents are at other paths than at all paths, if one is at this path. -/
theorem length_others_lt {store : Memory} {path : String} (h : (store.get? path).isSome = true) :
    (store.others path).length < store.documents.length := by
  rw [get?, Option.isSome_map, List.find?_isSome] at h
  obtain ⟨e, he, hpath⟩ := h
  rw [others, List.length_filter_lt_length_iff_exists]
  exact ⟨e, he, by simpa using hpath⟩

theorem length_others_le (store : Memory) (path : String) :
    (store.others path).length ≤ store.documents.length :=
  List.length_filter_le _ _

/-- A document that an operation deletes is not there any more, and one that is there more was
stored by it. -/
theorem deletes_add_length_perform_le (store : Memory) (operation : Operation) :
    (store.perform operation).deletes + (store.perform operation).documents.length ≤
      store.deletes + store.documents.length +
        ([operation].countP Operation.isWrite + [operation].countP Operation.isInsert) := by
  cases operation with
  | insert path text =>
    exact Nat.add_le_add_left (Nat.succ_le_succ (length_others_le store path)) _
  | write path text =>
    exact Nat.add_le_add_left (Nat.succ_le_succ (length_others_le store path)) _
  | delete path =>
    show (store.delete path).deletes + (store.delete path).documents.length ≤ _
    unfold delete
    split_ifs with hfound
    · have hlt := length_others_lt hfound
      dsimp only
      omega
    · exact Nat.le_refl _
  | read path => exact Nat.le_refl _

/-- What was deleted and what is there was stored. -/
theorem deletes_add_length_le (operations : List Operation) :
    (empty.performAll operations).deletes + (empty.performAll operations).documents.length ≤
      operations.countP Operation.isWrite + operations.countP Operation.isInsert := by
  induction operations using List.reverseRecOn with
  | nil => exact Nat.le_refl 0
  | append_singleton operations last ih =>
    have hstep := deletes_add_length_perform_le (empty.performAll operations) last
    rw [performAll_concat, List.countP_append, List.countP_append]
    omega

/-! ## All answers -/

/-- **Main theorem.** Paths are the same exactly if their components agree. After any operations, a
document has the text that was stored last at its path, if no later operation stored or deleted a
document at that path, and reading gives the same; operations at other paths can be left out; and
the store has counted the writes and the deletions that found a document, of which there are no more
than documents were stored. -/
theorem performAll_answers (operations : List Operation) :
    (∀ a b, SamePath a b ↔ Path.components a = Path.components b) ∧
    (∀ path text, (empty.performAll operations).get? path = some text ↔
      ∃ before last after, operations = before ++ last :: after ∧
        last.effect path = some (some text) ∧ ∀ later ∈ after, later.effect path = none) ∧
    (∀ path, DocumentStore.read (empty.performAll operations) path =
      .ok ((empty.performAll operations).get? path)) ∧
    (∀ path, (empty.performAll operations).get? path = (empty.performAll
      (operations.filter fun operation => SamePath operation.path path)).get? path) ∧
    (empty.performAll operations).writes = operations.countP Operation.isWrite ∧
    (empty.performAll operations).deletes =
      (List.range operations.length).countP (findsAt operations) ∧
    (empty.performAll operations).deletes ≤
      operations.countP Operation.isWrite + operations.countP Operation.isInsert := by
  refine ⟨fun a b => components_eq_iff.symm, fun path text => ?_, fun path => rfl, fun path => ?_,
    writes_performAll operations, deletes_performAll operations, ?_⟩
  · exact get?_performAll_eq_some_iff
  · exact (get?_performAll_filter operations path).symm
  · exact Nat.le_trans (Nat.le_add_right _ _) (deletes_add_length_le operations)

/-- Several spellings of one path and one of another path. -/
example :
    let store := empty.performAll [.write "a//b" "x", .insert "./a/b" "y", .delete "a/./b/",
      .delete "a/b", .write "c/../a/b" "z"]
    store.get? "a/b" = none ∧ store.get? "./a//b" = some "y" ∧ store.writes = 2 ∧
      store.deletes = 1 := by
  decide +kernel

end ArchDoc.Store.Memory
