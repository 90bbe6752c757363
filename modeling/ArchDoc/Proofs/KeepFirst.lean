import Mathlib.Data.List.Nodup
import Mathlib.Tactic.SplitIfs

/-!
# The first element of each key

Absorbing entries by identifier, registering a class once and skipping rows already seen are one
operation on lists: of the elements that share a key, the first one stays.

Results:

* `filter_keepFirst_cons_of_mem`, `filter_keepFirst_cons_of_not_mem`: one step of a loop that
  remembers the keys it has seen.
* `keepFirst_concat`: what happens to an element that comes last; this is the step of every loop
  that absorbs by key.
* `keepFirst_append_congr`, `keepFirst_keepFirst_append`: elements that are dropped do not matter
  for what comes before or after them.
* `prefix_keepFirst`, `prefix_keepFirst_append`: what follows only adds to what is kept, and
  elements with distinct keys are not disturbed by it.
* `find?_keepFirst`, `nodup_map_keepFirst`, `mem_map_keepFirst`: the element kept under a key is
  the first one, each key occurs once, and no key is lost.
* `find?_keepFirst_of_key`: searches by key do not see what is left out.
* `FirstOf.mem_keepFirst`: the first element of its key is kept.
* `eraseDups_eq_keepFirst`: duplicates are elements that are their own keys.
-/

namespace ArchDoc

variable {α κ : Type} [DecidableEq κ]

/-- The first element of each key, in order. -/
def keepFirst (key : α → κ) : List α → List α
  | [] => []
  | a :: rest => a :: (keepFirst key rest).filter fun b => key b ≠ key a

@[simp] theorem keepFirst_nil (key : α → κ) : keepFirst key [] = [] :=
  rfl

theorem keepFirst_cons (key : α → κ) (a : α) (rest : List α) :
    keepFirst key (a :: rest) = a :: (keepFirst key rest).filter fun b => key b ≠ key a :=
  rfl

theorem keepFirst_sublist (key : α → κ) (as : List α) : (keepFirst key as).Sublist as := by
  induction as with
  | nil => exact List.Sublist.refl []
  | cons a rest ih => exact (List.filter_sublist.trans ih).cons_cons a

theorem mem_of_mem_keepFirst {key : α → κ} {as : List α} {a : α} (h : a ∈ keepFirst key as) :
    a ∈ as :=
  (keepFirst_sublist key as).subset h

theorem head?_keepFirst (key : α → κ) (as : List α) : (keepFirst key as).head? = as.head? := by
  cases as <;> rfl

/-! ## Filtering by key -/

/-- Leaving out keys before or after makes no difference. -/
theorem filter_keepFirst (key : α → κ) (p : κ → Bool) (as : List α) :
    (keepFirst key as).filter (fun a => p (key a)) =
      keepFirst key (as.filter fun a => p (key a)) := by
  induction as with
  | nil => rfl
  | cons a rest ih =>
    rw [keepFirst_cons, List.filter_cons, List.filter_cons, List.filter_filter]
    split_ifs with h
    · rw [keepFirst_cons, ← ih, List.filter_filter]
      simp only [Bool.and_comm]
    · rw [← ih]
      apply List.filter_congr
      intro b _
      -- an element left out for the key of `a` would be left out by `p` as well
      by_cases hb : key b = key a
      · simp [hb, h]
      · simp [hb]

/-- Elements whose key occurs earlier are left out. -/
theorem keepFirst_append (key : α → κ) (as bs : List α) :
    keepFirst key (as ++ bs) =
      keepFirst key as ++ keepFirst key (bs.filter fun b => key b ∉ as.map key) := by
  induction as with
  | nil => simp
  | cons a rest ih =>
    rw [List.cons_append, keepFirst_cons, keepFirst_cons, ih, List.filter_append,
      List.cons_append]
    congr 2
    rw [filter_keepFirst key (fun k => k ≠ key a), List.filter_filter]
    congr 1
    apply List.filter_congr
    intro b _
    by_cases h : key b = key a <;> simp [h]

/-- What follows only adds to what is kept. -/
theorem prefix_keepFirst (key : α → κ) {as bs : List α} (h : as <+: bs) :
    keepFirst key as <+: keepFirst key bs := by
  obtain ⟨more, rfl⟩ := h
  rw [keepFirst_append]
  exact List.prefix_append _ _

/-- Elements whose keys all occur earlier add nothing. -/
theorem keepFirst_append_of_keys {key : α → κ} {as bs : List α}
    (h : ∀ b ∈ bs, key b ∈ as.map key) : keepFirst key (as ++ bs) = keepFirst key as := by
  have hnil : (bs.filter fun b => key b ∉ as.map key) = [] := by
    rw [List.filter_eq_nil_iff]
    intro b hb
    simpa using h b hb
  rw [keepFirst_append, hnil, keepFirst_nil, List.append_nil]

/-! ## Keys seen before -/

/-- A loop with the keys it has seen passes over an element whose key is among them. -/
theorem filter_keepFirst_cons_of_mem {key : α → κ} {a : α} {seen : List κ} (h : key a ∈ seen)
    (rest : List α) :
    (keepFirst key (a :: rest)).filter (fun b => key b ∉ seen) =
      (keepFirst key rest).filter fun b => key b ∉ seen := by
  rw [keepFirst_cons, List.filter_cons_of_neg (by simp [h]), List.filter_filter]
  apply List.filter_congr
  intro b _
  -- later elements with the key of `a` are left out in any case
  by_cases hb : key b = key a
  · simp [hb, h]
  · simp [hb]

/-- Such a loop keeps an element whose key is new and has then seen that key. -/
theorem filter_keepFirst_cons_of_not_mem {key : α → κ} {a : α} {seen : List κ}
    (h : key a ∉ seen) (rest : List α) :
    (keepFirst key (a :: rest)).filter (fun b => key b ∉ seen) =
      a :: (keepFirst key rest).filter fun b => key b ∉ key a :: seen := by
  rw [keepFirst_cons, List.filter_cons_of_pos (by simp [h]), List.filter_filter]
  congr 1
  apply List.filter_congr
  intro b _
  simp [not_or, Bool.and_comm]

/-! ## The last element -/

/-- An element that comes last is kept unless its key occurs before. -/
theorem keepFirst_concat (key : α → κ) (as : List α) (a : α) :
    keepFirst key (as ++ [a]) =
      if key a ∈ as.map key then keepFirst key as else keepFirst key as ++ [a] := by
  rw [keepFirst_append, List.filter_singleton]
  split_ifs with h
  · simp only [h, not_true, decide_false, cond_false, keepFirst_nil, List.append_nil]
  · simp only [h, not_false_eq_true, decide_true, cond_true, keepFirst_cons, keepFirst_nil,
      List.filter_nil]

/-! ## Keys -/

theorem keepFirst_map {γ : Type} (key : α → κ) (f : γ → α) (cs : List γ) :
    keepFirst key (cs.map f) = (keepFirst (fun c => key (f c)) cs).map f := by
  induction cs with
  | nil => rfl
  | cons c rest ih =>
    rw [List.map_cons, keepFirst_cons, keepFirst_cons, ih, List.map_cons, List.filter_map]
    rfl

theorem mem_map_keepFirst {key : α → κ} {as : List α} {k : κ} :
    k ∈ (keepFirst key as).map key ↔ k ∈ as.map key := by
  induction as with
  | nil => rfl
  | cons a rest ih =>
    by_cases h : k = key a
    · simp [keepFirst_cons, h]
    · have hiff : k ∈ ((keepFirst key rest).filter fun b => key b ≠ key a).map key ↔
          k ∈ (keepFirst key rest).map key := by
        constructor
        · intro hk
          exact (List.filter_sublist.map key).subset hk
        · intro hk
          obtain ⟨b, hb, rfl⟩ := List.mem_map.mp hk
          exact List.mem_map_of_mem (List.mem_filter.mpr ⟨hb, by simpa using h⟩)
      rw [keepFirst_cons, List.map_cons, List.map_cons, List.mem_cons, List.mem_cons, hiff, ih]

/-- Elements that are their own keys are not lost. -/
theorem mem_keepFirst_id {ks : List κ} {k : κ} : k ∈ keepFirst id ks ↔ k ∈ ks := by
  have hkeys : k ∈ (keepFirst id ks).map id ↔ k ∈ ks.map id := mem_map_keepFirst
  rwa [List.map_id, List.map_id] at hkeys

theorem nodup_map_keepFirst (key : α → κ) (as : List α) : ((keepFirst key as).map key).Nodup := by
  induction as with
  | nil => exact List.nodup_nil
  | cons a rest ih =>
    rw [keepFirst_cons, List.map_cons, List.nodup_cons]
    constructor
    · simp
    · exact ih.sublist (List.filter_sublist.map key)

/-- A search by key finds the same element among those kept. -/
theorem find?_keepFirst_of_key (key : α → κ) (p : κ → Bool) (as : List α) :
    (keepFirst key as).find? (fun a => p (key a)) = as.find? fun a => p (key a) := by
  rw [← List.head?_filter, filter_keepFirst, head?_keepFirst, List.head?_filter]

/-- The element kept under a key is the first one that has it. -/
theorem find?_keepFirst (key : α → κ) (as : List α) (k : κ) :
    (keepFirst key as).find? (fun a => key a = k) = as.find? fun a => key a = k :=
  find?_keepFirst_of_key key (fun other => decide (other = k)) as

/-! ## First elements of their keys -/

/-- An element is the first one of its key in a list. -/
def FirstOf (key : α → κ) (as : List α) (a : α) : Prop :=
  ∃ before after, as = before ++ a :: after ∧ ∀ b ∈ before, key b ≠ key a

theorem FirstOf.find?_eq {key : α → κ} {as : List α} {a : α} (h : FirstOf key as a) :
    as.find? (fun b => key b = key a) = some a := by
  obtain ⟨before, after, rfl, hbefore⟩ := h
  have hnone : before.find? (fun b => key b = key a) = none := by simpa using hbefore
  rw [List.find?_append, hnone, Option.none_or, List.find?_cons_of_pos (by simp)]

theorem FirstOf.mem_keepFirst {key : α → κ} {as : List α} {a : α} (h : FirstOf key as a) :
    a ∈ keepFirst key as := by
  have hfind := h.find?_eq
  rw [← find?_keepFirst] at hfind
  exact List.mem_of_find?_eq_some hfind

/-! ## Duplicates -/

theorem eraseDups_eq_keepFirst : ∀ as : List κ, as.eraseDups = keepFirst id as
  | [] => rfl
  | a :: rest => by
    rw [List.eraseDups_cons, eraseDups_eq_keepFirst (rest.filter fun b => !b == a),
      keepFirst_cons, filter_keepFirst id fun k => decide (k ≠ id a)]
    congr 2
    apply List.filter_congr
    intro b _
    by_cases hb : b = a <;> simp [hb]
termination_by as => as.length
decreasing_by exact Nat.lt_succ_of_le (List.length_filter_le _ _)

/-! ## Keeping the first elements twice -/

theorem keepFirst_eq_self {key : α → κ} {as : List α} (h : (as.map key).Nodup) :
    keepFirst key as = as := by
  induction as with
  | nil => rfl
  | cons a rest ih =>
    rw [List.map_cons, List.nodup_cons] at h
    rw [keepFirst_cons, ih h.2, List.filter_eq_self.mpr]
    intro b hb
    simp only [decide_eq_true_eq]
    intro heq
    exact h.1 (heq ▸ List.mem_map_of_mem hb)

theorem keepFirst_idem (key : α → κ) (as : List α) :
    keepFirst key (keepFirst key as) = keepFirst key as :=
  keepFirst_eq_self (nodup_map_keepFirst key as)

/-- Elements with distinct keys stay in front of those that follow. -/
theorem prefix_keepFirst_append {key : α → κ} {as : List α} (h : (as.map key).Nodup)
    (bs : List α) : as <+: keepFirst key (as ++ bs) := by
  rw [keepFirst_append, keepFirst_eq_self h]
  exact List.prefix_append as _

/-- Of elements that follow others, only the first ones of each key matter. -/
theorem keepFirst_append_congr {key : α → κ} {bs bs' : List α}
    (h : keepFirst key bs = keepFirst key bs') (as : List α) :
    keepFirst key (as ++ bs) = keepFirst key (as ++ bs') := by
  rw [keepFirst_append, keepFirst_append, ← filter_keepFirst key fun k => decide (k ∉ as.map key),
    ← filter_keepFirst key fun k => decide (k ∉ as.map key), h]

/-- Elements that were dropped once do not matter later on. -/
theorem keepFirst_keepFirst_append (key : α → κ) (as bs : List α) :
    keepFirst key (keepFirst key as ++ bs) = keepFirst key (as ++ bs) := by
  rw [keepFirst_append, keepFirst_append key as, keepFirst_idem]
  simp only [mem_map_keepFirst]

end ArchDoc
