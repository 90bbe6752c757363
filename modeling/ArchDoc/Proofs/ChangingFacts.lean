import ArchDoc.Proofs.Cycles
import ArchDoc.Proofs.PlaceholderText

/-!
# The document under changing facts

The content of a document after one cycle for each of any number of facts, in closed form. A
document with content of its own follows the last facts that give a text. A placeholder waits for
the first facts only: it is filled, or deleted for good. An absent document is reserved by the
first cycle, whatever its facts, and is a placeholder from then on.

Results:

* `content_afterAll_of_filled`, `content_afterAll_of_placeholder`, `content_afterAll_of_gone`: the
  three regimes, from any state of a regenerator.
* `run_fresh_content`: the closed form, from a fresh regenerator over any documents.
-/

namespace ArchDoc.Lifecycle

open Synthesis (synthesizeText)

/-! ## The closed form -/

/-- The text of the last facts that give one. -/
def lastText (synthesis : Synthesis.Config) (snapshots : List Facts) : Option String :=
  (snapshots.filterMap (synthesizeText · synthesis)).getLast?

/-- What becomes of a placeholder: it is deleted for good if the first facts give no text. -/
def resolved (synthesis : Synthesis.Config) (placeholder : String) : List Facts → Option String
  | [] => some placeholder
  | facts :: snapshots =>
    match synthesizeText facts synthesis with
    | none => none
    | some _ => lastText synthesis (facts :: snapshots)

/-- The document after one cycle for each of the given facts, from what it was before the first. -/
def contentAfter (synthesis : Synthesis.Config) (snapshots : List Facts) :
    Option String → Option String
  | some initial =>
    if isPlaceholder initial then resolved synthesis initial snapshots
    else (lastText synthesis snapshots).or (some initial)
  | none =>
    match snapshots with
    | [] => none
    | _ :: snapshots => resolved synthesis placeholderText snapshots

theorem lastText_cons (synthesis : Synthesis.Config) (facts : Facts) (snapshots : List Facts) :
    lastText synthesis (facts :: snapshots) =
      (lastText synthesis snapshots).or (synthesizeText facts synthesis) := by
  unfold lastText
  rw [List.filterMap_cons]
  cases synthesizeText facts synthesis with
  | none => simp
  | some text => simp [List.getLast?_cons, Option.or_some]

theorem isPlaceholder_synthesizeText {facts : Facts} {synthesis : Synthesis.Config} {text : String}
    (h : synthesizeText facts synthesis = some text) : isPlaceholder text = false := by
  obtain ⟨document, _, rfl⟩ := Option.map_eq_some_iff.mp h
  exact isPlaceholder_render document

namespace Regenerator

open Store (Memory)

variable {r : Regenerator Memory}

@[simp] theorem afterAll_cons (r : Regenerator Memory) (facts : Facts) (snapshots : List Facts) :
    r.afterAll (facts :: snapshots) = (r.after facts).afterAll snapshots := rfl

theorem config_afterAll (r : Regenerator Memory) (snapshots : List Facts) :
    (r.afterAll snapshots).config = r.config := by
  induction snapshots generalizing r with
  | nil => rfl
  | cons facts snapshots ih => rw [afterAll_cons, ih, config_after]

/-! ## The three regimes -/

/-- After the first cycle nothing brings an absent document back. -/
theorem content_afterAll_of_gone (habsent : r.content = none) (hcycles : r.cycles ≠ 0)
    (snapshots : List Facts) : (r.afterAll snapshots).content = none := by
  induction snapshots generalizing r with
  | nil => exact habsent
  | cons facts snapshots ih =>
    have hnext : (r.after facts).content = none := by
      rw [content_after_of_absent r facts habsent, if_neg (fun h => hcycles h.1)]
    exact ih hnext (Nat.succ_ne_zero r.cycles)

/-- A document with content of its own follows the last facts that give a text. -/
theorem content_afterAll_of_filled {text : String} (htext : r.content = some text)
    (hfilled : isPlaceholder text = false) (snapshots : List Facts) :
    (r.afterAll snapshots).content = (lastText r.synthesis snapshots).or (some text) := by
  induction snapshots generalizing r text with
  | nil => exact htext
  | cons facts snapshots ih =>
    have hnext := content_after_of_present r facts (by rw [htext]; exact Option.some_ne_none text)
    rw [htext, Option.filter_some, hfilled, Bool.not_false, if_pos rfl] at hnext
    rw [afterAll_cons, lastText_cons, Option.or_assoc]
    cases hgiven : synthesizeText facts r.synthesis with
    | none =>
      rw [hgiven, Option.none_or] at hnext
      exact ih hnext hfilled
    | some given =>
      -- the text that is written is a document, so the next cycle finds no placeholder either
      rw [hgiven, Option.some_or] at hnext
      exact ih hnext (isPlaceholder_synthesizeText hgiven)

/-- The first facts decide what becomes of a placeholder. -/
theorem content_afterAll_of_placeholder {text : String} (htext : r.content = some text)
    (hplaceholder : isPlaceholder text) (snapshots : List Facts) :
    (r.afterAll snapshots).content = resolved r.synthesis text snapshots := by
  cases snapshots with
  | nil => exact htext
  | cons facts snapshots =>
    have hnext := content_after_of_present r facts (by rw [htext]; exact Option.some_ne_none text)
    rw [htext, Option.filter_some, hplaceholder, Bool.not_true, if_neg Bool.false_ne_true,
      Option.or_none] at hnext
    rw [afterAll_cons, resolved]
    cases hgiven : synthesizeText facts r.synthesis with
    | none =>
      rw [hgiven] at hnext
      exact content_afterAll_of_gone hnext (Nat.succ_ne_zero r.cycles) snapshots
    | some given =>
      rw [hgiven] at hnext
      dsimp only
      rw [lastText_cons, hgiven]
      exact content_afterAll_of_filled hnext (isPlaceholder_synthesizeText hgiven) snapshots

/-! ## From the first cycle -/

theorem content_afterAll_fresh (store : Memory) (config : Config) (synthesis : Synthesis.Config)
    (snapshots : List Facts) :
    ((fresh store config synthesis).afterAll snapshots).content =
      contentAfter synthesis snapshots (store.get? config.path) := by
  have hcontent := content_fresh store config synthesis
  cases hinitial : store.get? config.path with
  | some initial =>
    rw [hinitial] at hcontent
    rw [contentAfter]
    split_ifs with hplaceholder
    · exact content_afterAll_of_placeholder hcontent hplaceholder snapshots
    · exact content_afterAll_of_filled hcontent (Bool.eq_false_iff.mpr hplaceholder) snapshots
  | none =>
    cases snapshots with
    | nil => exact hcontent.trans hinitial
    | cons facts snapshots =>
      have hreserved := content_after_fresh synthesis facts hinitial
      rw [afterAll_cons]
      exact content_afterAll_of_placeholder hreserved isPlaceholder_placeholderText snapshots

/-- A run from a fresh regenerator over documents in memory succeeds, and leaves the document
that the closed form gives. -/
theorem run_fresh_content (store : Memory) (config : Config) (synthesis : Synthesis.Config)
    (snapshots : List Facts) :
    ∃ r actions, (fresh store config synthesis).run snapshots = (r, .ok actions) ∧
      actions.length = snapshots.length ∧
      r.store.get? config.path =
        contentAfter synthesis snapshots (store.get? config.path) := by
  refine ⟨_, _, run_eq (fresh store config synthesis) snapshots, length_decisions _ snapshots, ?_⟩
  have hpath : ((fresh store config synthesis).afterAll snapshots).config.path = config.path :=
    congrArg Config.path (config_afterAll (fresh store config synthesis) snapshots)
  have hcontent := content_afterAll_fresh store config synthesis snapshots
  rw [content, hpath] at hcontent
  exact hcontent

end Regenerator

end ArchDoc.Lifecycle
