import ArchDoc.Document
import ArchDoc.Lifecycle.Phase
import Mathlib.Tactic.SplitIfs

/-!
# Documents are no placeholders

The text of a document starts with an opening brace and a line break and ends with a closing
brace. So there is nothing to trim, and the text is neither blank nor an empty object: what
regeneration writes is never taken for a placeholder.

Results:

* `trim_eq_self`: a text without blanks at its ends is its own trimmed form.
* `isPlaceholder_render`: no document is a placeholder.
-/

namespace ArchDoc

namespace Text

theorem trimChars_eq_self {first last : Char} (hfirst : isBlank first = false)
    (hlast : isBlank last = false) (middle : List Char) :
    trimChars (first :: middle ++ [last]) = first :: middle ++ [last] := by
  have hfront : (first :: middle ++ [last]).dropWhile isBlank = first :: middle ++ [last] := by
    rw [List.cons_append, List.dropWhile_cons, hfirst]
    rfl
  have hback : (first :: middle ++ [last]).reverse.dropWhile isBlank =
      (first :: middle ++ [last]).reverse := by
    rw [List.reverse_append, List.reverse_singleton, List.singleton_append, List.dropWhile_cons,
      hlast]
    rfl
  rw [trimChars, hfront, hback, List.reverse_reverse]

/-- A text that neither starts nor ends with a blank is its own trimmed form. -/
theorem trim_eq_self {s : String} {first last : Char} {middle : List Char}
    (hs : s.toList = first :: middle ++ [last]) (hfirst : isBlank first = false)
    (hlast : isBlank last = false) : trim s = s := by
  rw [trim, hs, trimChars_eq_self hfirst hlast, ← hs, String.ofList_toList]

end Text

/-! ## The text of a document -/

/-- A document is written as an object on several lines. -/
theorem Document.toList_render (document : Document) :
    ∃ middle, document.render.toList = '\x7b' :: ('\n' :: middle) ++ ['\x7d'] := by
  unfold Document.render Document.toJson Json.pretty
  rw [String.toList_ofList]
  exact ⟨_, rfl⟩

namespace Lifecycle

theorem isPlaceholder_placeholderText : isPlaceholder placeholderText = true := by
  decide +kernel

/-- No document is a placeholder. -/
theorem isPlaceholder_render (document : Document) : isPlaceholder document.render = false := by
  obtain ⟨middle, hmiddle⟩ := document.toList_render
  have htrim : Text.trim document.render = document.render :=
    Text.trim_eq_self hmiddle (by decide) (by decide)
  have hempty : document.render.isEmpty = false := by
    rw [Bool.eq_false_iff, ne_eq, String.isEmpty_iff]
    intro h
    rw [h] at hmiddle
    exact absurd hmiddle (by simp)
  have hne : document.render ≠ placeholderText := by
    intro h
    rw [h] at hmiddle
    have hbraces : placeholderText.toList = ['\x7b', '\x7d'] := by decide +kernel
    rw [hbraces] at hmiddle
    simp at hmiddle
  rw [isPlaceholder, htrim, hempty, Bool.false_or, beq_eq_false_iff_ne]
  exact hne

end Lifecycle

end ArchDoc
