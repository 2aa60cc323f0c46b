import Mathlib.Data.List.Basic
import SymbolAtlas.Text.Spacing

/-!
# Canonical spacing

Text in canonical spacing is left as it is: the blanks that are written are those that would be
written again. Only the blank behind a comma at the very end is dropped, and put back for as long as
the text is read again.
-/

set_option autoImplicit false

namespace SymbolAtlas.Text

variable (last : Option Char)

theorem spaceFrom_gap {last : Option Char} (h : last.any isWordChar = false) (gap : Bool)
    (cs : List Char) : spaceFrom last gap cs = spaceFrom last false cs := by
  cases cs with
  | nil => rfl
  | cons c rest =>
    unfold spaceFrom
    simp [h]

section

variable (gap : Bool) (cs : List Char)

theorem spaceFrom_append_blank {b : Char} (hb : isBlank b = true) :
    spaceFrom last gap (cs ++ [b]) = spaceFrom last gap cs := by
  induction cs generalizing last gap with
  | nil => simp [spaceFrom, hb]
  | cons c rest ih => simp only [List.cons_append, spaceFrom, ih]

theorem spaceFrom_blank : spaceFrom last gap (' ' :: cs) = spaceFrom last true cs := by
  rw [spaceFrom, if_pos (by decide)]

/-- Spacing a text that is spaced already changes nothing. -/
theorem spaceFrom_spaceFrom :
    spaceFrom last false (spaceFrom last gap cs) = spaceFrom last gap cs := by
  have hcomma : isWordChar ',' = false := by decide +kernel
  have hspace : (some ' ').any isWordChar = false := by decide +kernel
  induction cs generalizing last gap with
  | nil => rfl
  | cons c rest ih =>
    rw [spaceFrom]
    by_cases hblank : isBlank c = true
    · rw [if_pos hblank]
      exact ih last true
    · rw [if_neg hblank]
      by_cases hc : c = ','
      · -- The blank behind the comma is passed over and written again.
        subst hc
        rw [hcomma, Bool.and_false, if_neg Bool.false_ne_true, if_pos (beq_self_eq_true ','),
          List.nil_append, spaceFrom, if_neg hblank]
        rw [hcomma, Bool.and_false, if_neg Bool.false_ne_true, if_pos (beq_self_eq_true ','),
          spaceFrom_blank, spaceFrom_gap hspace, ih, List.nil_append]
      · have hne : ¬ (c == ',') = true := by simpa using hc
        rw [if_neg hne]
        by_cases hjoint : (gap && last.any isWordChar && isWordChar c) = true
        · -- The blank between two words is passed over, and so is a gap again.
          have hwords : (last.any isWordChar && isWordChar c) = true := by
            simp only [Bool.and_eq_true] at hjoint ⊢
            exact ⟨hjoint.1.2, hjoint.2⟩
          rw [if_pos hjoint, List.cons_append, List.nil_append, spaceFrom_blank, spaceFrom,
            if_neg hblank]
          rw [if_neg hne, Bool.true_and, if_pos hwords, ih, List.cons_append, List.nil_append]
        · rw [if_neg hjoint, List.nil_append, spaceFrom, if_neg hblank]
          rw [if_neg hne, Bool.false_and, Bool.false_and, if_neg Bool.false_ne_true, ih,
            List.nil_append]

/-- Canonical spacing is canonical already. -/
theorem normalize_normalize : normalize (normalize cs) = normalize cs := by
  have hspaced := spaceFrom_spaceFrom none false cs
  unfold normalize
  generalize spaceFrom none false cs = spaced at hspaced
  suffices hagain : spaceFrom none false (dropFinalSpace spaced) = spaced by rw [hagain]
  unfold dropFinalSpace
  split
  · next hlast =>
    have hsplit : spaced.dropLast ++ [' '] = spaced :=
      List.dropLast_append_getLast? ' ' (eq_of_beq hlast)
    rw [← spaceFrom_append_blank none false spaced.dropLast (b := ' ') (by decide), hsplit]
    exact hspaced
  · exact hspaced

end

theorem normalized_normalized (s : String) : normalized (normalized s) = normalized s := by
  unfold normalized
  rw [String.toList_ofList, normalize_normalize]

end SymbolAtlas.Text
