import DocFacts.Text.Blank
import DocFacts.Text.Escape

/-!
# Backslashes looked back at

`isEscaped` counts the backslashes in front of a position.  Going one character on changes its
answer in the plainest way: behind a backslash the answer flips, and behind any other character
it is `false`.  So nothing in front of a character that is no backslash matters behind it, which
is why a slice of a text that starts behind such a character can be read on its own.
-/

namespace DocFacts.Text

@[simp] theorem isEscaped_nil : isEscaped [] = false := rfl

/-- Behind a backslash the answer flips. -/
@[simp] theorem isEscaped_backslash_cons (past : List Char) :
    isEscaped ('\\' :: past) = !isEscaped past := by
  simp only [isEscaped, List.takeWhile_cons, beq_self_eq_true, if_true, List.length_cons]
  rcases Nat.mod_two_eq_zero_or_one (past.takeWhile (· == '\\')).length with h | h
  · simp [h, Nat.add_mod]
  · simp [h, Nat.add_mod]

/-- Behind any other character nothing is escaped. -/
theorem isEscaped_cons_of_ne {c : Char} (h : c ≠ '\\') (past : List Char) :
    isEscaped (c :: past) = false := by
  simp [isEscaped, h]

/-- Texts that escape what stands behind them alike do so with one character more. -/
theorem isEscaped_cons_congr {past past' : List Char} (h : isEscaped past = isEscaped past')
    (c : Char) : isEscaped (c :: past) = isEscaped (c :: past') := by
  by_cases hc : c = '\\'
  · subst hc
    simp [h]
  · simp [isEscaped_cons_of_ne hc]

/-- In front of what escapes nothing, what stands there makes no difference. -/
theorem isEscaped_append {front : List Char} (h : isEscaped front = false) (past : List Char) :
    isEscaped (past ++ front) = isEscaped past := by
  induction past with
  | nil => exact h
  | cons c past ih => exact isEscaped_cons_congr ih c

/-- What stands in front of a character that is no backslash makes no difference behind it. -/
theorem isEscaped_append_cons {c : Char} (h : c ≠ '\\') (past front : List Char) :
    isEscaped (past ++ c :: front) = isEscaped past :=
  isEscaped_append (isEscaped_cons_of_ne h front) past

/-- Blank characters escape nothing. -/
theorem isEscaped_blanks {blanks : List Char} (h : ∀ c ∈ blanks, isBlank c = true) :
    isEscaped blanks = false := by
  cases blanks with
  | nil => rfl
  | cons c blanks =>
    refine isEscaped_cons_of_ne ?_ blanks
    rintro rfl
    have hblank := h '\\' List.mem_cons_self
    cases hblank

end DocFacts.Text
