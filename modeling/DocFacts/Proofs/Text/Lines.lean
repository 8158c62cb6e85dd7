import DocFacts.Proofs.Text.Blank
import DocFacts.Text.Search
import Mathlib.Data.List.DropRight

/-!
# Lines one by one

The lines of a text are those up to a line end and those behind it (`lines_append`).  A text that is
not empty has a first line, which is what stands in front of its first line feed, up to a carriage
return (`exists_lines_eq`).
-/

namespace DocFacts.Text

/-- A line starts behind the text. -/
def EndsLine (text : List Char) : Prop := text = [] ∨ text.getLast? = some '\n'

/-- What stands in front of the first line feed. -/
def firstLine (text : List Char) : List Char := text.takeWhile (· ≠ '\n')

/-- What stands behind the first line feed. -/
def nextLines (text : List Char) : List Char := (text.dropWhile (· ≠ '\n')).drop 1

theorem firstLine_append {line : List Char} (h : '\n' ∉ line) (rest : List Char) :
    firstLine (line ++ rest) = line ++ firstLine rest :=
  List.takeWhile_append_of_pos fun c hc => by simpa using fun (heq : c = '\n') => h (heq ▸ hc)

theorem nextLines_append {line : List Char} (h : '\n' ∉ line) (rest : List Char) :
    nextLines (line ++ rest) = nextLines rest := by
  have hdrop : (line ++ rest).dropWhile (· ≠ '\n') = rest.dropWhile (· ≠ '\n') :=
    List.dropWhile_append_of_pos fun c hc => by simpa using fun (heq : c = '\n') => h (heq ▸ hc)
  rw [nextLines, hdrop, nextLines]

theorem firstLine_dropWhile (text : List Char) : firstLine (text.dropWhile (· ≠ '\n')) = [] :=
  List.takeWhile_eq_nil_iff.2 fun hpos => by
    simpa using List.dropWhile_get_zero_not _ text hpos

theorem nextLines_dropWhile (text : List Char) :
    nextLines (text.dropWhile (· ≠ '\n')) = nextLines text := by
  rw [nextLines, List.dropWhile_idempotent, nextLines]

/-! ## Reading lines -/

theorem lines_go_newline (line rest : List Char) :
    lines.go line ('\n' :: rest) = (lines.dropReturn line).reverse :: lines.go [] rest := by
  rw [lines.go]

theorem lines_go_cons {c : Char} (h : c ≠ '\n') (line rest : List Char) :
    lines.go line (c :: rest) = lines.go (c :: line) rest := by
  rw [lines.go]
  exact h

theorem lines_go_append {text : List Char} (h : '\n' ∉ text) (line rest : List Char) :
    lines.go line (text ++ rest) = lines.go (text.reverse ++ line) rest := by
  induction text generalizing line with
  | nil => rfl
  | cons c text ih =>
    obtain ⟨hc, htext⟩ := List.ne_and_not_mem_of_not_mem_cons h
    rw [List.cons_append, lines_go_cons hc.symm, ih htext, List.reverse_cons, List.append_assoc,
      List.singleton_append]

theorem lines_go_append_newline (line text rest : List Char) :
    lines.go line (text ++ '\n' :: rest) =
      lines.go line (text ++ ['\n']) ++ lines.go [] rest := by
  induction text generalizing line with
  | nil => rw [List.nil_append, lines_go_newline]; rfl
  | cons c text ih =>
    by_cases hc : c = '\n'
    · rw [hc, List.cons_append, List.cons_append, lines_go_newline, lines_go_newline, ih,
        List.cons_append]
    · rw [List.cons_append, List.cons_append, lines_go_cons hc, lines_go_cons hc, ih]

/-- Lines are read one behind the other. -/
theorem lines_append {text : List Char} (h : EndsLine text) (rest : List Char) :
    lines (text ++ rest) = lines text ++ lines rest := by
  rcases h with rfl | hlast
  · rfl
  · obtain ⟨front, rfl⟩ := List.getLast?_eq_some_iff.1 hlast
    rw [List.append_assoc, List.singleton_append]
    exact lines_go_append_newline [] front rest

/-- A carriage return at the end of a line is trimmed anyway. -/
theorem trim_reverse_dropReturn (line : List Char) :
    trim (lines.dropReturn line).reverse = trim line.reverse := by
  rw [lines.dropReturn.eq_def]
  split
  · have hreturn : isBlank '\r' = true := by decide
    rw [List.reverse_cons, trim_append (List.forall_mem_singleton.2 hreturn)]
  · rfl

/-- The first line of a text and those behind it. -/
theorem exists_lines_eq {text : List Char} (h : text ≠ []) :
    ∃ line, lines text = line :: lines (nextLines text) ∧ trim line = trim (firstLine text) := by
  have hline : '\n' ∉ firstLine text := fun hmem => by
    simpa using List.all_eq_true.1 (List.all_takeWhile (p := (· ≠ '\n')) (l := text)) _ hmem
  have htext : firstLine text ++ text.dropWhile (· ≠ '\n') = text :=
    List.takeWhile_append_dropWhile
  have hlines := lines_go_append hline [] (text.dropWhile (· ≠ '\n'))
  rw [htext, List.append_nil, ← lines] at hlines
  cases hdrop : text.dropWhile (· ≠ '\n') with
  | nil =>
    rw [hdrop, List.append_nil] at htext
    refine ⟨text, ?_, by rw [htext]⟩
    have hne : text.reverse.isEmpty = false := by simpa using h
    rw [hlines, hdrop, htext, lines.go, hne, nextLines, hdrop, List.reverse_reverse]
    rfl
  | cons c rest =>
    have hc : c = '\n' := by
      have hhead := List.head?_dropWhile_not (· ≠ '\n') text
      rw [hdrop] at hhead
      simpa using hhead
    refine ⟨(lines.dropReturn (firstLine text).reverse).reverse, ?_, ?_⟩
    · rw [hlines, hdrop, hc, lines_go_newline, nextLines, hdrop]
      rfl
    · rw [trim_reverse_dropReturn, List.reverse_reverse]

end DocFacts.Text
