import DocFacts.Proofs.Text.Search
import DocFacts.Source.Collect

/-!
# The parts of a source

A source is a sequence of comments and of the code between them.  `Splits` tells what a line comes
to, depending on whether a comment is open in front of it: the comments that are closed on it, the
code that is left, and the comment that is open behind it.  `Reads` goes from line to line.  Every
source has exactly one sequence of parts (`exists_reads`, `Reads.unique`), and the reader of
comments splits each line in this way (`Comments.read_eq`).
-/

namespace DocFacts.Source

/-- A part of a source. -/
inductive Part where
  /-- A comment that is closed, with its marks. -/
  | doc (text : List Char)
  /-- The code of a line. -/
  | code (text : List Char)
deriving DecidableEq, Repr

/-- What a line comes to. -/
structure Cut where
  /-- The comments that are closed on the line. -/
  docs : List (List Char)
  /-- The code of the line, if there is room for code. -/
  code : Option (List Char)
  /-- The comment that is open behind the line. -/
  opened : Option (List Char)
deriving DecidableEq, Repr

/-- The parts of a line, its code behind its comments. -/
def Cut.parts (cut : Cut) : List Part := cut.docs.map .doc ++ cut.code.toList.map .code

/-- What a line comes to outside all comments. -/
inductive Starts (line : List Char) : Cut → Prop where
  /-- The line does not start with a comment. -/
  | code (h : ¬ ['/', '*', '*'] <+: line) : Starts line ⟨[], some line, none⟩
  /-- The line starts with a comment that is closed on it.  The mark that closes it may begin with
  the second star of the mark that opens it. -/
  | closed {rest front back : List Char} (hline : line = '/' :: '*' :: '*' :: rest)
    (h : Text.Cuts '*' '/' ('*' :: rest) front back) :
    Starts line ⟨['/' :: '*' :: front], some (Text.trim back), none⟩
  /-- The line starts with a comment that is not closed on it. -/
  | opened {rest : List Char} (hline : line = '/' :: '*' :: '*' :: rest)
    (h : ¬ ['*', '/'] <:+: '*' :: rest) : Starts line ⟨[], none, some line⟩

/-- What a line comes to behind a comment that may be open. -/
inductive Splits (line : List Char) : Option (List Char) → Cut → Prop where
  /-- No comment is open. -/
  | outside {cut : Cut} (h : Starts line cut) : Splits line none cut
  /-- The open comment is closed on the line, and its rest is read outside. -/
  | closed {text front back : List Char} {cut : Cut} (h : Text.Cuts '*' '/' line front back)
    (hback : Starts (Text.trim back) cut) :
    Splits line (some text) { cut with docs := (text ++ '\n' :: front) :: cut.docs }
  /-- The whole line is inside the open comment. -/
  | inside {text : List Char} (h : ¬ ['*', '/'] <:+: line) :
    Splits line (some text) ⟨[], none, some (text ++ '\n' :: line)⟩

/-- The parts of some lines behind a comment that may be open. -/
inductive Reads : Option (List Char) → List (List Char) → List Part → Prop where
  /-- No line. -/
  | nil {opened : Option (List Char)} : Reads opened [] []
  /-- The parts of a line and those of the lines behind it. -/
  | cons {opened : Option (List Char)} {line : List Char} {lines : List (List Char)} {cut : Cut}
    {parts : List Part} (h : Splits (Text.trim line) opened cut)
    (hlines : Reads cut.opened lines parts) : Reads opened (line :: lines) (cut.parts ++ parts)

variable {line : List Char} {opened : Option (List Char)} {cut cut' : Cut}

/-! ## Every source has one sequence of parts -/

theorem exists_starts (line : List Char) : ∃ cut, Starts line cut := by
  by_cases h : ['/', '*', '*'] <+: line
  · obtain ⟨rest, rfl⟩ := h
    cases hcut : Text.cutBehind? '*' '/' ('*' :: rest) with
    | none => exact ⟨_, .opened rfl (Text.cutBehind?_eq_none_iff.1 hcut)⟩
    | some cut => exact ⟨_, .closed rfl (Text.cutBehind?_eq_some_iff.1 hcut)⟩
  · exact ⟨_, .code h⟩

theorem exists_splits (line : List Char) (opened : Option (List Char)) :
    ∃ cut, Splits line opened cut := by
  cases opened with
  | none =>
    obtain ⟨cut, h⟩ := exists_starts line
    exact ⟨cut, .outside h⟩
  | some text =>
    cases hcut : Text.cutBehind? '*' '/' line with
    | none => exact ⟨_, .inside (Text.cutBehind?_eq_none_iff.1 hcut)⟩
    | some parts =>
      obtain ⟨cut, h⟩ := exists_starts (Text.trim parts.2)
      exact ⟨_, .closed (Text.cutBehind?_eq_some_iff.1 hcut) h⟩

theorem exists_reads (opened : Option (List Char)) (lines : List (List Char)) :
    ∃ parts, Reads opened lines parts := by
  induction lines generalizing opened with
  | nil => exact ⟨[], .nil⟩
  | cons line lines ih =>
    obtain ⟨cut, hcut⟩ := exists_splits (Text.trim line) opened
    obtain ⟨parts, hparts⟩ := ih cut.opened
    exact ⟨_, .cons hcut hparts⟩

/-- Lines without comments are code. -/
theorem reads_code {lines : List (List Char)}
    (h : ∀ line ∈ lines, ¬ ['/', '*', '*'] <+: Text.trim line) :
    Reads none lines (lines.map fun line => .code (Text.trim line)) := by
  induction lines with
  | nil => exact .nil
  | cons line lines ih =>
    obtain ⟨hline, hlines⟩ := List.forall_mem_cons.1 h
    exact .cons (.outside (.code hline)) (ih hlines)

/-- What starts with the mark of a comment is no code. -/
theorem not_prefix_elim {rest : List Char} {p : Prop} (h : ¬ ['/', '*', '*'] <+: line)
    (hline : line = '/' :: '*' :: '*' :: rest) : p :=
  absurd ⟨rest, hline.symm⟩ h

theorem Starts.unique (h : Starts line cut) (h' : Starts line cut') : cut = cut' := by
  cases h with
  | code h =>
    cases h' with
    | code h' => rfl
    | closed hline' h' => exact not_prefix_elim h hline'
    | opened hline' h' => exact not_prefix_elim h hline'
  | closed hline h =>
    subst hline
    cases h' with
    | code h' => exact not_prefix_elim h' rfl
    | closed hline' h' =>
      cases hline'
      obtain ⟨rfl, rfl⟩ := h.unique h'
      rfl
    | opened hline' h' =>
      cases hline'
      exact absurd h.has_mark h'
  | opened hline h =>
    subst hline
    cases h' with
    | code h' => exact not_prefix_elim h' rfl
    | closed hline' h' =>
      cases hline'
      exact absurd h'.has_mark h
    | opened hline' h' => rfl

theorem Splits.unique (h : Splits line opened cut) (h' : Splits line opened cut') :
    cut = cut' := by
  cases h with
  | outside h =>
    cases h' with
    | outside h' => exact h.unique h'
  | closed h hback =>
    cases h' with
    | closed h' hback' =>
      obtain ⟨rfl, rfl⟩ := h.unique h'
      rw [hback.unique hback']
    | inside h' => exact absurd h.has_mark h'
  | inside h =>
    cases h' with
    | closed h' hback' => exact absurd h'.has_mark h
    | inside h' => rfl

/-- A source has one sequence of parts. -/
theorem Reads.unique {lines : List (List Char)} {parts parts' : List Part}
    (h : Reads opened lines parts) (h' : Reads opened lines parts') : parts = parts' := by
  induction h generalizing parts' with
  | nil =>
    cases h' with
    | nil => rfl
  | cons hcut _ ih =>
    cases h' with
    | cons hcut' hlines' =>
      obtain rfl := hcut.unique hcut'
      rw [ih hlines']

/-! ## The reader of comments -/

namespace Comments

theorem start_eq (h : Starts line cut) (waiting : Option (List Char)) :
    start ⟨none, waiting⟩ line = (⟨cut.opened, cut.docs.getLast?.or waiting⟩, cut.code) := by
  cases h with
  | code h =>
    rw [start]
    · rfl
    · rintro rest rfl
      exact h ⟨rest, rfl⟩
  | closed hline h =>
    subst hline
    rw [start, Text.cutBehind?_eq_some_iff.2 h]
    rfl
  | opened hline h =>
    subst hline
    rw [start, Text.cutBehind?_eq_none_iff.2 h]
    rfl

/-- **The reader of comments splits lines.**  A comment that is closed on the line waits instead
of the one that has waited. -/
theorem read_eq (h : Splits line opened cut) (waiting : Option (List Char)) :
    read ⟨opened, waiting⟩ line = (⟨cut.opened, cut.docs.getLast?.or waiting⟩, cut.code) := by
  cases h with
  | outside h => exact start_eq h waiting
  | closed h hback =>
    simp only [read, Text.cutBehind?_eq_some_iff.2 h, start_eq hback, List.getLast?_cons,
      Option.or_some, Option.some_or]
  | inside h =>
    simp only [read, Text.cutBehind?_eq_none_iff.2 h]
    rfl

end Comments

end DocFacts.Source
