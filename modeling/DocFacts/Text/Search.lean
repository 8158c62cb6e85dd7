/-!
# Finding marks in a text

Small readers that the comment and source readers share: words at the front of a text, the
longest run of a class of characters, the lines of a text, and the first place where a mark
of two characters stands.
-/

namespace DocFacts.Text

/-- What follows `word` in a text that starts with it. -/
def after? : (word text : List Char) → Option (List Char)
  | [], text => some text
  | _ :: _, [] => none
  | w :: word, c :: text => if w = c then after? word text else none

/-- Cut a text behind the first place where the characters `a b` stand next to each other. -/
def cutBehind? (a b : Char) : List Char → Option (List Char × List Char)
  | [] => none
  | [_] => none
  | c :: d :: rest =>
    if c = a ∧ d = b then some ([a, b], rest)
    else (cutBehind? a b (d :: rest)).map fun (front, back) => (c :: front, back)

/-- The lines of a text.  A line feed ends a line, and a carriage return in front of it
belongs to the line end.  There is no empty last line behind a final line feed. -/
def lines (text : List Char) : List (List Char) :=
  go [] text
where
  /-- `line` is what has been read of the current line, its last character first. -/
  go (line : List Char) : List Char → List (List Char)
    | [] => if line.isEmpty then [] else [line.reverse]
    | '\n' :: rest => (dropReturn line).reverse :: go [] rest
    | c :: rest => go (c :: line) rest
  /-- A reversed line without the carriage return at its end. -/
  dropReturn : List Char → List Char
    | '\r' :: line => line
    | line => line

theorem after?_eq_some_iff {word text rest : List Char} :
    after? word text = some rest ↔ text = word ++ rest := by
  induction word generalizing text with
  | nil => simp [after?, eq_comm]
  | cons w word ih =>
    cases text with
    | nil => simp [after?]
    | cons c text =>
      by_cases h : w = c
      · simp [after?, h, ih]
      · simp [after?, h, Ne.symm h]

end DocFacts.Text
