/-!
# Backslashes

A backslash protects the character behind it.  There are two readings of that rule.
`isEscaped` looks back from a position and counts the backslashes in front of it.  `units`
goes forward and cuts a text into pairs of a backslash and the character it protects, and
single characters.  `unescape` drops the backslash of every pair.
-/

namespace DocFacts.Text

/-- A position is escaped when the number of backslashes directly in front of it is odd.
`past` is the text in front of the position, its last character first. -/
def isEscaped (past : List Char) : Bool :=
  (past.takeWhile (· == '\\')).length % 2 == 1

/-- A piece of a text as the forward reading cuts it. -/
inductive Piece where
  /-- A character that is no backslash and that no backslash protects. -/
  | plain (c : Char)
  /-- A backslash and the character that it protects. -/
  | pair (c : Char)
  /-- A backslash at the end of the text, which protects nothing. -/
  | lone
deriving DecidableEq, Repr

/-- The forward reading of a text. -/
def pieces : List Char → List Piece
  | [] => []
  | ['\\'] => [.lone]
  | '\\' :: c :: rest => .pair c :: pieces rest
  | c :: rest => .plain c :: pieces rest

/-- The characters that a piece is written with. -/
def Piece.chars : Piece → List Char
  | .plain c => [c]
  | .pair c => ['\\', c]
  | .lone => ['\\']

/-- What a piece stands for: the protected character of a pair, and nothing for a backslash
that protects nothing. -/
def Piece.meaning : Piece → List Char
  | .plain c => [c]
  | .pair c => [c]
  | .lone => []

/-- The text with one level of backslashes removed. -/
def unescape : List Char → List Char
  | [] => []
  | ['\\'] => []
  | '\\' :: c :: rest => c :: unescape rest
  | c :: rest => c :: unescape rest

/-- The pieces of a text, written one after the other, are the text. -/
theorem flatMap_chars_pieces (text : List Char) : (pieces text).flatMap Piece.chars = text := by
  fun_induction pieces text <;> simp_all [Piece.chars]

/-- Removing backslashes is reading the pieces of the text. -/
theorem unescape_eq_flatMap_meaning (text : List Char) :
    unescape text = (pieces text).flatMap Piece.meaning := by
  fun_induction unescape text <;> simp_all [pieces, Piece.meaning]

end DocFacts.Text
