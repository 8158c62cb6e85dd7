import DocFacts.Text.Extending
import DocFacts.Text.Ignorable
import DocFacts.Text.Invisible

/-!
# Quoted texts

A text between quotation marks in which every character can be seen by itself.  The quotation
mark, the backslash and the common control characters are written with a backslash.  Other
characters without a glyph, those that are passed over, and those that extend the character in
front of them are written by their code point.
-/

namespace DocFacts.Text

/-- The character cannot be seen by itself. -/
def isUnseen (c : Char) : Bool := isExtending c || isIgnorable c || isInvisible c

/-- A character as it stands between quotation marks. -/
def visible (c : Char) : List Char :=
  if c = '"' then ['\\', '"']
  else if c = '\\' then ['\\', '\\']
  else if c = '\x00' then ['\\', '0']
  else if c = '\t' then ['\\', 't']
  else if c = '\n' then ['\\', 'n']
  else if c = '\r' then ['\\', 'r']
  else if isUnseen c then '\\' :: 'u' :: '{' :: Nat.toDigits 16 c.toNat ++ ['}']
  else [c]

/-- The text between quotation marks. -/
def quoted (s : String) : String :=
  String.ofList ('"' :: s.toList.flatMap visible ++ ['"'])

example : quoted "\u115F" = r#""\u{115f}""# := by decide +kernel
example : quoted "a\"b\\\n\x7fé" = r#""a\"b\\\n\u{7f}é""# := by decide +kernel

end DocFacts.Text
