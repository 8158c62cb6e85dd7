import DocFacts.Decimal.Literal
import DocFacts.Text.Escape
import DocFacts.Value.Basic

/-!
# Typing raw text

Raw argument text becomes a typed value.  Text without quotation marks is trimmed first.  Then
one level of backslashes is removed.  The words `true` and `false` in any case become truth
values.  A numeric literal, with or without blank characters around it, becomes a number: an
integer when it is integral and fits into 64 bits, and a floating-point number otherwise.
Everything else stays a string, blank characters included.  So quotation marks keep the blank
characters of a string, and nothing else: a number between them is a number.
-/

namespace DocFacts.Value

/-- The integer, if 64 bits hold it. -/
def int64? (n : Int) : Option Int64 :=
  if Int64.minValue.toInt ≤ n ∧ n ≤ Int64.maxValue.toInt then some (Int64.ofInt n) else none

/-- The number that a literal stands for. -/
def ofLiteral (l : Decimal.Literal) : Value :=
  match l.toInt?.bind int64? with
  | some n => .int n
  | none => .float l.toFloat

/-- The text equals a word up to the case of ASCII letters. -/
def isWord (word text : List Char) : Bool := text.map Char.toLower == word

/-- The value of text whose backslashes have been removed. -/
def ofText (text : List Char) : Value :=
  if isWord ['t', 'r', 'u', 'e'] text then .bool true
  else if isWord ['f', 'a', 'l', 's', 'e'] text then .bool false
  else
    match Decimal.Literal.read? (Text.trim text) with
    | some l => ofLiteral l
    | none => .string (String.ofList text)

/-- The value of raw text, with or without quotation marks around it. -/
def cast (raw : String) (quoted : Bool) : Value :=
  let text := raw.toList
  ofText (Text.unescape (if quoted then text else Text.trim text))

example : cast " 12 " true = .int 12 := by decide +kernel
example : cast "TRUE" false = .bool true := by decide +kernel

end DocFacts.Value
