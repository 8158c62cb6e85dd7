import DocFacts.Decimal.Layout

/-!
# JSON text

The tree of a JSON document and its two written forms.  The compact form has no blank between
its parts.  The pretty form puts every element of a container that is not empty on a line of
its own and indents by two.  Strings escape the quotation mark, the backslash and the control
characters below U+0020.  All other characters are written as they are.
-/

namespace DocFacts

/-- A JSON document.  Objects keep the order of their members. -/
inductive Json where
  /-- The value `null`. -/
  | null
  /-- A truth value. -/
  | bool (b : Bool)
  /-- A number without fraction. -/
  | int (n : Int)
  /-- A finite floating-point number. -/
  | float (x : Float)
  /-- A string. -/
  | string (s : String)
  /-- An array. -/
  | array (items : List Json)
  /-- An object. -/
  | object (members : List (String × Json))
deriving Repr, Inhabited

namespace Json

/-- Floating-point numbers are positional when their point stands at most four places in
front of the digits and at most sixteen behind their start, and end in `.0` without a
fraction. -/
def number : Decimal.Style where
  isPositional k := -5 < k && k ≤ 16
  integralEnd := ".0"
  tie := .toEven
  infinity := "null"
  negativeInfinity := "null"
  nan := "null"

/-- A digit of base sixteen in lower case. -/
def hexDigit (n : Nat) : Char := (Nat.toDigits 16 (n % 16)).headD '0'

/-- A character as it stands inside a string. -/
def escapeChar (c : Char) : List Char :=
  if c = '"' then ['\\', '"']
  else if c = '\\' then ['\\', '\\']
  else if c = '\x08' then ['\\', 'b']
  else if c = '\t' then ['\\', 't']
  else if c = '\n' then ['\\', 'n']
  else if c = '\x0c' then ['\\', 'f']
  else if c = '\r' then ['\\', 'r']
  else if c.toNat < 0x20 then ['\\', 'u', '0', '0', hexDigit (c.toNat / 16), hexDigit c.toNat]
  else [c]

/-- A string between quotation marks. -/
def quote (s : String) : List Char := '"' :: s.toList.flatMap escapeChar ++ ['"']

/-- The decimal text of an integer. -/
def integer (n : Int) : List Char :=
  if n < 0 then '-' :: Nat.toDigits 10 n.natAbs else Nat.toDigits 10 n.natAbs

/-- The text of a document that has no parts. -/
def scalar : Json → List Char
  | .null => ['n', 'u', 'l', 'l']
  | .bool true => ['t', 'r', 'u', 'e']
  | .bool false => ['f', 'a', 'l', 's', 'e']
  | .int n => integer n
  | .float x => (Decimal.write number x).toList
  | .string s => quote s
  | .array _ => []
  | .object _ => []

mutual

/-- The characters of the compact form. -/
def compactChars : Json → List Char
  | .array items => '[' :: compactItems items ++ [']']
  | .object members => '{' :: compactMembers members ++ ['}']
  | leaf => scalar leaf

/-- The elements of an array with commas between them. -/
def compactItems : List Json → List Char
  | [] => []
  | [item] => compactChars item
  | item :: rest => compactChars item ++ ',' :: compactItems rest

/-- The members of an object with commas between them. -/
def compactMembers : List (String × Json) → List Char
  | [] => []
  | [(key, item)] => quote key ++ ':' :: compactChars item
  | (key, item) :: rest => quote key ++ ':' :: compactChars item ++ ',' :: compactMembers rest

end

/-- The compact form. -/
def compact (doc : Json) : String := String.ofList (compactChars doc)

/-- A line feed and the indentation of a depth. -/
def newline (depth : Nat) : List Char := '\n' :: List.replicate (2 * depth) ' '

mutual

/-- The characters of the pretty form of a document whose container stands at `depth`. -/
def prettyChars (depth : Nat) : Json → List Char
  | .array [] => ['[', ']']
  | .array items => '[' :: prettyItems (depth + 1) items ++ newline depth ++ [']']
  | .object [] => ['{', '}']
  | .object members => '{' :: prettyMembers (depth + 1) members ++ newline depth ++ ['}']
  | leaf => scalar leaf

/-- The elements of an array, each on a line of its own. -/
def prettyItems (depth : Nat) : List Json → List Char
  | [] => []
  | [item] => newline depth ++ prettyChars depth item
  | item :: rest => newline depth ++ prettyChars depth item ++ ',' :: prettyItems depth rest

/-- The members of an object, each on a line of its own. -/
def prettyMembers (depth : Nat) : List (String × Json) → List Char
  | [] => []
  | [(key, item)] => newline depth ++ quote key ++ ':' :: ' ' :: prettyChars depth item
  | (key, item) :: rest =>
    newline depth ++ quote key ++ ':' :: ' ' :: prettyChars depth item ++
      ',' :: prettyMembers depth rest

end

/-- The pretty form. -/
def pretty (doc : Json) : String := String.ofList (prettyChars 0 doc)

end Json

end DocFacts
