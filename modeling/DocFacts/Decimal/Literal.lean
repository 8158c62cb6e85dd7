import DocFacts.Text.Blank

/-!
# Numeric literals

A numeric literal is an optional sign, digits with an optional fraction or a fraction alone,
and an optional exponent.  `Literal.read?` takes a text apart along that grammar.  An integral
literal stands for its mathematical value.  Any other literal, and an integral one that is out
of range, stands for the nearest floating-point number.
-/

namespace DocFacts.Decimal

/-- The number that digits stand for. -/
def natOfDigits (ds : List Char) : Nat :=
  ds.foldl (fun n c => 10 * n + (c.toNat - '0'.toNat)) 0

/-- A literal, taken apart. -/
structure Literal where
  /-- The literal starts with a minus sign. -/
  negative : Bool
  /-- The digits in front of the point. -/
  whole : List Char
  /-- The digits behind the point, if there is a point. -/
  fraction : Option (List Char)
  /-- The sign and the digits of the exponent, if there is one. -/
  exponent : Option (Bool × List Char)
deriving DecidableEq, Repr

/-- Read an optional sign.  The first part says whether it is a minus. -/
def readSign : List Char → Bool × List Char
  | '-' :: rest => (true, rest)
  | '+' :: rest => (false, rest)
  | text => (false, text)

/-- Read an exponent that makes up the whole text. -/
def readExponent? (text : List Char) : Option (Option (Bool × List Char)) :=
  match text with
  | [] => some none
  | c :: rest =>
    if c = 'e' ∨ c = 'E' then
      let (negative, ds) := readSign rest
      if ds ≠ [] ∧ ds.all Char.isDigit then some (some (negative, ds)) else none
    else none

/-- Read a literal that makes up the whole text. -/
def Literal.read? (text : List Char) : Option Literal :=
  let (negative, text) := readSign text
  let whole := text.takeWhile Char.isDigit
  match text.dropWhile Char.isDigit with
  | '.' :: rest =>
    let fraction := rest.takeWhile Char.isDigit
    if whole = [] ∧ fraction = [] then none
    else (readExponent? (rest.dropWhile Char.isDigit)).map (⟨negative, whole, some fraction, ·⟩)
  | rest =>
    if whole = [] then none else (readExponent? rest).map (⟨negative, whole, none, ·⟩)

/-- The integer that a literal without point and exponent stands for. -/
def Literal.toInt? (l : Literal) : Option Int :=
  match l.fraction, l.exponent with
  | none, none => some (if l.negative then -(natOfDigits l.whole : Int) else natOfDigits l.whole)
  | _, _ => none

/-- The significant digits of a literal, as a number. -/
def Literal.significand (l : Literal) : Nat := natOfDigits (l.whole ++ l.fraction.getD [])

/-- The power of ten by which the significant digits are scaled. -/
def Literal.scale (l : Literal) : Int :=
  let written : Int := match l.exponent with
    | none => 0
    | some (negative, ds) => if negative then -(natOfDigits ds : Int) else natOfDigits ds
  written - (l.fraction.getD []).length

/-- The floating-point number nearest to `m * 10 ^ e`.  A number of at least `10 ^ 400` is out
of range and one below `10 ^ (-400)` is rounded to zero, so no power of ten is computed for
them. -/
def nearest (m : Nat) (e : Int) : Float :=
  let position : Int := (Nat.toDigits 10 m).length + e
  if m = 0 ∨ position < -400 then Float.ofBits 0
  else if 400 < position then Float.ofBits 0x7FF0000000000000
  else Float.ofScientific m (decide (e < 0)) e.natAbs

/-- The floating-point number that a literal stands for. -/
def Literal.toFloat (l : Literal) : Float :=
  let x := nearest l.significand l.scale
  if l.negative then -x else x

example : (Literal.read? "-12.5e3".toList).map Literal.toFloat = some (-12500) := by
  decide +kernel
example : Literal.read? ".".toList = none := by decide +kernel
example : (Literal.read? "007".toList).bind Literal.toInt? = some 7 := by decide +kernel

end DocFacts.Decimal
