import DocFacts.Decimal.Shortest

/-!
# Laying out a decimal

The digits that `Binary.shortest` selects are written positionally or with an exponent.  A
`Style` holds the decisions of one output format: up to where it is positional, what follows
an integral number, which way ties go, and the texts of the values that are no finite number.
-/

namespace DocFacts.Decimal

/-- The decisions of a number format.  Positions are exponents `k` of a number written as
`0.d₁d₂… * 10 ^ k` with `d₁` not zero. -/
structure Style where
  /-- The positions at which a number is written positionally. -/
  isPositional : Int → Bool
  /-- What stands behind a positional number without a fraction. -/
  integralEnd : String
  /-- Which of two equally near decimals is taken. -/
  tie : Tie
  /-- The text of positive infinity. -/
  infinity : String
  /-- The text of negative infinity. -/
  negativeInfinity : String
  /-- The text of a value that is no number. -/
  nan : String

/-- Zeros to fill up a positional number. -/
def zeros (n : Nat) : List Char := List.replicate n '0'

/-- A number whose digits are `ds` and whose point stands at `k`, written positionally: the
point goes in front of the digits, behind them, or between them. -/
def positional (style : Style) (ds : List Char) (k : Int) : List Char :=
  if k ≤ 0 then '0' :: '.' :: zeros (-k).toNat ++ ds
  else if k < ds.length then ds.take k.toNat ++ '.' :: ds.drop k.toNat
  else ds ++ zeros (k.toNat - ds.length) ++ style.integralEnd.toList

/-- A number with an exponent: one digit in front of the point, and a sign always. -/
def scientific (ds : List Char) (k : Int) : List Char :=
  let fraction := match ds.drop 1 with
    | [] => []
    | rest => '.' :: rest
  let power := k - 1
  ds.take 1 ++ fraction ++ 'e' :: (if power < 0 then '-' else '+') :: Nat.toDigits 10 power.natAbs

/-- The text of a finite number without its sign. -/
def magnitude (style : Style) (x : Binary) : List Char :=
  if x.m = 0 then '0' :: style.integralEnd.toList
  else
    let d := x.shortest style.tie
    let ds := Nat.toDigits 10 d.digits
    let k := d.exponent + ds.length
    if style.isPositional k then positional style ds k else scientific ds k

/-- The text of a number. -/
def write (style : Style) (x : Float) : String :=
  let bits := x.toBits
  let negative := bits >>> 63 == 1
  if (bits >>> 52) &&& 0x7FF == 0x7FF then
    if bits &&& 0xFFFFFFFFFFFFF != 0 then style.nan
    else if negative then style.negativeInfinity else style.infinity
  else
    let text := magnitude style (Binary.ofBits bits)
    String.ofList (if negative then '-' :: text else text)

/-- A number is finite when its exponent bits are not all set. -/
def isFinite (x : Float) : Bool := !((x.toBits >>> 52) &&& 0x7FF == 0x7FF)

end DocFacts.Decimal
