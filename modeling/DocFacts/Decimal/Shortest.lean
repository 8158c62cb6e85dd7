/-!
# The fewest digits that read back

A finite binary number stands for all reals that are rounded to it.  `shortest` selects a
decimal with as few digits as possible among them, and of two with equally few the one nearer
to the number.  The search runs over the grids of powers of ten from coarse to fine.  On each
grid only the two neighbours of the number need to be tried.  All comparisons are between
natural numbers, so nothing is rounded on the way.
-/

namespace DocFacts.Decimal

/-- A finite number without its sign, `m * 2 ^ q`. -/
structure Binary where
  /-- The significand. -/
  m : Nat
  /-- The exponent of two. -/
  q : Int
  /-- The gap to the number below is half the gap to the number above. -/
  narrowBelow : Bool
deriving DecidableEq, Repr

/-- The number with the given 64 bits, sign apart.  The bits are those of a finite number. -/
def Binary.ofBits (bits : UInt64) : Binary :=
  let exponent := ((bits >>> 52) &&& 0x7FF).toNat
  let fraction := (bits &&& 0xFFFFFFFFFFFFF).toNat
  if exponent = 0 then ⟨fraction, -1074, false⟩
  else
    ⟨0x10000000000000 + fraction, (exponent : Int) - 1075, fraction == 0 && decide (1 < exponent)⟩

/-- A decimal, `digits * 10 ^ exponent`. -/
structure Digits where
  /-- The digits, read as a number. -/
  digits : Nat
  /-- The exponent of ten. -/
  exponent : Int
deriving DecidableEq, Repr

/-- Which of two equally near decimals is taken. -/
inductive Tie where
  /-- The one whose last digit is even. -/
  | toEven
  /-- The larger one. -/
  | up
deriving DecidableEq, Repr

/-- Compare `a * 10 ^ i` with `n * 2 ^ j`. -/
def compareScaled (a : Nat) (i : Int) (n : Nat) (j : Int) : Ordering :=
  compare (a * Nat.pow 10 i.toNat * Nat.pow 2 (-j).toNat)
    (n * Nat.pow 2 j.toNat * Nat.pow 10 (-i).toNat)

/-- The decimal is one of the reals that are rounded to `x`.  The ends of the interval lie
half way to the neighbours and belong to it when the significand is even. -/
def Binary.readsBack (x : Binary) (d : Digits) : Bool :=
  let low := if x.narrowBelow then 4 * x.m - 1 else 4 * x.m - 2
  let high := 4 * x.m + 2
  let ends := x.m % 2 == 0
  let fromLow := compareScaled d.digits d.exponent low (x.q - 2)
  let fromHigh := compareScaled d.digits d.exponent high (x.q - 2)
  (fromLow == .gt || (ends && fromLow == .eq)) && (fromHigh == .lt || (ends && fromHigh == .eq))

/-- How many digits a number has. -/
def digitCount (n : Nat) : Nat := (Nat.toDigits 10 n).length

/-- The exponent `k` with `10 ^ (k - 1) ≤ x < 10 ^ k`, for a number that is not zero.  The
digit counts of numerator and denominator leave two candidates. -/
def Binary.pointPosition (x : Binary) : Int :=
  let num := x.m * Nat.pow 2 x.q.toNat
  let den := Nat.pow 2 (-x.q).toNat
  let k : Int := (digitCount num : Int) - (digitCount den : Int)
  if compareScaled 1 k x.m x.q == .gt then k else k + 1

/-- The largest decimal on the grid `10 ^ g` that is at most `x`, as a multiple of the grid. -/
def Binary.floorOn (x : Binary) (g : Int) : Nat :=
  (x.m * Nat.pow 2 x.q.toNat * Nat.pow 10 (-g).toNat) /
    (Nat.pow 2 (-x.q).toNat * Nat.pow 10 g.toNat)

/-- The neighbour of `x` on the grid `10 ^ g` that reads back, the nearer one of two. -/
def Binary.onGrid? (x : Binary) (tie : Tie) (g : Int) : Option Digits :=
  let low := x.floorOn g
  let below : Digits := ⟨low, g⟩
  let above : Digits := ⟨low + 1, g⟩
  match x.readsBack below, x.readsBack above with
  | false, false => none
  | true, false => some below
  | false, true => some above
  | true, true =>
    -- The sum of the two neighbours compared with twice the number.
    match compareScaled (2 * low + 1) g (2 * x.m) x.q with
    | .gt => some below
    | .lt => some above
    | .eq =>
      match tie with
      | .up => some above
      | .toEven => if low % 2 = 0 then some below else some above

/-- Move zeros at the end of the digits into the exponent.  `fuel` bounds the number of
zeros. -/
def stripZeros : (fuel : Nat) → Digits → Digits
  | 0, d => d
  | fuel + 1, d =>
    if d.digits ≠ 0 ∧ d.digits % 10 = 0 then stripZeros fuel ⟨d.digits / 10, d.exponent + 1⟩
    else d

/-- The number written out, with all the digits it has. -/
def Binary.exact (x : Binary) : Digits :=
  if 0 ≤ x.q then ⟨x.m * Nat.pow 2 x.q.toNat, 0⟩ else ⟨x.m * Nat.pow 5 (-x.q).toNat, x.q⟩

/-- The fewest digits that read back to a number that is not zero.  Seventeen digits always
suffice for 64 bits, and were they not to, the number would be written out. -/
def Binary.shortest (x : Binary) (tie : Tie) : Digits :=
  let k := x.pointPosition
  let found := (List.range 17).findSome? fun (n : Nat) => x.onGrid? tie (k - (n + 1 : Nat))
  let d := found.getD x.exact
  stripZeros (digitCount d.digits) d

example : (Binary.ofBits 0x3FB999999999999A).shortest .toEven = ⟨1, -1⟩ := by decide +kernel
example : (Binary.ofBits 1).shortest .toEven = ⟨5, -324⟩ := by decide +kernel
example : (Binary.ofBits 0x3E60000000000000).shortest .toEven = ⟨29802322387695312, -24⟩ := by
  decide +kernel

end DocFacts.Decimal
