/-!
# Ranges of characters

A property of characters is given as a table of ranges of code points.
-/

namespace DocFacts.Text

/-- The code point of the character lies in one of the ranges, ends included. -/
def liesIn (ranges : List (Nat × Nat)) (c : Char) : Bool :=
  ranges.any fun (low, high) => decide (low ≤ c.toNat ∧ c.toNat ≤ high)

/-- The ranges stand in ascending order with a gap between any two. -/
def ascending : List (Nat × Nat) → Bool
  | [] => true
  | [(low, high)] => decide (low ≤ high)
  | (low, high) :: (next, top) :: rest =>
    decide (low ≤ high ∧ high + 1 < next) && ascending ((next, top) :: rest)

end DocFacts.Text
