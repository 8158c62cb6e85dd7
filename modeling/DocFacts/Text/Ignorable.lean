import DocFacts.Text.Ranges

/-!
# Characters that are passed over

The characters with the Unicode property Default_Ignorable_Code_Point, version 17.  They are
shown as nothing when they are not understood: fillers, joiners, marks of direction, variation
selectors, and code points kept for more of their kind.
-/

namespace DocFacts.Text

/-- The ranges of the characters with the property Default_Ignorable_Code_Point. -/
def ignorableRanges : List (Nat × Nat) :=
  [(0xAD, 0xAD), (0x34F, 0x34F), (0x61C, 0x61C), (0x115F, 0x1160), (0x17B4, 0x17B5),
   (0x180B, 0x180F), (0x200B, 0x200F), (0x202A, 0x202E), (0x2060, 0x206F), (0x3164, 0x3164),
   (0xFE00, 0xFE0F), (0xFEFF, 0xFEFF), (0xFFA0, 0xFFA0), (0xFFF0, 0xFFF8), (0x1BCA0, 0x1BCA3),
   (0x1D173, 0x1D17A), (0xE0000, 0xE0FFF)]

/-- The character is shown as nothing when it is not understood. -/
def isIgnorable (c : Char) : Bool := liesIn ignorableRanges c

example : ascending ignorableRanges = true := by decide +kernel
example : isIgnorable '\u115F' = true ∧ isIgnorable '\u1161' = false := by decide +kernel

end DocFacts.Text
