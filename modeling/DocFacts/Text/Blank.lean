/-!
# White space

Blank characters are those with the Unicode property White_Space.  Trimming removes them
from one or both ends of a text.  Texts are lists of characters here, so that the readers
built on these functions recurse on their data.
-/

namespace DocFacts.Text

/-- The characters with the Unicode property White_Space. -/
def isBlank (c : Char) : Bool :=
  let n := c.toNat
  (0x09 ≤ n && n ≤ 0x0D) || n == 0x20 || n == 0x85 || n == 0xA0 || n == 0x1680 ||
    (0x2000 ≤ n && n ≤ 0x200A) || n == 0x2028 || n == 0x2029 || n == 0x202F ||
    n == 0x205F || n == 0x3000

/-- The text from its first character that is not blank. -/
def dropBlank (text : List Char) : List Char := text.dropWhile isBlank

/-- The text up to its last character that is not blank. -/
def trimEnd (text : List Char) : List Char := (dropBlank text.reverse).reverse

/-- The text without the blank characters at its two ends. -/
def trim (text : List Char) : List Char := trimEnd (dropBlank text)

/-- Every character of the text is blank. -/
def allBlank (text : List Char) : Bool := text.all isBlank

theorem length_dropBlank_le (text : List Char) : (dropBlank text).length ≤ text.length :=
  (List.dropWhile_suffix isBlank).length_le

/-- What is left starts with no blank character. -/
theorem isBlank_of_dropBlank_eq_cons {text rest : List Char} {c : Char}
    (h : dropBlank text = c :: rest) : isBlank c = false := by
  have := List.head?_dropWhile_not isBlank text
  simp only [dropBlank] at h
  simpa [h] using this

example : trim " a b\u3000".toList = "a b".toList := by decide +kernel

end DocFacts.Text
