import DocFacts.Arguments.Parser

/-!
# Bodies over several comment lines

The lines of a comment may start with a star.  A body that spans several lines has such stars
in it, and they are no part of the arguments.  `dropStars` removes, at the start of every
line, blank characters and the star behind them.  Blank characters without a star stay.  Since
line feeds are blank, empty lines in front of a star go with it.
-/

namespace DocFacts

/-- What stands behind the star that leads a line, if one does. -/
def behindStar? (text : List Char) : Option (List Char) :=
  match Text.dropBlank text with
  | '*' :: rest => some rest
  | _ => none

theorem length_of_behindStar? {text rest : List Char} (h : behindStar? text = some rest) :
    rest.length < text.length := by
  simp only [behindStar?] at h
  split at h
  · rename_i hd
    have := Text.length_dropBlank_le text
    simp only [Option.some.injEq] at h
    subst h
    simp only [hd, List.length_cons] at this
    omega
  · simp at h

/-- The text without the stars that lead its lines. -/
def dropStars (atLineStart : Bool) (text : List Char) : List Char :=
  match text with
  | [] => []
  | c :: rest =>
    match _h : if atLineStart then behindStar? (c :: rest) else none with
    | some behind => dropStars false behind
    | none => c :: dropStars (c == '\n') rest
termination_by text.length
decreasing_by
  · split at _h
    · exact length_of_behindStar? _h
    · simp at _h
  · simp

/-- The value of the text between the parentheses of an occurrence. -/
def parseArguments (content : String) : Except ParseError Value :=
  parseBody (dropStars true content.toList)

example : (parseArguments "a = 1,\n * b").toOption =
    some (.map [("a", .int 1), ("b", .string "")]) := by decide +kernel
example : (parseArguments "\"a\" b").toOption = none := by decide +kernel

end DocFacts
