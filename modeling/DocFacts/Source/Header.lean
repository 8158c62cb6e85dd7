import DocFacts.Text.Blank
import DocFacts.Text.Search

/-!
# Header lines

The kinds of code that a line can hold, as far as documentation is concerned.  A line names a
namespace, heads a declaration, heads a function, or is something else.  A header has to stand
at the start of the line, behind modifiers at most, and what follows its name does not matter.
A namespace line needs a semicolon or an opening brace behind the name.  Blank lines and lines
that start with an attribute say nothing, so a comment may have them between itself and its
header.
-/

namespace DocFacts.Source

/-- The kind of a line of code. -/
inductive Code where
  /-- A blank line, or one that starts with an attribute. -/
  | silent
  /-- A line that names the namespace of what follows. -/
  | space (name : String)
  /-- The header of a class, an interface or a trait. -/
  | declaration (name : String)
  /-- The header of a function. -/
  | function (name : String)
  /-- Any other code. -/
  | other
deriving DecidableEq, Repr

/-- The characters that identifiers start with: ASCII letters and the underscore. -/
def isNameStart (c : Char) : Bool := c.isAlpha || c == '_'

/-- The characters that identifiers go on with. -/
def isNameRest (c : Char) : Bool := c.isAlphanum || c == '_'

/-- The characters that names of namespaces go on with. -/
def isPathRest (c : Char) : Bool := isNameRest c || c == '\\'

/-- Read the longest name at the front of a text. -/
def readName? (isRest : Char → Bool) : List Char → Option (String × List Char)
  | [] => none
  | c :: rest =>
    if isNameStart c then
      some (String.ofList (c :: rest.takeWhile isRest), rest.dropWhile isRest)
    else none

/-- What follows a word and the blank characters behind it.  There has to be one at least. -/
def behindWord? (word : String) (text : List Char) : Option (List Char) :=
  match Text.after? word.toList text with
  | some (c :: rest) => if Text.isBlank c then some (Text.dropBlank rest) else none
  | _ => none

theorem length_of_behindWord? {word : String} {text rest : List Char}
    (h : behindWord? word text = some rest) : rest.length < text.length := by
  simp only [behindWord?] at h
  split at h
  · rename_i c r ha
    have := Text.length_dropBlank_le r
    have ht := Text.after?_eq_some_iff.1 ha
    split at h
    · simp only [Option.some.injEq] at h
      subst h ht
      simp only [List.length_append, List.length_cons]; omega
    · simp at h
  · simp at h

/-- What follows the first of some words that stands at the front of a text. -/
def behindAnyWord? (words : List String) (text : List Char) : Option (List Char) :=
  words.findSome? (behindWord? · text)

/-- The text behind any number of modifiers. -/
def skipModifiers (words : List String) (text : List Char) : List Char :=
  match _h : behindAnyWord? words text with
  | some rest => skipModifiers words rest
  | none => text
termination_by text.length
decreasing_by
  obtain ⟨_, _, hw⟩ := List.exists_of_findSome?_eq_some _h
  exact length_of_behindWord? hw

/-- The name on a namespace line. -/
def spaceName? (line : List Char) : Option String :=
  match (behindWord? "namespace" line).bind (readName? isPathRest) with
  | some (name, rest) =>
    match Text.dropBlank rest with
    | ';' :: _ => some name
    | '{' :: _ => some name
    | _ => none
  | none => none

/-- The name in the header of a declaration. -/
def declarationName? (line : List Char) : Option String :=
  let line := skipModifiers ["abstract", "final", "readonly"] line
  ((behindAnyWord? ["class", "interface", "trait"] line).bind (readName? isNameRest)).map (·.1)

/-- The name in the header of a function.  It may have an ampersand in front. -/
def functionName? (line : List Char) : Option String :=
  let modifiers := ["public", "protected", "private", "static", "abstract", "final"]
  let name? (text : List Char) := readName? isNameRest ((Text.after? ['&'] text).getD text)
  ((behindWord? "function" (skipModifiers modifiers line)).bind name?).map (·.1)

/-- The line starts with an attribute. -/
def startsAttribute (line : List Char) : Bool := (Text.after? ['#', '['] line).isSome

/-- The kind of a line. -/
def Code.ofLine (line : List Char) : Code :=
  if line = [] ∨ startsAttribute line then .silent
  else
    match spaceName? line, declarationName? line, functionName? line with
    | some name, _, _ => .space name
    | none, some name, _ => .declaration name
    | none, none, some name => .function name
    | none, none, none => .other

example : Code.ofLine r"final  class Foo extends Bar {".toList = .declaration "Foo" := by
  decide +kernel
example : Code.ofLine r"namespace {".toList = .other := by decide +kernel

end DocFacts.Source
