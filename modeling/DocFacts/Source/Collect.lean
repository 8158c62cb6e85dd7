import DocFacts.Extraction.Declaration
import DocFacts.Source.Header

/-!
# Collecting declarations from source text

The source is read line by line, each line trimmed.  `Comments.read` takes the documentation
comments out of a line and gives back the code that is left.  A comment that is closed waits
for the next header.  Code that is neither silent nor a header drops it, and so does a
namespace line.  A function belongs to the last declaration in front of it.  Functions in
front of all declarations belong to none and are left out.
-/

namespace DocFacts.Source

/-- What the comments of the lines so far have come to. -/
structure Comments where
  /-- The text of a comment that is still open. -/
  opened : Option (List Char) := none
  /-- A closed comment that waits for a header. -/
  waiting : Option (List Char) := none
deriving DecidableEq, Repr

namespace Comments

/-- Read a line outside a comment.  It may start with one, which may close on it.  The search
for the close begins at the second star of the opening mark. -/
def start (s : Comments) (line : List Char) : Comments × Option (List Char) :=
  match line with
  | '/' :: '*' :: '*' :: rest =>
    match Text.cutBehind? '*' '/' ('*' :: rest) with
    | some (front, back) => ({ s with waiting := some ('/' :: '*' :: front) }, some (Text.trim back))
    | none => ({ s with opened := some line }, none)
  | line => (s, some line)

/-- Read a line.  The second part is the code on it, if there is room for code. -/
def read (s : Comments) (line : List Char) : Comments × Option (List Char) :=
  match s.opened with
  | none => s.start line
  | some text =>
    match Text.cutBehind? '*' '/' line with
    | some (front, back) =>
      start { opened := none, waiting := some (text ++ '\n' :: front) } (Text.trim back)
    | none => ({ s with opened := some (text ++ '\n' :: line) }, none)

/-- The comment for a header: the one that waits, or the empty text. -/
def take (s : Comments) : String := (s.waiting.map String.ofList).getD ""

/-- Nothing waits any more. -/
def drop (s : Comments) : Comments := { s with waiting := none }

end Comments

/-- What the collector has come across. -/
inductive Note where
  /-- A namespace line. -/
  | space (name : String)
  /-- The header of a declaration, with or without a comment. -/
  | declaration (name : String) (documented : Bool)
  /-- The header of a function of a declaration. -/
  | member (owner name : String)
  /-- The header of a function in front of all declarations. -/
  | stray (function : String)
deriving DecidableEq, Repr

/-- The state of the collector between two lines. -/
structure Collector where
  /-- The comments. -/
  comments : Comments := {}
  /-- The name on the last namespace line. -/
  space : Option String := none
  /-- The declarations found so far, the last one first. -/
  found : List Declaration := []
  /-- What has been come across, the last first. -/
  notes : List Note := []
deriving DecidableEq, Repr

namespace Collector

/-- A name in the current namespace. -/
def qualify (s : Collector) (name : String) : String :=
  match s.space with
  | none => name
  | some space => space ++ "\\" ++ name

/-- Read the code of a line. -/
def readCode (s : Collector) (code : Code) : Collector :=
  match code with
  | .silent => s
  | .space name =>
    { s with space := some name, comments := s.comments.drop, notes := .space name :: s.notes }
  | .declaration name =>
    let name := s.qualify name
    { s with
      comments := s.comments.drop
      found := { name := name, comment := s.comments.take } :: s.found
      notes := .declaration name s.comments.waiting.isSome :: s.notes }
  | .function name =>
    match s.found with
    | [] => { s with comments := s.comments.drop, notes := .stray name :: s.notes }
    | owner :: rest =>
      let member : Member := ⟨name, s.comments.take⟩
      { s with
        comments := s.comments.drop
        found := { owner with members := owner.members ++ [member] } :: rest
        notes := .member owner.name name :: s.notes }
  | .other => { s with comments := s.comments.drop }

/-- Read a line. -/
def readLine (s : Collector) (line : List Char) : Collector :=
  match s.comments.read (Text.trim line) with
  | (comments, some code) => { s with comments := comments }.readCode (Code.ofLine code)
  | (comments, none) => { s with comments := comments }

/-- Read a whole source. -/
def readSource (source : String) : Collector :=
  (Text.lines source.toList).foldl readLine {}

end Collector

/-- The declarations of a source, in source order. -/
def collect (source : String) : List Declaration := (Collector.readSource source).found.reverse

/-- What the collector comes across in a source, in source order. -/
def notes (source : String) : List Note := (Collector.readSource source).notes.reverse

example : collect ("\n".intercalate
      [r"/** a */ class A {", "/** b", " * c */ function f() {}", r"}"]) =
    [⟨"A", "/** a */", [⟨"f", "/** b\n* c */"⟩]⟩] := by decide +kernel

end DocFacts.Source
