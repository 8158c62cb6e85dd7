import DocFacts.Arguments.Star
import DocFacts.Comment.Occurrence

/-!
# The annotations of a comment

Scanning a comment parses the body of every occurrence and groups the values by name.  Names
stand in the order in which they are first seen, and the values of a name in text order.  One
body that cannot be parsed refuses the whole comment, and the first such body is the one that
is reported.
-/

namespace DocFacts

/-- Names of annotations, each with the values of its occurrences. -/
abbrev AnnotationSet := Table String (List Value)

namespace AnnotationSet

/-- Add a value behind those that a name has. -/
def add (set : AnnotationSet) (name : String) (v : Value) : AnnotationSet :=
  Table.insert set name ((Table.get? set name).getD [] ++ [v])

/-- The JSON form: an object of arrays. -/
def toJson (set : AnnotationSet) : Json :=
  .object (set.map fun (name, values) => (name, .array (values.map Value.toJson)))

end AnnotationSet

/-- Why a comment is refused: the name of the occurrence, and what is wrong with its body. -/
structure ScanError where
  /-- The name of the occurrence whose body cannot be parsed. -/
  name : String
  /-- What is wrong with the body. -/
  cause : ParseError
deriving DecidableEq, Repr

/-- The text of the complaint, with the cause in it. -/
def ScanError.message (e : ScanError) : String :=
  "failed to parse arguments of @" ++ e.name ++ ": " ++ e.cause.message

/-- The value of an occurrence. -/
def Occurrence.value (o : Occurrence) : Except ScanError Value :=
  match parseArguments (String.ofList (Text.trim o.body)) with
  | .ok v => .ok v
  | .error e => .error ⟨String.ofList o.name, e⟩

/-- The text between the delimiters of a comment: without its first three and its last two
characters.  The delimiters are not looked at. -/
def commentText (comment : List Char) : List Char :=
  (comment.drop 3).take (comment.length - 5)

/-- What stands between the two delimiters of a comment is its text. -/
theorem commentText_of_eq {text : List Char} :
    commentText (['/', '*', '*'] ++ text ++ ['*', '/']) = text := by
  simp [commentText]

/-- Add the values of occurrences to a set, up to the first that cannot be parsed. -/
def addOccurrences (set : AnnotationSet) : List Occurrence → Except ScanError AnnotationSet
  | [] => .ok set
  | o :: rest =>
    match o.value with
    | .error e => .error e
    | .ok v => addOccurrences (set.add (String.ofList o.name) v) rest

/-- The annotations of a comment. -/
def scan (comment : String) : Except ScanError AnnotationSet :=
  addOccurrences [] (occurrences (commentText comment.toList))

example : (scan "/** @A(1) @B(x=2) @A(y) */").toOption =
    some [("A", [.int 1, .string "y"]), ("B", [.map [("x", .int 2)]])] := by decide +kernel

end DocFacts
