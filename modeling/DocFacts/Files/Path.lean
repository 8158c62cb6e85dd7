import DocFacts.Text.Search

/-!
# Paths

A path is a text with slashes.  Two paths are compared part by part, so that a directory comes
before a file whose name it begins.  Repeated slashes, a slash at the end, and single dots
other than at the start make no difference.  `PathSet` keeps paths in that order, each once.
-/

namespace DocFacts.Files

/-- A part of a path. -/
inductive Part where
  /-- The slash at the start of an absolute path. -/
  | root
  /-- A dot at the start of a relative path. -/
  | here
  /-- Two dots. -/
  | up
  /-- A name. -/
  | name (n : String)
deriving DecidableEq, Repr

/-- The pieces of a text between the places where a character stands. -/
def splitAt (mark : Char) : List Char → List (List Char)
  | [] => [[]]
  | c :: rest =>
    match splitAt mark rest with
    | [] => [[c]]
    | piece :: pieces => if c = mark then [] :: piece :: pieces else (c :: piece) :: pieces

/-- The texts between the slashes of a path. -/
def segments (path : String) : List String := (splitAt '/' path.toList).map String.ofList

/-- The part that a segment in the middle of a path stands for. -/
def Part.ofSegment? (segment : String) : Option Part :=
  if segment = "" ∨ segment = "." then none
  else if segment = ".." then some .up
  else some (.name segment)

/-- The parts of a path. -/
def parts (path : String) : List Part :=
  match segments path with
  | [] => []
  | first :: rest =>
    let tail := rest.filterMap Part.ofSegment?
    if first = "" then
      -- An empty segment in front of others is the slash of an absolute path.
      if rest = [] then [] else .root :: tail
    else if first = "." then .here :: tail
    else if first = ".." then .up :: tail
    else .name first :: tail

/-- The order of the kinds of parts: the slash, the dot, the two dots, names. -/
def Part.rank : Part → Nat
  | .root => 0
  | .here => 1
  | .up => 2
  | .name _ => 3

/-- Names are ordered by their code points. -/
def Part.compare : Part → Part → Ordering
  | .name a, .name b => Ord.compare a b
  | a, b => Ord.compare a.rank b.rank

/-- The first part in which two paths differ decides, and a path comes before what lies below
it. -/
def compareParts : List Part → List Part → Ordering
  | [], [] => .eq
  | [], _ :: _ => .lt
  | _ :: _, [] => .gt
  | a :: as, b :: bs => (a.compare b).then (compareParts as bs)

/-- The order of paths. -/
def comparePaths (p q : String) : Ordering := compareParts (parts p) (parts q)

/-- A path with a segment added. -/
def join (path segment : String) : String :=
  if path = "" then segment
  else if path.toList.getLast? = some '/' then path ++ segment
  else path ++ "/" ++ segment

/-- Paths in ascending order, of equal ones only one. -/
abbrev PathSet := List String

/-- Add a path.  Of two equal paths the first one stays. -/
def PathSet.insert (path : String) : PathSet → PathSet
  | [] => [path]
  | q :: rest =>
    match comparePaths path q with
    | .lt => path :: q :: rest
    | .eq => q :: rest
    | .gt => q :: PathSet.insert path rest

example : comparePaths "a/b.php" "a.php" = .lt := by decide +kernel
example : comparePaths "./b" "a" = .lt := by decide +kernel
example : comparePaths "a/./b" "a//b/" = .eq := by decide +kernel

end DocFacts.Files
