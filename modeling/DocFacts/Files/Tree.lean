import DocFacts.Files.Access
import DocFacts.Files.Path
import DocFacts.Table

/-!
# A file system in memory

A tree holds directories and files by the list of names that leads to them from the top.
Paths are followed name by name.  Two dots go up, single dots and empty names stay, and all
of these need a directory to stand in.  Nothing is known above the top.
-/

namespace DocFacts.Files

/-- A file system in memory.  The top is a directory that is always there. -/
structure Tree where
  /-- The directories below the top. -/
  directories : List (List String) := []
  /-- The files with their contents. -/
  files : Table (List String) ByteArray := []

namespace Tree

/-- There is a directory at the end of these names. -/
def hasDirectory (t : Tree) (names : List String) : Bool :=
  names.isEmpty || t.directories.contains names

/-- There is anything at the end of these names. -/
def has (t : Tree) (names : List String) : Bool :=
  t.hasDirectory names || (t.files.get? names).isSome

/-- Follow the segments of a path from a place in the tree. -/
def follow (t : Tree) (place : List String) : List String → Except Fault (List String)
  | [] => .ok place
  | segment :: rest =>
    if !t.hasDirectory place then .error .notDirectory
    else if segment = "" ∨ segment = "." then t.follow place rest
    else if segment = ".." then
      if place.isEmpty then .error .missing else t.follow place.dropLast rest
    else if t.has (place ++ [segment]) then t.follow (place ++ [segment]) rest
    else .error .missing

/-- Follow a path.  An absolute path leads nowhere. -/
def resolve (t : Tree) (path : String) : Except Fault (List String) :=
  match segments path with
  | "" :: _ => .error .missing
  | names => t.follow [] names

/-- A place below the top, from the directory above it on. -/
def ancestors : List String → List (List String)
  | [] => []
  | name :: rest => [name] :: (ancestors rest).map (name :: ·)

/-- Add a directory and those above it. -/
def addDirectory (t : Tree) (path : String) : Tree :=
  let names := (segments path).filter (fun s => s ≠ "" ∧ s ≠ ".")
  { t with directories := t.directories ++ ancestors names }

/-- Add a file and the directories above it. -/
def addFile (t : Tree) (path : String) (content : ByteArray) : Tree :=
  let names := (segments path).filter (fun s => s ≠ "" ∧ s ≠ ".")
  { directories := t.directories ++ ancestors names.dropLast
    files := t.files.insert names content }

/-- The names in a directory. -/
def childrenOf (t : Tree) (place : List String) : List String :=
  let all := t.directories ++ t.files.keys
  (all.filterMap fun names =>
    if names.dropLast = place then names.getLast? else none).eraseDups

/-- The content of the file at a path. -/
def read (t : Tree) (path : String) : Except Fault ByteArray := do
  let place ← t.resolve path
  match t.files.get? place with
  | some content => .ok content
  | none => .error .isDirectory

/-- The place of a file that is to be written.  The directory above it has to be there.  A
path that ends in a slash or in dots asks for a directory. -/
def placeToWrite (t : Tree) (path : String) : Except Fault (List String) :=
  match (segments path).reverse.dropWhile (· = "") with
  | [] => .error .missing
  | last :: above => do
    let dir ← if above.getLast? = some "" then .error .missing else t.follow [] above.reverse
    if !t.hasDirectory dir then .error .notDirectory
    else if last = "." ∨ last = ".." ∨ path.toList.getLast? = some '/' then .error .isDirectory
    else if t.hasDirectory (dir ++ [last]) then .error .isDirectory
    else .ok (dir ++ [last])

/-- Write a file. -/
def write (t : Tree) (path content : String) : Except Fault Tree := do
  let place ← t.placeToWrite path
  return { t with files := t.files.insert place content.toUTF8 }

/-- The operations of a tree that does not change.  Writing only tells whether it would
succeed. -/
def access (t : Tree) (input : ByteArray) : Access Id where
  isFile path := match t.resolve path with
    | .ok place => (t.files.get? place).isSome
    | .error _ => false
  isDirectory path := match t.resolve path with
    | .ok place => t.hasDirectory place
    | .error _ => false
  isPresent path := (t.resolve path).toOption.isSome
  children path := match t.resolve path with
    | .ok place => t.childrenOf place
    | .error _ => []
  read path := t.read path
  readInput := .ok input
  write path content := (t.write path content).map fun _ => ()

end Tree

end DocFacts.Files
