import DocFacts.Files.Walk

/-!
# Inputs of the command

An input is a file, a directory or a pattern.  A directory stands for the source files
anywhere below it, found by their extensions.  A pattern stands for the files that it matches.
All files are read once and in path order, whatever the order of the inputs.
-/

namespace DocFacts.Command

open Files

/-- What an input refers to. -/
inductive Input where
  /-- A file. -/
  | file (path : String)
  /-- A directory. -/
  | directory (path : String)
  /-- A pattern. -/
  | pattern (text : String)
deriving DecidableEq, Repr

/-- A pattern that cannot be read. -/
structure BadPattern where
  /-- The pattern. -/
  pattern : String
  /-- What is wrong with it. -/
  error : PatternError
deriving DecidableEq, Repr

/-- The extensions of source files. -/
def extensions : List String := ["php", "inc"]

variable {m : Type → Type} [Monad m]

/-- What an argument refers to. -/
def Input.classify (fs : Access m) (argument : String) : m Input := do
  if ← fs.isFile argument then return .file argument
  else if ← fs.isDirectory argument then return .directory argument
  else return .pattern argument

/-- The files that a pattern matches. -/
def matchingFiles (fs : Access m) (pattern : String) : m (Except BadPattern (List String)) :=
  match Search.read pattern with
  | .error e => return .error ⟨pattern, e⟩
  | .ok search => do
    let paths ← search.run fs
    let files ← collectM (fun path => do return if ← fs.isFile path then [path] else []) paths
    return .ok files

/-- The files that match any of some patterns, up to the first that cannot be read. -/
def matchingAny (fs : Access m) : List String → m (Except BadPattern (List String))
  | [] => return .ok []
  | pattern :: rest => do
    match ← matchingFiles fs pattern with
    | .error e => return .error e
    | .ok front => return (← matchingAny fs rest).map (front ++ ·)

/-- The files of an input. -/
def Input.files (fs : Access m) : Input → m (Except BadPattern (List String))
  | .file path => return .ok [path]
  | .directory path =>
    matchingAny fs (extensions.map fun ext => Pattern.escape path ++ "/**/*." ++ ext)
  | .pattern text => matchingFiles fs text

/-- The files of some inputs: the set of them, and the inputs that have none. -/
structure Resolved where
  /-- The files in path order. -/
  files : PathSet := []
  /-- The inputs without files. -/
  empty : List String := []
deriving DecidableEq, Repr

/-- Find the files of inputs on top of what has been found.  A pattern that cannot be read
ends the search.  The inputs without files are known even then. -/
def resolveFrom (fs : Access m) (found : Resolved) :
    List String → m (Resolved × Option BadPattern)
  | [] => return (found, none)
  | argument :: rest => do
    let input ← Input.classify fs argument
    match ← input.files fs with
    | .error e => return (found, some e)
    | .ok files =>
      resolveFrom fs
        { files := files.foldl (fun set path => set.insert path) found.files
          empty := if files.isEmpty then found.empty ++ [argument] else found.empty }
        rest

/-- Find the files of inputs. -/
def resolve (fs : Access m) (arguments : List String) : m (Resolved × Option BadPattern) :=
  resolveFrom fs {} arguments

end DocFacts.Command
