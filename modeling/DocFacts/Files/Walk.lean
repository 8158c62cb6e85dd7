import DocFacts.Files.Access
import DocFacts.Files.Pattern

/-!
# Finding the paths of a pattern

A pattern is cut at its slashes, and the file system is walked along its segments.  A segment
without wildcards is only looked up.  For any other the names in the directory are tried in
order.  Two stars match directories, none or more of them, and as the last segment the
directories themselves.  A pattern that starts with a dot and has a wildcard also tries the
two special names.
-/

namespace DocFacts.Files

/-- A segment of a pattern. -/
inductive Segment where
  /-- A name that is only looked up. -/
  | fixed (name : String)
  /-- Any number of directories. -/
  | deep
  /-- Names that match. -/
  | wild (pattern : List Wild)
deriving DecidableEq, Repr

/-- The segment with a given pattern. -/
def Segment.ofPattern (pattern : List Wild) : Segment :=
  match Pattern.literal? pattern with
  | some name => .fixed name
  | none => if pattern.contains .deep then .deep else .wild pattern

/-- The segment matches a name in a directory. -/
def Segment.isMatch (segment : Segment) (name : String) : Bool :=
  match segment with
  | .fixed n => n == name
  | .deep => true
  | .wild pattern => Pattern.isMatch pattern name.toList

/-- The special names that a segment with wildcards stands for. -/
def Segment.specials : Segment → List String
  | .wild (.char '.' :: rest) =>
    ["..", "."].filter fun name => Pattern.isMatch (.char '.' :: rest) name.toList
  | _ => []

/-- Two stars twice in a row say no more than once. -/
def collapseDeep : List Segment → List Segment
  | .deep :: .deep :: rest => collapseDeep (.deep :: rest)
  | segment :: rest => segment :: collapseDeep rest
  | [] => []

/-- A pattern, ready to be searched for. -/
structure Search where
  /-- The directory in which the search starts. -/
  origin : String
  /-- The segments. -/
  segments : List Segment
  /-- Only directories are asked for. -/
  wantsDirectory : Bool
deriving DecidableEq, Repr

/-- The texts between the slashes of a pattern, without the empty one behind a slash at the
end. -/
def patternSegments (pattern : List Char) : List (List Char) :=
  let pieces := splitAt '/' pattern
  if pieces.getLast? = some [] then pieces.dropLast else pieces

/-- Read a pattern.  It has to be right as a whole and in each of its segments. -/
def Search.read (pattern : String) : Except PatternError Search := do
  let text := pattern.toList
  let _ ← Pattern.read 0 none text
  let (origin, relative) := match text with
    | '/' :: rest => ("/", rest)
    | _ => (".", text)
  let patterns ← (patternSegments relative).mapM (Pattern.read 0 none)
  let segments :=
    if relative = [] then [.fixed ""] else collapseDeep (patterns.map Segment.ofPattern)
  return ⟨origin, segments, text.getLast? = some '/'⟩

/-- A segment added to a path.  Names in the current directory stand alone. -/
def extend (path name : String) : String :=
  if parts path = [.here] then name else join path name

/-- A bound on the levels that a walk goes down.  No file system takes longer paths. -/
def deepest : Nat := 4096

variable {m : Type → Type} [Monad m]

/-- Collect what a function gives for the elements of a list. -/
def collectM {α β : Type} (f : α → m (List β)) : List α → m (List β)
  | [] => pure []
  | a :: rest => do
    let front ← f a
    let back ← collectM f rest
    return front ++ back

/-- The paths below `path` that match the segments.  `levels` bounds the walk down along two
stars. -/
def walk (fs : Access m) (wantsDirectory : Bool) (levels : Nat) (path : String)
    (segments : List Segment) : m (List String) := do
  -- What a path gives whose last name has been matched.
  let final (p : String) : m (List String) := do
    if wantsDirectory then
      return if ← fs.isDirectory p then [p] else []
    else return [p]
  match segments with
  | [] => final path
  | .fixed name :: rest =>
    let next := extend path name
    let found ← if name = "." ∨ name = ".." then fs.isDirectory path else fs.isPresent next
    if found then
      if rest.isEmpty then final next else walk fs wantsDirectory levels next rest
    else return []
  | .deep :: rest =>
    if ← fs.isDirectory path then
      let names := (← fs.children path).mergeSort fun a b => decide (a ≤ b)
      collectM (fun name => do
        let child := extend path name
        let isDirectory ← fs.isDirectory child
        match levels with
        | 0 => return []
        | levels + 1 =>
          let here ←
            match rest with
            | [] => pure (if isDirectory then [child] else [])
            | segment :: more =>
              if segment.isMatch name then
                if more.isEmpty then final child
                else walk fs wantsDirectory levels child more
              else pure []
          let below ←
            if isDirectory then walk fs wantsDirectory levels child (.deep :: rest) else pure []
          return here ++ below) names
    else return []
  | segment :: rest =>
    if ← fs.isDirectory path then
      let special ← collectM (fun name =>
        let next := join path name
        if rest.isEmpty then final next else walk fs wantsDirectory levels next rest)
        segment.specials
      let names := (← fs.children path).mergeSort fun a b => decide (a ≤ b)
      let below ← collectM (fun name =>
        let child := extend path name
        if segment.isMatch name then
          if rest.isEmpty then final child else walk fs wantsDirectory levels child rest
        else pure []) names
      return special ++ below
    else return []
termination_by (levels, segments.length)

/-- The paths of a pattern. -/
def Search.run (fs : Access m) (s : Search) : m (List String) :=
  walk fs s.wantsDirectory deepest s.origin s.segments

end DocFacts.Files
