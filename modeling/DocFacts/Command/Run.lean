import DocFacts.Command.Inputs
import DocFacts.Command.Log
import DocFacts.Command.Options
import DocFacts.Extraction.Extractor
import DocFacts.Source.Collect

/-!
# Running the command

The command collects the declarations of its inputs, extracts the annotations of all their
members, and writes them as a JSON document.  A run ends with a report of what it leaves
behind: the exit code, the two output streams, and the file written.  A failure is shown with
its context and the chain of its causes.
-/

namespace DocFacts.Command

open Files

/-- Why a run fails: what was being done, and the causes, the nearest first. -/
structure Failure where
  /-- What was being done. -/
  context : String
  /-- The causes. -/
  causes : List String
deriving DecidableEq, Repr

namespace Failure

/-- Indent the lines of a text behind the first one. -/
def hang (indent : Nat) (text : String) : String :=
  String.ofList (text.toList.flatMap fun c =>
    if c = '\n' then '\n' :: List.replicate indent ' ' else [c])

/-- A text filled up with blanks in front. -/
def padLeft (width : Nat) (text : String) : String :=
  String.ofList (List.replicate (width - text.length) ' ') ++ text

/-- The lines of the causes.  More than one are numbered. -/
def causeLines : List String → List String
  | [] => []
  | [cause] => ["    " ++ hang 4 cause]
  | causes => causes.mapIdx fun i cause => padLeft 5 (toString i) ++ ": " ++ hang 7 cause

/-- The text of a failure. -/
def text (f : Failure) : String :=
  "Error: " ++ f.context ++ "\n\nCaused by:\n" ++ "\n".intercalate (causeLines f.causes) ++ "\n"

end Failure

/-- What a run leaves behind. -/
structure Report where
  /-- The exit code. -/
  code : Nat
  /-- What is written to the standard output. -/
  stdout : String := ""
  /-- What is written to the standard error stream. -/
  stderr : String := ""
  /-- The file that is written, and its content. -/
  written : Option (String × String) := none
deriving DecidableEq, Repr

/-- The event for what the collector has come across. -/
def noteEvent (note : Source.Note) : Event :=
  let event (message : String) (fields : List (String × String)) : Event :=
    { level := .debug, target := "apidoc::source", message, fields }
  match note with
  | .space name => event "entering namespace"
      [("namespace", "\"" ++ name.replace "\\" "\\\\" ++ "\"")]
  | .declaration name documented => event "found declaration"
      [("declaration", name), ("documented", if documented then "true" else "false")]
  | .member owner name => event "found member" [("declaration", owner), ("member", name)]
  | .stray function => event "skipping function outside any declaration" [("function", function)]

/-- The event for an input without files. -/
def emptyInputEvent (argument : String) : Event :=
  { level := .warn, target := "apidoc", message := "no files matched"
    fields := [("input", argument)] }

/-- The event for a file whose declarations have been collected. -/
def collectedEvent (path : String) (declarations : Nat) : Event :=
  { level := .debug, target := "apidoc", message := "collected"
    fields := [("file", path), ("declarations", toString declarations)] }

/-- The event for a declaration that is left out. -/
def skippedEvent (declaration : String) (e : ScanError) : Event :=
  { level := .warn, target := "apidoc", message := "skipping declaration"
    fields := [("declaration", declaration), ("error", e.message)] }

/-- The result of a stage of a run, and the events on the way to it. -/
abbrev Stage (α : Type) := List Event × Except Failure α

variable {m : Type → Type} [Monad m]

/-- The declarations on the standard input. -/
def readInput (fs : Access m) : m (Stage (List Declaration)) := do
  match (← fs.readInput).bind decodeText with
  | .error fault => return ([], .error ⟨"failed to read stdin", [fault.message]⟩)
  | .ok source => return ((Source.notes source).map noteEvent, .ok (Source.collect source))

/-- The declarations of files, in the order of the files. -/
def readFiles (fs : Access m) : List String → m (Stage (List Declaration))
  | [] => return ([], .ok [])
  | path :: rest => do
    match (← fs.read path).bind decodeText with
    | .error fault => return ([], .error ⟨"failed to read " ++ path, [fault.message]⟩)
    | .ok source =>
      let found := Source.collect source
      let events := (Source.notes source).map noteEvent ++ [collectedEvent path found.length]
      let (later, result) ← readFiles fs rest
      return (events ++ later, result.map (found ++ ·))

/-- The declarations of the inputs. -/
def readDeclarations (fs : Access m) (inputs : List String) : m (Stage (List Declaration)) := do
  if inputs.isEmpty then readInput fs
  else
    let (found, fault) ← resolve fs inputs
    let warnings := found.empty.map emptyInputEvent
    match fault with
    | some e =>
      return (warnings, .error ⟨"invalid glob pattern: " ++ e.pattern, [e.error.message]⟩)
    | none =>
      let (events, result) ← readFiles fs found.files
      return (warnings ++ events, result)

/-- A declaration whose extraction fails, and why. -/
structure BadDeclaration where
  /-- The name of the declaration. -/
  name : String
  /-- What is wrong with a comment of it. -/
  error : ScanError
deriving DecidableEq, Repr

/-- The failure of a run because of a declaration. -/
def BadDeclaration.failure (e : BadDeclaration) : Failure :=
  ⟨"failed to extract " ++ e.name, [e.error.message, e.error.cause.message]⟩

/-- Extract declarations one after the other on top of what has been extracted.  One that
fails ends the run, or with `skipInvalid` is left out and noted. -/
def extractFrom (x : Extractor Unit) (skipInvalid : Bool) (state : Extractor.State Unit)
    (done : Table String Extraction) :
    List Declaration → List BadDeclaration × Except BadDeclaration (Table String Extraction)
  | [] => ([], .ok done)
  | d :: rest =>
    match x.extract d state with
    | (.ok extraction, state) =>
      extractFrom x skipInvalid state (done.insert d.name extraction) rest
    | (.error e, state) =>
      if skipInvalid then
        let (skipped, result) := extractFrom x skipInvalid state done rest
        (⟨d.name, e⟩ :: skipped, result)
      else ([], .error ⟨d.name, e⟩)

/-- Extract declarations with a fresh extractor.  The first part lists those left out. -/
def extractDeclarations (rules : Rules) (skipInvalid : Bool) (ds : List Declaration) :
    List BadDeclaration × Except BadDeclaration (Table String Extraction) :=
  extractFrom { scanner := Scanner.plain, rules := rules } skipInvalid { scanner := () } [] ds

/-- The names of what is inherited. -/
def Options.rules (o : Options) : Rules :=
  let standard : Rules := {}
  { route := o.route.getD standard.route, sector := o.sector.getD standard.sector }

/-- The document that a run writes. -/
def produce (fs : Access m) (o : Options) : m (Stage String) := do
  let (events, declarations) ← readDeclarations fs o.inputs
  match declarations with
  | .error failure => return (events, .error failure)
  | .ok declarations =>
    let (skipped, result) := extractDeclarations o.rules o.skipInvalid declarations
    let events := events ++ skipped.map fun e => skippedEvent e.name e.error
    match result with
    | .error e => return (events, .error e.failure)
    | .ok all =>
      let document := extractionsToJson all
      return (events, .ok ((if o.pretty then document.pretty else document.compact) ++ "\n"))

/-- Run with options that have been read.  `environment` is the log filter, if there is one. -/
def runOptions (fs : Access m) (environment : Option String) (o : Options) : m Report := do
  let filter := Filter.choose environment o.verbosity
  let (events, result) ← produce fs o
  let log := filter.lines events
  match result, o.output with
  | .error failure, _ => return { code := 1, stderr := log ++ failure.text }
  | .ok document, none => return { code := 0, stdout := document, stderr := log }
  | .ok document, some path =>
    match ← fs.write path document with
    | .ok () => return { code := 0, stderr := log, written := some (path, document) }
    | .error fault =>
      let failure : Failure := ⟨"failed to write " ++ path, [fault.message]⟩
      return { code := 1, stderr := log ++ failure.text }

/-- Run with the given arguments.  Wrong arguments end the run before anything is read. -/
def run (fs : Access m) (environment : Option String) (arguments : List String) : m Report :=
  match Options.read? arguments with
  | none => return { code := 2 }
  | some o => runOptions fs environment o

end DocFacts.Command
