/-!
# Command line options

Arguments are inputs or options.  An option that takes a value has it behind an equals sign or
in the next argument, and a short one also directly behind its letter.  Short flags may share
a hyphen.  Behind two hyphens everything is an input.  Every option but the verbosity may be
given only once.
-/

namespace DocFacts.Command

/-- What the command is asked to do. -/
structure Options where
  /-- Files, directories and patterns.  Without any the standard input is read. -/
  inputs : List String := []
  /-- The file to write to, otherwise the standard output. -/
  output : Option String := none
  /-- Write the pretty form. -/
  pretty : Bool := false
  /-- The name of the route. -/
  route : Option String := none
  /-- The name of the sector. -/
  sector : Option String := none
  /-- Leave out declarations that cannot be read instead of failing. -/
  skipInvalid : Bool := false
  /-- How many times more log lines were asked for. -/
  verbosity : Nat := 0
deriving DecidableEq, Repr, Inhabited

/-- An option that takes a value. -/
inductive Setting where
  /-- The file to write to. -/
  | output
  /-- The name of the route. -/
  | route
  /-- The name of the sector. -/
  | sector
deriving DecidableEq, Repr

namespace Options

/-- Set an option.  It must not be set twice, and the output file needs a name. -/
def assign (o : Options) (setting : Setting) (value : String) : Option Options :=
  match setting with
  | .output =>
    if o.output.isSome ∨ value = "" then none else some { o with output := some value }
  | .route => if o.route.isSome then none else some { o with route := some value }
  | .sector => if o.sector.isSome then none else some { o with sector := some value }

/-- What an argument comes to. -/
inductive Outcome where
  /-- It is wrong. -/
  | wrong
  /-- It is complete. -/
  | done (o : Options)
  /-- It needs the next argument as its value. -/
  | needs (o : Options) (setting : Setting)

/-- The outcome of setting an option. -/
def Outcome.ofAssigned : Option Options → Outcome
  | none => .wrong
  | some o => .done o

/-- Read the name of a long option and the value behind its equals sign. -/
def long (o : Options) (name : String) (value : Option String) : Outcome :=
  let setting (s : Setting) : Outcome :=
    match value with
    | some v => .ofAssigned (o.assign s v)
    | none => .needs o s
  match name, value with
  | "output", _ => setting .output
  | "route-annotation", _ => setting .route
  | "sector-annotation", _ => setting .sector
  | "pretty", none => if o.pretty then .wrong else .done { o with pretty := true }
  | "skip-invalid", none => if o.skipInvalid then .wrong else .done { o with skipInvalid := true }
  | "verbose", none => .done { o with verbosity := o.verbosity + 1 }
  | _, _ => .wrong

/-- Read the letters behind a single hyphen. -/
def short (o : Options) : List Char → Outcome
  | [] => .done o
  | 'v' :: rest => short { o with verbosity := o.verbosity + 1 } rest
  | ['o'] => .needs o .output
  | 'o' :: '=' :: value => .ofAssigned (o.assign .output (String.ofList value))
  | 'o' :: value => .ofAssigned (o.assign .output (String.ofList value))
  | _ => .wrong

/-- Split an option at its first equals sign. -/
def splitEquals (text : List Char) : String × Option String :=
  let name := String.ofList (text.takeWhile (· ≠ '='))
  match text.dropWhile (· ≠ '=') with
  | [] => (name, none)
  | _ :: value => (name, some (String.ofList value))

/-- Add an input. -/
def addInput (o : Options) (input : String) : Options := { o with inputs := o.inputs ++ [input] }

/-- An argument that starts with a hyphen is an option, except the hyphen alone. -/
def isOption (argument : String) : Bool :=
  match argument.toList with
  | '-' :: _ :: _ => true
  | _ => false

/-- Read arguments on top of what has been read. -/
def readFrom (o : Options) : List String → Option Options
  | [] => some o
  | argument :: rest =>
    let outcome : Outcome :=
      match argument.toList with
      | '-' :: '-' :: name =>
        let (name, value) := splitEquals name
        o.long name value
      | '-' :: c :: letters => o.short (c :: letters)
      | _ => .done (o.addInput argument)
    if argument = "--" then some (rest.foldl addInput o)
    else
      match outcome, rest with
      | .wrong, _ => none
      | .done o, rest => readFrom o rest
      | .needs _ _, [] => none
      | .needs o setting, value :: rest =>
        if isOption value then none
        else
          match o.assign setting value with
          | none => none
          | some o => readFrom o rest

/-- Read the arguments of the command.  There is no answer when they are wrong. -/
def read? (arguments : List String) : Option Options := readFrom {} arguments

end Options

end DocFacts.Command
