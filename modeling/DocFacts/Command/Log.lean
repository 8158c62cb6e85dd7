import DocFacts.Decimal.Literal
import DocFacts.Text.Alphanumeric
import DocFacts.Text.Blank

/-!
# Log lines

Events are reported on the standard error stream.  Each has a level and a target, which says
what part of the program it comes from.  A filter is a list of directives that say from what
level on events are reported.  A directive may be about the targets that start with a text,
and about the events that have a field.  For an event the most specific directive about it
counts: the one with the longest target, of these one with a field, and of two alike the
later one.  Without a directive about it an event is not reported.
-/

namespace DocFacts.Command

/-- The importance of an event. -/
inductive Level where
  /-- Something failed. -/
  | error
  /-- Something is odd. -/
  | warn
  /-- Something worth knowing. -/
  | info
  /-- For those who look for a fault. -/
  | debug
  /-- Every step. -/
  | trace
deriving DecidableEq, Repr

/-- The level as a number.  Less important levels have larger ones. -/
def Level.rank : Level → Nat
  | .error => 1
  | .warn => 2
  | .info => 3
  | .debug => 4
  | .trace => 5

/-- The name of a level. -/
def Level.name : Level → String
  | .error => "ERROR"
  | .warn => "WARN"
  | .info => "INFO"
  | .debug => "DEBUG"
  | .trace => "TRACE"

/-- Something that happened. -/
structure Event where
  /-- How important it is. -/
  level : Level
  /-- What part of the program it comes from. -/
  target : String
  /-- What happened. -/
  message : String
  /-- With what, by name. -/
  fields : List (String × String) := []
deriving DecidableEq, Repr

/-- The line of an event, with a line feed. -/
def Event.line (e : Event) : String :=
  e.level.name ++ " " ++ e.target ++ ": " ++ e.message ++
    String.join (e.fields.map fun (name, value) => " " ++ name ++ "=" ++ value) ++ "\n"

/-- What a filter says about some events. -/
structure Directive where
  /-- The start of the targets it is about, otherwise it is about all. -/
  target : Option String := none
  /-- A field that the events have, otherwise all events are meant. -/
  field : Option String := none
  /-- It is about what happens inside of spans.  No event of this program does. -/
  spans : Bool := false
  /-- The largest rank that is reported, zero for nothing. -/
  threshold : Nat
deriving DecidableEq, Repr

/-- The number that digits stand for, with an optional plus sign. -/
def count? (text : List Char) : Option Nat :=
  let ds := match text with
    | '+' :: rest => rest
    | text => text
  if ds ≠ [] ∧ ds.all Char.isDigit then some (Decimal.natOfDigits ds) else none

/-- The rank for the name or number of a level.  Case does not matter. -/
def threshold? (text : List Char) : Option Nat :=
  match count? text with
  | some n => if n ≤ 5 then some n else none
  | none =>
    match String.ofList (text.map Char.toLower) with
    | "off" => some 0
    | "error" => some 1
    | "warn" => some 2
    | "info" => some 3
    | "debug" => some 4
    | "trace" => some 5
    | _ => none

/-- A directive may start with the character: a bracket, or the start of a target or a
level. -/
def startsDirective (c : Char) : Bool :=
  c == '[' || c == '_' || c == '-' || c == ':' || Text.isAlphanumeric c

/-- What the second text has up to the place where the first has a character that `stop` holds
for, and what stands from there on in either. -/
def cut (stop : Char → Bool) (found shown : List Char) : List Char × List Char × List Char :=
  let n := (found.takeWhile fun c => !stop c).length
  (shown.take n, found.drop n, shown.drop n)

/-- Read what stands between brackets, behind the opening one: the name of a span, and a field
between braces.  A field with a value is one of spans. -/
def readBrackets? (found shown : List Char) : Option (Directive × List Char × List Char) :=
  match cut (fun c => c = ']' ∨ c = '{') found shown with
  | (_, ']' :: found, shown) => some ({ spans := true, threshold := 5 }, found, shown.drop 1)
  | (name, '{' :: found, shown) =>
    match cut (· = '}') found (shown.drop 1) with
    | (field, '}' :: ']' :: found, shown) =>
      if field = [] then none
      else
        let spans := !name.isEmpty || field.contains '='
        let field := some (String.ofList field)
        some ({ field, spans, threshold := 5 }, found, shown.drop 2)
    | _ => none
  | _ => none

/-- Read the level of a directive, behind an equals sign.  Without one everything is reported. -/
def Directive.readLevel? (d : Directive) (found shown : List Char) : Option Directive :=
  match found, shown.drop 1 with
  | [], _ => some d
  | '=' :: _, [] => some d
  | '=' :: _, level => (threshold? level).map fun n => { d with threshold := n }
  | _, _ => none

/-- A directive is a level, or says what it is about, or both with an equals sign between
them.  Without a level everything is reported.  The parts are looked for in the text without
the blank characters around it, but cut at the same places out of the text with them.  So
blanks behind a level spoil it, and blanks in front shift every part. -/
def Directive.read? (text : List Char) : Option Directive :=
  let trimmed := Text.trim text
  if !(trimmed.head?.any startsDirective) then none
  else
    let (name, found, shown) := cut (fun c => c = '=' ∨ c = '[') trimmed text
    let target := if name = [] then none else some (String.ofList name)
    match found with
    | [] =>
      match threshold? text with
      | some n => some { threshold := n }
      | none => some { target := some (String.ofList text), threshold := 5 }
    | '[' :: found =>
      (readBrackets? found (shown.drop 1)).bind fun (d, found, shown) =>
        readLevel? { d with target := target } found shown
    | found => readLevel? { target := target, threshold := 5 } found shown

/-- The directive is about the event. -/
def Directive.concerns (d : Directive) (e : Event) : Bool :=
  let target := match d.target with
    | none => true
    | some t => t.toList.isPrefixOf e.target.toList
  let field := match d.field with
    | none => true
    | some name => name == "message" || (e.fields.map Prod.fst).contains name
  !d.spans && target && field

/-- The first directive is at least as specific as the second.  Of two with fields the later
name in the order of texts counts. -/
def Directive.atLeastAsSpecific (d b : Directive) : Bool :=
  let length (d : Directive) : Nat := match d.target with
    | none => 0
    | some t => t.length + 1
  if length d ≠ length b then decide (length b < length d)
  else
    match d.field, b.field with
    | _, none => true
    | none, some _ => false
    | some x, some y => decide (y ≤ x)

/-- A filter: its directives. -/
abbrev Filter := List Directive

/-- Read directives with commas between them.  If there is none, errors are reported. -/
def Filter.read? (text : String) : Option Filter := do
  let directives ← ((text.splitOn ",").filter (· ≠ "")).mapM fun t => Directive.read? t.toList
  return if directives.isEmpty then [{ threshold := 1 }] else directives

/-- The directive that counts for an event. -/
def Filter.directive? (filter : Filter) (e : Event) : Option Directive :=
  (filter.filter (·.concerns e)).foldl
    (fun best d =>
      match best with
      | none => some d
      | some b => if d.atLeastAsSpecific b then some d else some b)
    none

/-- The event is reported. -/
def Filter.reports (filter : Filter) (e : Event) : Bool :=
  match filter.directive? e with
  | none => false
  | some d => decide (e.level.rank ≤ d.threshold)

/-- The filter of a run: the one that the environment gives, unless it cannot be read, and
otherwise the one for the number of times that more was asked for. -/
def Filter.choose (environment : Option String) (verbosity : Nat) : Filter :=
  match environment.bind Filter.read? with
  | some filter => filter
  | none => [{ threshold := match verbosity with
                | 0 => 2
                | 1 => 4
                | _ => 5 }]

/-- The lines of the events that a filter reports. -/
def Filter.lines (filter : Filter) (events : List Event) : String :=
  String.join ((events.filter filter.reports).map Event.line)

example : Directive.read? "apidoc=debug".toList = some { target := "apidoc", threshold := 4 } := by
  decide +kernel
example : Directive.read? " warn".toList = some { target := " warn", threshold := 5 } := by
  decide +kernel
example : Directive.read? "«".toList = none := by decide +kernel

end DocFacts.Command
