import DocFacts.Text.Blank
import DocFacts.Value.Cast
import DocFacts.Value.Json

/-!
# Entries

The commas of a body separate its entries.  While an entry is read it is a draft: a name, and
behind an equals sign a value.  A finished entry is named or unnamed.  The entries of a body
make up its value.  If one entry is named the body is a map, and the unnamed entries are flags
of it: keys with the empty string.  Otherwise the body is a list, except that a single entry
without any comma is that entry's own value.
-/

namespace DocFacts

/-- What has been read of a name or of a value. -/
inductive Token where
  /-- Text, with its backslashes. -/
  | text (t : String)
  /-- A composite between braces. -/
  | composite (v : Value)
deriving DecidableEq, Repr

namespace Token

/-- Add a character.  Nothing can be added to a composite. -/
def push : Token → Char → Token
  | .text t, c => .text (t.push c)
  | .composite v, _ => .composite v

/-- There is nothing but blank characters. -/
def isBlank : Token → Bool
  | .text t => Text.allBlank t.toList
  | .composite _ => false

/-- The token as a key: trimmed text, or the display form of a composite. -/
def key : Token → String
  | .text t => String.ofList (Text.trim t.toList)
  | .composite v => v.display

/-- The token as a value. -/
def value (token : Token) (quoted : Bool) : Value :=
  match token with
  | .text t => Value.cast t quoted
  | .composite v => v

end Token

/-- The side of the equals sign on which a draft stands. -/
inductive Side where
  /-- In front of the equals sign, or no equals sign so far. -/
  | name
  /-- Behind the equals sign. -/
  | value
deriving DecidableEq, Repr

/-- An entry while it is read. -/
structure Draft where
  /-- The side that is being read. -/
  side : Side := .name
  /-- What stands in front of the equals sign. -/
  name : Token := .text ""
  /-- What stands behind it. -/
  value : Token := .text ""
  /-- The side that is being read holds a quoted string. -/
  quoted : Bool := false
deriving DecidableEq, Repr

/-- A finished entry. -/
inductive Entry where
  /-- A name and its value. -/
  | named (key : String) (v : Value)
  /-- A value alone.  The key is for the case that the body turns out to be a map. -/
  | unnamed (key : String) (v : Value)
deriving DecidableEq, Repr

namespace Draft

/-- The token that is being read. -/
def current (d : Draft) : Token :=
  match d.side with
  | .name => d.name
  | .value => d.value

/-- Replace the token that is being read. -/
def setCurrent (d : Draft) (token : Token) : Draft :=
  match d.side with
  | .name => { d with name := token }
  | .value => { d with value := token }

/-- Add a character to the token that is being read. -/
def push (d : Draft) (c : Char) : Draft := d.setCurrent (d.current.push c)

/-- The token that is being read is a quoted string.  What was read of it before is dropped. -/
def quote (d : Draft) (text : String) : Draft :=
  { d.setCurrent (.text text) with quoted := true }

/-- The token that is being read is a composite.  What was read of it before is dropped. -/
def compose (d : Draft) (v : Value) : Draft := d.setCurrent (.composite v)

/-- Cross the equals sign. -/
def crossEquals (d : Draft) : Draft := { d with side := .value, quoted := false }

/-- Nothing has been written.  An empty string between quotation marks is something. -/
def isEmpty (d : Draft) : Bool := d.side == .name && !d.quoted && d.name.isBlank

/-- The entry that a draft has become. -/
def finish (d : Draft) : Entry :=
  match d.side with
  | .name => .unnamed d.name.key (d.name.value d.quoted)
  | .value => .named d.name.key (d.value.value d.quoted)

end Draft

namespace Entry

/-- The value of an entry in a list. -/
def value : Entry → Value
  | .named _ v => v
  | .unnamed _ v => v

/-- The row of an entry in a map.  An unnamed entry is a flag. -/
def field : Entry → String × Value
  | .named key v => (key, v)
  | .unnamed key _ => (key, .string "")

/-- The value of a body with the given entries.  `keyed` says that an equals sign has been
crossed, and `separated` that there was a comma. -/
def assemble (entries : List Entry) (keyed separated : Bool) : Value :=
  if keyed then .map (Table.ofList (entries.map field))
  else
    match entries, separated with
    | [entry], false => entry.value
    | entries, _ => .list (entries.map value)

end Entry

end DocFacts
