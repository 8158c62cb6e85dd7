import DocFacts.Value.Basic

/-!
# Attributes

An object takes arguments one at a time, each at a slot: a position or a name.  `Attributes`
is the object that records what it is given.  A position that is set beyond the end fills the
gap with empty strings.
-/

namespace DocFacts

/-- Where an argument goes. -/
inductive Slot where
  /-- A position, counted from zero. -/
  | index (i : Nat)
  /-- A name. -/
  | name (n : String)
deriving DecidableEq, Repr

/-- Arguments as they were set. -/
structure Attributes where
  /-- The arguments by position. -/
  positional : List Value := []
  /-- The arguments by name. -/
  named : Table String Value := []
deriving DecidableEq, Repr, Inhabited

namespace Attributes

/-- What stands at a position that was never set. -/
def filler : Value := .string ""

/-- Put a value at a position.  A list that is too short is filled up first. -/
def setAt (values : List Value) (i : Nat) (v : Value) : List Value :=
  (values ++ List.replicate (i + 1 - values.length) filler).set i v

/-- Set an argument. -/
def set (a : Attributes) (slot : Slot) (v : Value) : Attributes :=
  match slot with
  | .index i => { a with positional := setAt a.positional i v }
  | .name n => { a with named := a.named.insert n v }

end Attributes

end DocFacts
