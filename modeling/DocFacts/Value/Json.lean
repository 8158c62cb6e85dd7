import DocFacts.Json
import DocFacts.Value.Basic

/-!
# The texts of a value

A value has two texts.  Its JSON form carries no tags, so the constructors can be told apart
by the shape of the text only.  A floating-point number that is not finite becomes `null`.
Its display form shows scalars plainly and composites as their compact JSON.
-/

namespace DocFacts.Value

mutual

/-- The JSON form of a value. -/
def toJson : Value → Json
  | .bool b => .bool b
  | .int n => .int n.toInt
  | .float x => if Decimal.isFinite x then .float x else .null
  | .string s => .string s
  | .list items => .array (toJsonItems items)
  | .map fields => .object (toJsonFields fields)

/-- The JSON forms of the elements of a list. -/
def toJsonItems : List Value → List Json
  | [] => []
  | v :: rest => toJson v :: toJsonItems rest

/-- The JSON forms of the named arguments of a map. -/
def toJsonFields : List (String × Value) → List (String × Json)
  | [] => []
  | (name, v) :: rest => (name, toJson v) :: toJsonFields rest

end

/-- Displayed numbers never have an exponent, and nothing follows an integral one. -/
def displayedNumber : Decimal.Style where
  isPositional _ := true
  integralEnd := ""
  tie := .up
  infinity := "inf"
  negativeInfinity := "-inf"
  nan := "NaN"

/-- The display form of a value. -/
def display (v : Value) : String :=
  match v with
  | .bool b => if b then "true" else "false"
  | .int n => String.ofList (Json.integer n.toInt)
  | .float x => Decimal.write displayedNumber x
  | .string s => s
  | .list _ => v.toJson.compact
  | .map _ => v.toJson.compact

end DocFacts.Value
