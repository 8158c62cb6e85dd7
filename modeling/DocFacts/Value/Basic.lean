import DocFacts.Table

/-!
# Values

A value is what one annotation, or one argument inside it, stands for: a truth value, a
number, a string, a list of unnamed arguments, or a map of named ones.
-/

namespace DocFacts

/-- A parsed argument. -/
inductive Value where
  /-- A truth value. -/
  | bool (b : Bool)
  /-- An integer of 64 bits. -/
  | int (n : Int64)
  /-- A floating-point number. -/
  | float (x : Float)
  /-- A string. -/
  | string (s : String)
  /-- Unnamed arguments in source order. -/
  | list (items : List Value)
  /-- Named arguments, a `Table` of values. -/
  | map (fields : List (String × Value))
deriving Repr, Inhabited

namespace Value

mutual

/-- Equality of values is decided part by part. -/
def decEq (v w : Value) : Decidable (v = w) :=
  match v, w with
  | .bool a, .bool b => decidable_of_iff (a = b) (by simp)
  | .int a, .int b => decidable_of_iff (a = b) (by simp)
  | .float a, .float b => decidable_of_iff (a = b) (by simp)
  | .string a, .string b => decidable_of_iff (a = b) (by simp)
  | .list a, .list b =>
    match decEqItems a b with
    | isTrue h => isTrue (by rw [h])
    | isFalse h => isFalse (by simpa using h)
  | .map a, .map b =>
    match decEqFields a b with
    | isTrue h => isTrue (by rw [h])
    | isFalse h => isFalse (by simpa using h)
  | .bool _, .int _ | .bool _, .float _ | .bool _, .string _ | .bool _, .list _
  | .bool _, .map _ | .int _, .bool _ | .int _, .float _ | .int _, .string _ | .int _, .list _
  | .int _, .map _ | .float _, .bool _ | .float _, .int _ | .float _, .string _
  | .float _, .list _ | .float _, .map _ | .string _, .bool _ | .string _, .int _
  | .string _, .float _ | .string _, .list _ | .string _, .map _ | .list _, .bool _
  | .list _, .int _ | .list _, .float _ | .list _, .string _ | .list _, .map _
  | .map _, .bool _ | .map _, .int _ | .map _, .float _ | .map _, .string _
  | .map _, .list _ => isFalse (by simp)

/-- Equality of lists of values. -/
def decEqItems (a b : List Value) : Decidable (a = b) :=
  match a, b with
  | [], [] => isTrue rfl
  | [], _ :: _ | _ :: _, [] => isFalse (by simp)
  | v :: a, w :: b =>
    match decEq v w, decEqItems a b with
    | isTrue h, isTrue hs => isTrue (by rw [h, hs])
    | isFalse h, _ => isFalse (by simp [h])
    | _, isFalse hs => isFalse (by simp [hs])

/-- Equality of lists of named values. -/
def decEqFields (a b : List (String × Value)) : Decidable (a = b) :=
  match a, b with
  | [], [] => isTrue rfl
  | [], _ :: _ | _ :: _, [] => isFalse (by simp)
  | (j, v) :: a, (k, w) :: b =>
    if hk : j = k then
      match decEq v w, decEqFields a b with
      | isTrue h, isTrue hs => isTrue (by rw [hk, h, hs])
      | isFalse h, _ => isFalse (by simp [h])
      | _, isFalse hs => isFalse (by simp [hs])
    else isFalse (by simp [hk])

end

instance : DecidableEq Value := decEq

/-- The text of a string. -/
def string? : Value → Option String
  | .string s => some s
  | _ => none

/-- The truth value of a truth value. -/
def bool? : Value → Option Bool
  | .bool b => some b
  | _ => none

/-- The integer of an integer. -/
def int? : Value → Option Int64
  | .int n => some n
  | _ => none

/-- The floating-point number of either kind of number, for an integer the nearest one. -/
def float? : Value → Option Float
  | .int n => some (Float.ofInt n.toInt)
  | .float x => some x
  | _ => none

/-- The elements of a list. -/
def list? : Value → Option (List Value)
  | .list items => some items
  | _ => none

/-- The named arguments of a map. -/
def map? : Value → Option (Table String Value)
  | .map fields => some fields
  | _ => none

/-- The argument of a given name.  Only a map has any. -/
def get? (v : Value) (name : String) : Option Value :=
  v.map?.bind fun fields => fields.get? name

/-- The value with a named argument set.  Nothing but a map can take one. -/
def set (v : Value) (name : String) (argument : Value) : Value :=
  match v with
  | .map fields => .map (Table.insert fields name argument)
  | other => other

/-- Lists and maps are composite. -/
def isComposite : Value → Bool
  | .list _ => true
  | .map _ => true
  | _ => false

end Value

end DocFacts
