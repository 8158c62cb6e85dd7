import DocFacts.Proofs.Text.Guarded
import DocFacts.Value.Cast
import DocFacts.Value.Json

/-!
# Values as annotation text

A value is written as the text of an annotation from which it can be read back.  Truth values
and numbers are written plainly and strings between quotation marks.  The elements of a list
end in commas, which tells a list of one element from that element, and the rows of a map are
separated by them.  A composite inside another one stands between braces.

Not every value has such a text.  A string that holds a word or a number is read as one, quoted
or not, and a line feed in a string may be followed by a star that is taken for a part of the
comment.  `Writable` leaves these out, and the keys that are not read as they are written.
-/

namespace DocFacts

namespace Value

/-- Put braces around the text of a composite. -/
def embed (v : Value) (text : List Char) : List Char :=
  if v.isComposite then '{' :: text ++ ['}'] else text

theorem embed_scalar {v : Value} {text : List Char} (h : v.isComposite = false) :
    v.embed text = text := by
  simp [embed, h]

theorem embed_composite {v : Value} {text : List Char} (h : v.isComposite = true) :
    v.embed text = '{' :: text ++ ['}'] := by
  simp [embed, h]

mutual

/-- The text of a value. -/
def written (v : Value) : List Char :=
  match v with
  | .bool _ | .int _ | .float _ => v.display.toList
  | .string s => '"' :: Text.guarded s.toList ++ ['"']
  | .list items => writtenItems items
  | .map fields => writtenFields fields

/-- The text of the elements of a list. -/
def writtenItems : List Value → List Char
  | [] => []
  | v :: rest => v.embed v.written ++ ',' :: writtenItems rest

/-- The text of the rows of a map. -/
def writtenFields : List (String × Value) → List Char
  | [] => []
  | [(key, v)] => key.toList ++ '=' :: v.embed v.written
  | (key, v) :: rest => key.toList ++ '=' :: v.embed v.written ++ ',' :: writtenFields rest

end

theorem writtenFields_cons_cons (key : String) (v : Value) (row : String × Value)
    (fields : List (String × Value)) :
    writtenFields ((key, v) :: row :: fields) =
      key.toList ++ '=' :: v.embed v.written ++ ',' :: writtenFields (row :: fields) := by
  rw [writtenFields]
  simp

/-- A string is read back from between its quotation marks, unless it holds a word or a number. -/
theorem cast_guarded {s : String} (htrue : isWord ['t', 'r', 'u', 'e'] s.toList = false)
    (hfalse : isWord ['f', 'a', 'l', 's', 'e'] s.toList = false)
    (hnumber : Decimal.Literal.read? (Text.trim s.toList) = none) :
    cast (String.ofList (Text.guarded s.toList)) true = .string s := by
  simp only [cast, String.toList_ofList, if_true]
  rw [Text.unescape_guarded, ofText, htrue, hfalse, hnumber]
  simp

/-- The value can be read back from its text. -/
inductive Writable : Value → Prop where
  /-- A truth value. -/
  | bool (b : Bool) : Writable (.bool b)
  /-- An integer. -/
  | int (n : Int64) : Writable (.int n)
  /-- A string on one line that is neither a word nor a number. -/
  | string {s : String} (line : '\n' ∉ s.toList)
      (word : isWord ['t', 'r', 'u', 'e'] s.toList = false ∧
        isWord ['f', 'a', 'l', 's', 'e'] s.toList = false)
      (number : Decimal.Literal.read? (Text.trim s.toList) = none) : Writable (.string s)
  /-- A list of such values. -/
  | list {items : List Value} (parts : ∀ v ∈ items, Writable v) : Writable (.list items)
  /-- A map of such values under distinct keys, with one row at least. -/
  | map {fields : List (String × Value)} (nonempty : fields ≠ [])
      (distinct : Table.Distinct fields) (keys : ∀ row ∈ fields, Text.Bare row.1.toList)
      (parts : ∀ row ∈ fields, Writable row.2) : Writable (.map fields)

end Value

end DocFacts
