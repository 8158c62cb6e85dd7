import DocFacts.Proofs.Json
import DocFacts.Proofs.List
import DocFacts.Value.Json

/-!
# Values read apart

The JSON form of a value has no tags, and still it loses nothing but floating-point numbers that
are not finite.  Every kind of value has its kind of document, so two values without floating-point
numbers have the same document only if they are the same (`FloatFree.toJson_inj`).  What is written
of them is the same only then, too (`eq_of_compact_eq`).
-/

namespace DocFacts.Value

/-- There is no floating-point number in the value. -/
inductive FloatFree : Value → Prop where
  /-- A truth value. -/
  | bool (b : Bool) : FloatFree (.bool b)
  /-- An integer. -/
  | int (n : Int64) : FloatFree (.int n)
  /-- A string. -/
  | string (s : String) : FloatFree (.string s)
  /-- A list of such values. -/
  | list {items : List Value} (parts : ∀ v ∈ items, FloatFree v) : FloatFree (.list items)
  /-- A map of such values. -/
  | map {fields : List (String × Value)} (parts : ∀ row ∈ fields, FloatFree row.2) :
      FloatFree (.map fields)

theorem toJsonItems_eq_map (items : List Value) : toJsonItems items = items.map toJson := by
  induction items with
  | nil => rfl
  | cons v rest ih => rw [toJsonItems, ih, List.map_cons]

/-- The document of a named argument. -/
def member (row : String × Value) : String × Json := (row.1, row.2.toJson)

theorem toJsonFields_eq_map (fields : List (String × Value)) :
    toJsonFields fields = fields.map member := by
  induction fields with
  | nil => rfl
  | cons row rest ih => rw [toJsonFields, ih, List.map_cons, member]

variable {v w : Value}

theorem FloatFree.toJson (h : FloatFree v) : v.toJson.FloatFree := by
  induction h with
  | bool b => exact .bool b
  | int n => exact .int n.toInt
  | string s => exact .string s
  | list parts ih =>
    rw [Value.toJson, toJsonItems_eq_map]
    exact .array (List.forall_mem_map.2 ih)
  | map parts ih =>
    rw [Value.toJson, toJsonFields_eq_map]
    exact .object (List.forall_mem_map.2 ih)

/-- Every kind of value has its kind of document. -/
theorem FloatFree.toJson_inj (hv : FloatFree v) (hw : FloatFree w) (h : v.toJson = w.toJson) :
    v = w := by
  induction hv generalizing w with
  | bool b =>
    cases hw with
    | bool b' => rw [Json.bool.inj h]
    | int _ | string _ | list _ | map _ => cases h
  | int n =>
    cases hw with
    | int n' => rw [Int64.toInt_inj.1 (Json.int.inj h)]
    | bool _ | string _ | list _ | map _ => cases h
  | string s =>
    cases hw with
    | string s' => rw [Json.string.inj h]
    | bool _ | int _ | list _ | map _ => cases h
  | list parts ih =>
    cases hw with
    | list parts' =>
      have hitems := Json.array.inj h
      rw [toJsonItems_eq_map, toJsonItems_eq_map] at hitems
      rw [List.eq_of_map_eq_map (fun a ha b hb => ih a ha (parts' b hb)) hitems]
    | bool _ | int _ | string _ | map _ => cases h
  | @map fields parts ih =>
    cases hw with
    | @map fields' parts' =>
      have hmember : ∀ a ∈ fields, ∀ b ∈ fields', member a = member b → a = b := by
        intro a ha b hb hab
        obtain ⟨hname, hpart⟩ := Prod.mk.inj hab
        exact Prod.ext hname (ih a ha (parts' b hb) hpart)
      have hmembers := Json.object.inj h
      rw [toJsonFields_eq_map, toJsonFields_eq_map] at hmembers
      rw [List.eq_of_map_eq_map hmember hmembers]
    | bool _ | int _ | string _ | list _ => cases h

/-- A composite is displayed as its document. -/
theorem display_of_isComposite (h : v.isComposite = true) : v.display = v.toJson.compact := by
  cases v with
  | list items => rfl
  | map fields => rfl
  | bool _ | int _ | float _ | string _ => cases h

/-- **What is written of a value tells the value.**  The compact documents of two values without
floating-point numbers are the same only if the values are, and so are the display forms of two
composites. -/
theorem eq_of_compact_eq (hv : FloatFree v) (hw : FloatFree w) :
    (v.toJson.compact = w.toJson.compact → v = w) ∧
      (v.isComposite = true → w.isComposite = true → v.display = w.display → v = w) := by
  have hcompact : v.toJson.compact = w.toJson.compact → v = w := fun h =>
    hv.toJson_inj hw (Json.compact_inj hv.toJson hw.toJson h)
  refine ⟨hcompact, ?_⟩
  intro hvc hwc h
  rw [display_of_isComposite hvc, display_of_isComposite hwc] at h
  exact hcompact h

/-- A list of an integer is not displayed as a list of the string that spells it, inside a map as
anywhere. -/
theorem display_list_int_ne_list_string :
    FloatFree (.map [("a", .list [.int 1, .bool true])]) ∧
      FloatFree (.map [("a", .list [.string "1", .bool true])]) ∧
      (Value.map [("a", .list [.int 1, .bool true])]).display ≠
        (Value.map [("a", .list [.string "1", .bool true])]).display := by
  have hint : FloatFree (.map [("a", .list [.int 1, .bool true])]) := by
    refine .map (List.forall_mem_singleton.2 (.list (List.forall_mem_cons.2 ⟨.int 1, ?_⟩)))
    exact List.forall_mem_singleton.2 (.bool true)
  have hstring : FloatFree (.map [("a", .list [.string "1", .bool true])]) := by
    refine .map (List.forall_mem_singleton.2 (.list (List.forall_mem_cons.2 ⟨.string "1", ?_⟩)))
    exact List.forall_mem_singleton.2 (.bool true)
  exact ⟨hint, hstring, fun h => absurd ((eq_of_compact_eq hint hstring).2 rfl rfl h) (by decide)⟩

end DocFacts.Value
