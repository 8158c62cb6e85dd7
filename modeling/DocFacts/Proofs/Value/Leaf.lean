import DocFacts.Proofs.Value.Json

/-!
# The leaves of a value

The leaves of a value are its parts, at any depth, that are no composites.  The document of a leaf
is a part of the document of the value (`Leaf.part`).  Of the leaves only a floating-point number
that is not finite becomes `null`, so there is a `null` in the document exactly if one of the leaves
is such a number (`part_null_iff`).
-/

namespace DocFacts

/-- The second document is the first one or a part of it, at any depth. -/
inductive Json.Part : Json → Json → Prop where
  /-- The document itself. -/
  | self (doc : Json) : Part doc doc
  /-- A part of an element. -/
  | item {items : List Json} {item part : Json} (hitem : item ∈ items) (h : Part item part) :
      Part (.array items) part
  /-- A part of a member. -/
  | member {members : List (String × Json)} {row : String × Json} {part : Json}
      (hrow : row ∈ members) (h : Part row.2 part) : Part (.object members) part

namespace Value

/-- The second value is a part of the first one, at any depth, and no composite. -/
inductive Leaf : Value → Value → Prop where
  /-- A value that is no composite is its own leaf. -/
  | self {v : Value} (hscalar : v.isComposite = false) : Leaf v v
  /-- The leaves of an element are those of the list. -/
  | item {items : List Value} {v x : Value} (hitem : v ∈ items) (h : Leaf v x) :
      Leaf (.list items) x
  /-- The leaves of a row are those of the map. -/
  | field {fields : List (String × Value)} {row : String × Value} {x : Value}
      (hrow : row ∈ fields) (h : Leaf row.2 x) : Leaf (.map fields) x

variable {v x : Value}

/-- A value that is no composite has no other leaf than itself. -/
theorem Leaf.eq (h : v.Leaf x) (hscalar : v.isComposite = false) : v = x := by
  cases h with
  | self _ => rfl
  | item _ _ => cases hscalar
  | field _ _ => cases hscalar

@[simp] theorem leaf_list_iff {items : List Value} :
    (list items).Leaf x ↔ ∃ v ∈ items, v.Leaf x := by
  constructor
  · intro h
    cases h with
    | self hscalar => cases hscalar
    | item hitem h => exact ⟨_, hitem, h⟩
  · rintro ⟨v, hitem, h⟩
    exact .item hitem h

@[simp] theorem leaf_map_iff {fields : List (String × Value)} :
    (map fields).Leaf x ↔ ∃ row ∈ fields, row.2.Leaf x := by
  constructor
  · intro h
    cases h with
    | self hscalar => cases hscalar
    | field hrow h => exact ⟨_, hrow, h⟩
  · rintro ⟨row, hrow, h⟩
    exact .field hrow h

/-- The document of a leaf is a part of the document of the value. -/
theorem Leaf.part (h : v.Leaf x) : v.toJson.Part x.toJson := by
  induction h with
  | self _ => exact .self _
  | item hitem _ ih =>
    rw [toJson, toJsonItems_eq_map]
    exact .item (List.mem_map_of_mem hitem) ih
  | @field fields row x hrow _ ih =>
    rw [toJson, toJsonFields_eq_map]
    exact @Json.Part.member _ (member row) _ (List.mem_map_of_mem hrow) ih

/-! ## The value of a document -/

/-- The document of a floating-point number is one, or `null`. -/
theorem toJson_float (y : Float) : (float y).toJson = .float y ∧ Decimal.isFinite y = true ∨
    (float y).toJson = .null ∧ Decimal.isFinite y = false := by
  rw [toJson]
  cases hy : Decimal.isFinite y with
  | true => exact .inl ⟨rfl, rfl⟩
  | false => exact .inr ⟨rfl, rfl⟩

theorem exists_float_of_toJson (h : v.toJson = .null) :
    ∃ y, v = .float y ∧ Decimal.isFinite y = false := by
  cases v with
  | float y =>
    rcases toJson_float y with ⟨hfloat, -⟩ | ⟨-, hy⟩
    · rw [hfloat] at h
      cases h
    · exact ⟨y, rfl, hy⟩
  | bool _ | int _ | string _ | list _ | map _ => cases h

theorem exists_list_of_toJson {items : List Json} (h : v.toJson = .array items) :
    ∃ vs, v = .list vs ∧ items = vs.map toJson := by
  cases v with
  | list vs => exact ⟨vs, rfl, (Json.array.inj h).symm.trans (toJsonItems_eq_map vs)⟩
  | float y =>
    rcases toJson_float y with ⟨hfloat, -⟩ | ⟨hnull, -⟩
    · rw [hfloat] at h
      cases h
    · rw [hnull] at h
      cases h
  | bool _ | int _ | string _ | map _ => cases h

theorem exists_map_of_toJson {members : List (String × Json)} (h : v.toJson = .object members) :
    ∃ fields, v = .map fields ∧ members = fields.map member := by
  cases v with
  | map fields => exact ⟨fields, rfl, (Json.object.inj h).symm.trans (toJsonFields_eq_map fields)⟩
  | float y =>
    rcases toJson_float y with ⟨hfloat, -⟩ | ⟨hnull, -⟩
    · rw [hfloat] at h
      cases h
    · rw [hnull] at h
      cases h
  | bool _ | int _ | string _ | list _ => cases h

/-- **Null and infinity.**  The document of a value has a `null` in it exactly if there is a
floating-point number in the value that is not finite. -/
theorem part_null_iff :
    v.toJson.Part .null ↔ ∃ y, v.Leaf (.float y) ∧ Decimal.isFinite y = false := by
  constructor
  · intro h
    generalize hdoc : v.toJson = doc at h
    generalize hnull : Json.null = part at h
    induction h generalizing v with
    | self _ =>
      obtain ⟨y, rfl, hy⟩ := exists_float_of_toJson (hdoc.trans hnull.symm)
      exact ⟨y, .self rfl, hy⟩
    | item hitem _ ih =>
      obtain ⟨vs, rfl, rfl⟩ := exists_list_of_toJson hdoc
      obtain ⟨v, hv, hitem⟩ := List.mem_map.1 hitem
      obtain ⟨y, hleaf, hy⟩ := ih hitem hnull
      exact ⟨y, .item hv hleaf, hy⟩
    | member hrow _ ih =>
      obtain ⟨fields, rfl, rfl⟩ := exists_map_of_toJson hdoc
      obtain ⟨row, hfield, rfl⟩ := List.mem_map.1 hrow
      obtain ⟨y, hleaf, hy⟩ := ih rfl hnull
      exact ⟨y, .field hfield hleaf, hy⟩
  · rintro ⟨y, hleaf, hy⟩
    have hpart := hleaf.part
    rwa [toJson, if_neg (Bool.eq_false_iff.1 hy)] at hpart

end Value

end DocFacts
