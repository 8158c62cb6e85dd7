/-!
# Tables in order of first insertion

A table is a list of rows, each a key and its value.  Inserting a key that is present keeps
its row where it is and replaces the value.  A new key goes to the end.  So the keys of a
table built by insertion are distinct and stand in the order in which they were first seen.
-/

namespace DocFacts

/-- Rows of keys and values, in order of first insertion. -/
abbrev Table (κ : Type) (ν : Type) := List (κ × ν)

namespace Table

variable {κ ν : Type} [DecidableEq κ]

/-- The keys, in order. -/
def keys {κ ν : Type} (t : Table κ ν) : List κ := t.map Prod.fst

/-- The value in the row of a key. -/
def get? (t : Table κ ν) (k : κ) : Option ν :=
  match t with
  | [] => none
  | (k', v) :: rest => if k' = k then some v else get? rest k

/-- Replace the value of a key that is present, or add a row at the end. -/
def insert (t : Table κ ν) (k : κ) (v : ν) : Table κ ν :=
  match t with
  | [] => [(k, v)]
  | (k', v') :: rest => if k' = k then (k, v) :: rest else (k', v') :: insert rest k v

/-- Insert rows from first to last. -/
def ofList (rows : List (κ × ν)) : Table κ ν :=
  rows.foldl (fun t row => insert t row.1 row.2) []

/-- The keys are distinct. -/
def Distinct {κ ν : Type} (t : Table κ ν) : Prop := t.keys.Nodup

@[simp] theorem get?_nil (k : κ) : get? ([] : Table κ ν) k = none := rfl

theorem get?_insert (t : Table κ ν) (k : κ) (v : ν) (j : κ) :
    get? (insert t k v) j = if k = j then some v else get? t j := by
  induction t with
  | nil => simp [insert, get?]
  | cons row rest ih =>
    obtain ⟨k', v'⟩ := row
    by_cases h : k' = k
    · subst h; by_cases hj : k' = j <;> simp [insert, get?, hj]
    · by_cases hj : k' = j
      · subst hj; simp [insert, get?, h, Ne.symm h]
      · simp [insert, get?, h, hj, ih]

@[simp] theorem get?_insert_self (t : Table κ ν) (k : κ) (v : ν) :
    get? (insert t k v) k = some v := by simp [get?_insert]

theorem get?_eq_none_iff {t : Table κ ν} {k : κ} : get? t k = none ↔ k ∉ keys t := by
  induction t with
  | nil => simp [keys]
  | cons row rest ih =>
    by_cases h : row.1 = k
    · simp [get?, keys, h]
    · simp only [get?, h, if_false, ih, keys, List.map_cons, List.mem_cons, not_or]
      exact ⟨fun hk => ⟨Ne.symm h, hk⟩, fun hk => hk.2⟩

/-- A key that is present moves nothing, and a new key goes to the end. -/
theorem keys_insert (t : Table κ ν) (k : κ) (v : ν) :
    keys (insert t k v) = if k ∈ keys t then keys t else keys t ++ [k] := by
  induction t with
  | nil => simp [insert, keys]
  | cons row rest ih =>
    obtain ⟨k', v'⟩ := row
    simp only [keys] at ih ⊢
    by_cases h : k' = k
    · subst h; simp [insert]
    · simp only [insert, h, if_false, List.map_cons, ih, List.mem_cons, Ne.symm h, false_or]
      split <;> simp_all

theorem Distinct.insert {t : Table κ ν} (h : Distinct t) (k : κ) (v : ν) :
    Distinct (insert t k v) := by
  unfold Distinct at *
  rw [keys_insert]
  split
  · exact h
  · rename_i hk
    rw [List.nodup_append]
    exact ⟨h, by simp, by rintro a ha b hb rfl; simp at hb; exact hk (hb ▸ ha)⟩

end Table

end DocFacts
