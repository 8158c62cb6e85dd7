import DocFacts.Proofs.List
import DocFacts.Proofs.Objects.Delivery
import Mathlib.Data.List.GetD

/-!
# What attributes record

Attributes that take calls in any order are known by what the calls were.  There are positions up
to the largest one that was set, and each position and each name has the value that it was given
last.  `Attributes.Holds` says so of a whole sequence of calls, and there is one object of which it
holds (`Attributes.holds_iff`).

A list is looked at as a function that has the filler wherever the list has no element.  Setting a
position changes that function at the position alone (`getD_setAt`), however far the list has to
grow, which is why calls for different positions can be swapped.  The induction is on the calls from
the last one on, since the last call for a slot is the one that counts.
-/

namespace DocFacts

/-- The value that the last call for a slot carries. -/
def lastFor (calls : List (Slot × Value)) (slot : Slot) : Option Value :=
  (calls.reverse.find? (·.1 = slot)).map Prod.snd

theorem lastFor_append_singleton (calls : List (Slot × Value)) (call : Slot × Value) (slot : Slot) :
    lastFor (calls ++ [call]) slot = if call.1 = slot then some call.2 else lastFor calls slot := by
  rw [lastFor, List.reverse_append, List.reverse_singleton, List.singleton_append, List.find?_cons]
  by_cases hslot : call.1 = slot
  · simp [hslot]
  · simp [hslot, lastFor]

namespace Attributes

/-! ## Positions -/

section Positions

variable (values : List Value) (i : Nat) (v : Value)

theorem length_setAt : (setAt values i v).length = max values.length (i + 1) := by
  rw [setAt, List.length_set, List.length_append, List.length_replicate]
  omega

/-- One position is set, and growth adds nothing but the filler. -/
theorem getD_setAt (j : Nat) :
    (setAt values i v).getD j filler = if i = j then v else values.getD j filler := by
  have hgrown : i < (values ++ List.replicate (i + 1 - values.length) filler).length := by
    rw [List.length_append, List.length_replicate]
    omega
  rw [setAt, List.getD_eq_getElem?_getD, List.getElem?_set, if_pos hgrown]
  by_cases hij : i = j
  · rw [if_pos hij, if_pos hij]
    rfl
  · rw [if_neg hij, if_neg hij, List.getElem?_append, List.getD_eq_getElem?_getD]
    by_cases hj : j < values.length
    · rw [if_pos hj]
    · rw [if_neg hj, List.getElem?_replicate, List.getElem?_eq_none (Nat.le_of_not_lt hj)]
      split <;> rfl

variable {values}

/-- Lists are known by their lengths and by what stands at each place, the filler where nothing
does. -/
theorem positional_ext {values' : List Value} (hlength : values.length = values'.length)
    (hgetD : ∀ j, values.getD j filler = values'.getD j filler) : values = values' := by
  refine List.ext_getElem hlength fun j hj hj' => ?_
  have hvalue := hgetD j
  rwa [List.getD_eq_getElem _ _ hj, List.getD_eq_getElem _ _ hj'] at hvalue

theorem getElem?_eq_some_getD {j : Nat} (h : j < values.length) :
    values[j]? = some (values.getD j filler) := by
  rw [List.getD_eq_getElem _ _ h, List.getElem?_eq_getElem h]

/-- Different positions can be set in either order. -/
theorem setAt_comm {j : Nat} (h : i ≠ j) (w : Value) :
    setAt (setAt values i v) j w = setAt (setAt values j w) i v := by
  refine positional_ext ?_ fun k => ?_
  · simp only [length_setAt]
    omega
  · simp only [getD_setAt]
    by_cases hi : i = k
    · rw [if_pos hi, if_pos hi, if_neg (fun hj => h (hi.trans hj.symm))]
    · rw [if_neg hi, if_neg hi]

/-- No element is disturbed by setting another position, whether the list grows or not. -/
theorem getElem?_setAt_of_ne {j : Nat} (hj : j < values.length) (h : j ≠ i) :
    (setAt values i v)[j]? = values[j]? := by
  have hj' : j < (setAt values i v).length := by
    rw [length_setAt]
    omega
  rw [getElem?_eq_some_getD hj', getElem?_eq_some_getD hj, getD_setAt, if_neg h.symm]

end Positions

/-! ## Calls -/

/-- Attributes hold what some calls have set. -/
structure Holds (a : Attributes) (calls : List (Slot × Value)) : Prop where
  /-- The positions go up to the largest that was set.  There are none if none was set. -/
  length_eq : a.positional.length =
    match (calls.filterMap (·.1.index?)).max? with
    | none => 0
    | some largest => largest + 1
  /-- A position has the value that it was given last, or the empty string if it was never set. -/
  getElem?_eq : ∀ i < a.positional.length,
    a.positional[i]? = some ((lastFor calls (.index i)).getD (.string ""))
  /-- The names are those that were set, in the order of their first calls. -/
  keys_eq : Table.keys a.named = (calls.filterMap (·.1.name?)).eraseDups
  /-- A name has the value that it was given last. -/
  get?_eq : ∀ name, Table.get? a.named name = lastFor calls (.name name)

section Calls

variable {a b : Attributes} {calls : List (Slot × Value)}

/-- At most one object holds what some calls have set. -/
theorem Holds.unique (ha : a.Holds calls) (hb : b.Holds calls) : a = b := by
  have hlength : a.positional.length = b.positional.length :=
    ha.length_eq.trans hb.length_eq.symm
  have hpositional : a.positional = b.positional := by
    refine List.ext_getElem? fun i => ?_
    by_cases hi : i < a.positional.length
    · rw [ha.getElem?_eq i hi, hb.getElem?_eq i (hlength ▸ hi)]
    · rw [List.getElem?_eq_none (Nat.le_of_not_lt hi),
        List.getElem?_eq_none (Nat.le_of_not_lt (hlength ▸ hi))]
  have hdistinct : Table.Distinct a.named := by
    rw [Table.Distinct, ha.keys_eq]
    exact Table.nodup_eraseDups _
  have hnamed : a.named = b.named :=
    Table.eq_of_get?_eq hdistinct (ha.keys_eq.trans hb.keys_eq.symm)
      fun name _ => (ha.get?_eq name).trans (hb.get?_eq name).symm
  obtain ⟨positional, named⟩ := a
  obtain ⟨positional', named'⟩ := b
  obtain rfl : positional = positional' := hpositional
  obtain rfl : named = named' := hnamed
  rfl

/-! The two halves of attributes, call by call. -/

theorem length_positional_receiveAll (calls : List (Slot × Value)) :
    (receiveAll ({} : Attributes) calls).positional.length =
      match (calls.filterMap (·.1.index?)).max? with
      | none => 0
      | some largest => largest + 1 := by
  induction calls using List.reverseRecOn with
  | nil => rfl
  | append_singleton calls call ih =>
    obtain ⟨slot, v⟩ := call
    rw [receiveAll_append, List.filterMap_append]
    cases slot with
    | name n =>
      rw [show [(Slot.name n, v)].filterMap (·.1.index?) = [] from rfl, List.append_nil]
      exact ih
    | index i =>
      rw [show [(Slot.index i, v)].filterMap (·.1.index?) = [i] from rfl,
        List.max?_append_singleton]
      refine (length_setAt _ i v).trans ?_
      rw [ih]
      cases (calls.filterMap (·.1.index?)).max? with
      | none => exact Nat.max_eq_right (Nat.zero_le _)
      | some largest => exact Nat.add_max_add_right largest i 1

theorem getD_positional_receiveAll (calls : List (Slot × Value)) (j : Nat) :
    (receiveAll ({} : Attributes) calls).positional.getD j filler =
      (lastFor calls (.index j)).getD filler := by
  induction calls using List.reverseRecOn with
  | nil => rfl
  | append_singleton calls call ih =>
    obtain ⟨slot, v⟩ := call
    rw [receiveAll_append, lastFor_append_singleton]
    cases slot with
    | name n =>
      rw [if_neg Slot.noConfusion]
      exact ih
    | index i =>
      refine (getD_setAt _ i v j).trans ?_
      rw [ih]
      simp only [Slot.index.injEq]
      split <;> rfl

/-- The names are a table of the named calls. -/
theorem named_receiveAll (calls : List (Slot × Value)) :
    (receiveAll ({} : Attributes) calls).named =
      Table.ofList (calls.filterMap fun call => call.1.name?.map fun n => (n, call.2)) := by
  induction calls using List.reverseRecOn with
  | nil => rfl
  | append_singleton calls call ih =>
    obtain ⟨slot, v⟩ := call
    rw [receiveAll_append, List.filterMap_append]
    cases slot with
    | name n =>
      refine Eq.trans ?_ (Table.ofList_append_singleton _ (n, v)).symm
      rw [← ih]
      rfl
    | index i => exact ih.trans (congrArg Table.ofList (List.append_nil _).symm)

theorem get?_named_receiveAll (calls : List (Slot × Value)) (name : String) :
    Table.get? (receiveAll ({} : Attributes) calls).named name = lastFor calls (.name name) := by
  induction calls using List.reverseRecOn with
  | nil => rfl
  | append_singleton calls call ih =>
    obtain ⟨slot, v⟩ := call
    rw [receiveAll_append, lastFor_append_singleton]
    cases slot with
    | name n =>
      refine (Table.get?_insert _ n v name).trans ?_
      rw [ih]
      simp only [Slot.name.injEq]
    | index i =>
      rw [if_neg Slot.noConfusion]
      exact ih

theorem holds_receiveAll (calls : List (Slot × Value)) :
    (receiveAll ({} : Attributes) calls).Holds calls := by
  refine ⟨length_positional_receiveAll calls, fun i hi => ?_, ?_, get?_named_receiveAll calls⟩
  · rw [getElem?_eq_some_getD hi, getD_positional_receiveAll]
    rfl
  · rw [named_receiveAll, Table.keys_ofList, List.map_filterMap]
    simp [Function.comp_def]

/-- **Attributes hold what was set**, and nothing else holds it. -/
theorem holds_iff : a.Holds calls ↔ a = receiveAll {} calls := by
  constructor
  · intro h
    exact h.unique (holds_receiveAll calls)
  · rintro rfl
    exact holds_receiveAll calls

/-! ## Calls in another order -/

/-- Two calls that are neither for one position nor both for names can be swapped. -/
theorem set_comm (a : Attributes) {slot slot' : Slot}
    (hindex : ∀ i, ¬ (slot = .index i ∧ slot' = .index i))
    (hname : ∀ m n, ¬ (slot = .name m ∧ slot' = .name n)) (v w : Value) :
    (a.set slot v).set slot' w = (a.set slot' w).set slot v := by
  cases slot with
  | name m =>
    cases slot' with
    | name n => exact absurd ⟨rfl, rfl⟩ (hname m n)
    | index j => rfl
  | index i =>
    cases slot' with
    | name n => rfl
    | index j =>
      have hij : i ≠ j := by
        rintro rfl
        exact hindex i ⟨rfl, rfl⟩
      exact congrArg (Attributes.mk · a.named) (setAt_comm i v hij w)

end Calls

/-- **Attributes record their calls.**  Fresh attributes that take some calls hold what the calls
have set, and nothing else does.  Setting a position disturbs no other element, also when the list
grows.  Swapping two adjacent calls changes nothing unless they are for one position or both for
names. -/
theorem receiveAll_records (calls : List (Slot × Value)) :
    (∀ a : Attributes, a.Holds calls ↔ a = receiveAll {} calls) ∧
    (∀ (a : Attributes) (i : Nat) (v : Value), ∀ j < a.positional.length, j ≠ i →
      (a.set (.index i) v).positional[j]? = a.positional[j]?) ∧
    ∀ front call call' back, calls = front ++ call :: call' :: back →
      receiveAll ({} : Attributes) (front ++ call' :: call :: back) ≠ receiveAll {} calls →
        (∃ i, call.1 = .index i ∧ call'.1 = .index i) ∨
          ∃ m n, call.1 = .name m ∧ call'.1 = .name n := by
  refine ⟨fun a => holds_iff, fun a i v j hj hne => getElem?_setAt_of_ne i v hj hne, ?_⟩
  rintro front call call' back rfl hchanged
  by_contra hclash
  rw [not_or, not_exists, not_exists] at hclash
  obtain ⟨hindex, hname⟩ := hclash
  refine hchanged ?_
  have hswap := set_comm (receiveAll {} front) hindex (fun m n hmn => hname m ⟨n, hmn⟩)
    call.2 call'.2
  rw [receiveAll_append, receiveAll_append]
  exact congrArg (receiveAll · back) hswap.symm

/-- Calls with a gap that is filled later, a repeated position and a repeated name. -/
def scatteredCalls : List (Slot × Value) :=
  [(.index 3, .int 1), (.name "k", .int 2), (.index 0, .int 3), (.index 1, .int 4),
    (.index 1, .int 5), (.name "j", .int 6), (.name "k", .int 7)]

/-- The records of those calls, and a swap in them that makes a difference. -/
theorem records_scatteredCalls :
    (⟨[.int 3, .int 5, .string "", .int 1], [("k", .int 7), ("j", .int 6)]⟩ : Attributes).Holds
      scatteredCalls ∧
    receiveAll ({} : Attributes)
      ([(.index 3, .int 1), (.name "k", .int 2), (.index 0, .int 3)] ++ (.index 1, .int 5) ::
        (.index 1, .int 4) :: [(.name "j", .int 6), (.name "k", .int 7)]) ≠
      receiveAll {} scatteredCalls ∧
    ((∃ i, Slot.index 1 = .index i ∧ Slot.index 1 = .index i) ∨
      ∃ m n, Slot.index 1 = .name m ∧ Slot.index 1 = .name n) := by
  have hchanged : receiveAll ({} : Attributes)
      ([(.index 3, .int 1), (.name "k", .int 2), (.index 0, .int 3)] ++ (.index 1, .int 5) ::
        (.index 1, .int 4) :: [(.name "j", .int 6), (.name "k", .int 7)]) ≠
      receiveAll {} scatteredCalls := by decide +kernel
  obtain ⟨hholds, -, hswap⟩ := receiveAll_records scatteredCalls
  exact ⟨(hholds _).2 (by decide +kernel), hchanged, hswap _ _ _ _ rfl hchanged⟩

end Attributes

end DocFacts
