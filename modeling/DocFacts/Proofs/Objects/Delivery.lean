import DocFacts.Objects.Registry
import DocFacts.Proofs.Table
import Mathlib.Data.List.Forall2

/-!
# What objects are given

The calls that an object gets are told without the running position (`Delivers`): they carry the
arguments of the occurrences in order, and the positions among them are counted from zero without a
gap.  There is one such sequence of calls, and it is the one that is delivered
(`delivers_iff`).  An object that records its calls ends with the unnamed arguments as they stand
and the named ones as a table (`recorded_of_delivers`).  Both modes of `materialize` make the same
objects, one for each name that can be built; strict mode stops at the first that cannot
(`materialize_supplies`).
-/

namespace DocFacts

/-! ## Arguments -/

namespace Value

/-- The arguments of an occurrence that have a name. -/
def fields : Value → List (String × Value)
  | .map fields => fields
  | _ => []

/-- The arguments of an occurrence that have no name. -/
def items : Value → List Value
  | .map _ => []
  | .list items => items
  | v => [v]

/-- The arguments of an occurrence in order, each with its name if it has one. -/
def arguments (v : Value) : List (Option String × Value) :=
  v.fields.map (fun (name, w) => (some name, w)) ++ v.items.map (fun w => (none, w))

end Value

namespace Slot

/-- The name of a slot that has one. -/
def name? : Slot → Option String
  | .name n => some n
  | .index _ => none

/-- The position of a slot that is one. -/
def index? : Slot → Option Nat
  | .name _ => none
  | .index i => some i

end Slot

/-- Calls carry the arguments of some occurrences. -/
structure Delivers (occurrences : List Value) (calls : List (Slot × Value)) : Prop where
  /-- The calls have the values of the arguments in order, and their names. -/
  arguments_eq : calls.map (fun call => (call.1.name?, call.2)) =
    occurrences.flatMap Value.arguments
  /-- The positions are counted from zero over all occurrences. -/
  positions_eq : calls.filterMap (·.1.index?) =
    List.range (occurrences.flatMap Value.items).length

section Deliveries

variable (next : Nat)

theorem map_positions (items : List Value) :
    (positions next items).map (fun call => (call.1.name?, call.2)) =
      items.map fun w => (none, w) := by
  induction items generalizing next with
  | nil => rfl
  | cons v items ih =>
    rw [positions, List.map_cons, ih, List.map_cons]
    rfl

theorem filterMap_positions (items : List Value) :
    (positions next items).filterMap (·.1.index?) = List.range' next items.length := by
  induction items generalizing next with
  | nil => rfl
  | cons v items ih =>
    rw [positions, List.filterMap_cons, ih, List.length_cons, List.range'_succ]
    rfl

/-- An occurrence hands over its named arguments and its unnamed ones. -/
theorem deliveries_cons (v : Value) (occurrences : List Value) :
    deliveries next (v :: occurrences) =
      v.fields.map (fun (name, w) => (Slot.name name, w)) ++ positions next v.items ++
        deliveries (next + v.items.length) occurrences := by
  cases v with
  | map fields => simp [deliveries, Value.fields, Value.items, positions]
  | list items => simp [deliveries, Value.fields, Value.items]
  | _ => simp [deliveries, Value.fields, Value.items, positions]

theorem map_deliveries (occurrences : List Value) :
    (deliveries next occurrences).map (fun call => (call.1.name?, call.2)) =
      occurrences.flatMap Value.arguments := by
  induction occurrences generalizing next with
  | nil => rfl
  | cons v occurrences ih =>
    rw [deliveries_cons, List.map_append, List.map_append, map_positions, ih, List.flatMap_cons,
      Value.arguments, List.map_map]
    rfl

theorem filterMap_deliveries (occurrences : List Value) :
    (deliveries next occurrences).filterMap (·.1.index?) =
      List.range' next (occurrences.flatMap Value.items).length := by
  induction occurrences generalizing next with
  | nil => rfl
  | cons v occurrences ih =>
    have hnames :
        (v.fields.map fun (name, w) => (Slot.name name, w)).filterMap (·.1.index?) = [] := by
      simp [List.filterMap_map, Slot.index?]
    rw [deliveries_cons, List.filterMap_append, List.filterMap_append, hnames, List.nil_append,
      filterMap_positions, ih, List.flatMap_cons, List.length_append, List.range'_append_1]

end Deliveries

/-- Calls are known by their values, their names and their positions. -/
theorem calls_ext {calls calls' : List (Slot × Value)}
    (harguments : calls.map (fun call => (call.1.name?, call.2)) =
      calls'.map (fun call => (call.1.name?, call.2)))
    (hpositions : calls.filterMap (·.1.index?) = calls'.filterMap (·.1.index?)) :
    calls = calls' := by
  induction calls generalizing calls' with
  | nil => exact (List.map_eq_nil_iff.1 harguments.symm).symm
  | cons call calls ih =>
    cases calls' with
    | nil => cases harguments
    | cons call' calls' =>
      obtain ⟨slot, v⟩ := call
      obtain ⟨slot', v'⟩ := call'
      obtain ⟨hcall, htail⟩ := List.cons.inj harguments
      obtain ⟨hname, hv⟩ := Prod.mk.inj hcall
      obtain rfl : v = v' := hv
      cases slot with
      | name n =>
        cases slot' with
        | name n' =>
          obtain rfl := Option.some.inj hname
          rw [ih htail hpositions]
        | index i' => cases hname
      | index i =>
        cases slot' with
        | name n' => cases hname
        | index i' =>
          obtain ⟨rfl, hrest⟩ := List.cons.inj hpositions
          rw [ih htail hrest]

/-- **One sequence of calls carries the arguments.** -/
theorem delivers_iff {occurrences : List Value} {calls : List (Slot × Value)} :
    Delivers occurrences calls ↔ calls = deliveries 0 occurrences := by
  have hpositions := filterMap_deliveries 0 occurrences
  rw [← List.range_eq_range'] at hpositions
  constructor
  · intro h
    exact calls_ext (h.arguments_eq.trans (map_deliveries 0 occurrences).symm)
      (h.positions_eq.trans hpositions.symm)
  · rintro rfl
    exact ⟨map_deliveries 0 occurrences, hpositions⟩

/-! ## Objects -/

section Objects

variable {ω : Type} [Receiver ω]

/-- Hand the arguments of some calls to an object. -/
def receiveAll (object : ω) (calls : List (Slot × Value)) : ω :=
  calls.foldl (fun object (slot, v) => Receiver.receive object slot v) object

theorem receiveAll_append (object : ω) (calls calls' : List (Slot × Value)) :
    receiveAll object (calls ++ calls') = receiveAll (receiveAll object calls) calls' :=
  List.foldl_append

end Objects

/-- Attributes are what some occurrences have handed over. -/
structure Attributes.Recorded (a : Attributes) (occurrences : List Value) : Prop where
  /-- The unnamed arguments stand in order, with nothing between them. -/
  positional_eq : a.positional = occurrences.flatMap Value.items
  /-- The names stand in the order in which they were given first. -/
  keys_eq : Table.keys a.named = ((occurrences.flatMap Value.fields).map Prod.fst).eraseDups
  /-- A name has the argument that was given last. -/
  get?_eq : ∀ name, Table.get? a.named name =
    ((occurrences.flatMap Value.fields).reverse.find? (·.1 = name)).map Prod.snd

namespace Attributes

variable (a : Attributes)

/-- The position behind the last one leaves no gap. -/
theorem setAt_length (values : List Value) (v : Value) :
    setAt values values.length v = values ++ [v] := by
  rw [setAt, Nat.add_sub_cancel_left, List.set_append_right _ _ (Nat.le_refl _), Nat.sub_self]
  rfl

theorem receiveAll_names (fields : List (String × Value)) :
    receiveAll a (fields.map fun (name, w) => (Slot.name name, w)) =
      ⟨a.positional, fields.foldl (fun t row => Table.insert t row.1 row.2) a.named⟩ := by
  induction fields generalizing a with
  | nil => rfl
  | cons row fields ih => exact ih (a.set (.name row.1) row.2)

theorem receiveAll_positions (items : List Value) :
    receiveAll a (positions a.positional.length items) = ⟨a.positional ++ items, a.named⟩ := by
  induction items generalizing a with
  | nil => simp [positions, receiveAll]
  | cons v items ih =>
    have hset : a.set (.index a.positional.length) v = ⟨a.positional ++ [v], a.named⟩ := by
      rw [set, setAt_length]
    have hrest := ih ⟨a.positional ++ [v], a.named⟩
    rw [List.length_append, List.length_singleton, List.append_assoc, ← hset] at hrest
    exact hrest

/-- The positions go on where the recorded arguments end. -/
theorem receiveAll_deliveries (occurrences : List Value) :
    receiveAll a (deliveries a.positional.length occurrences) =
      ⟨a.positional ++ occurrences.flatMap Value.items,
        (occurrences.flatMap Value.fields).foldl (fun t row => Table.insert t row.1 row.2)
          a.named⟩ := by
  induction occurrences generalizing a with
  | nil => simp [deliveries, receiveAll]
  | cons v occurrences ih =>
    rw [deliveries_cons, receiveAll_append, receiveAll_append, receiveAll_names]
    have hpositions := receiveAll_positions
      ⟨a.positional, v.fields.foldl (fun t row => Table.insert t row.1 row.2) a.named⟩ v.items
    rw [hpositions]
    have hrest := ih ⟨a.positional ++ v.items,
      v.fields.foldl (fun t row => Table.insert t row.1 row.2) a.named⟩
    rw [List.length_append] at hrest
    rw [hrest, List.flatMap_cons, List.flatMap_cons, List.append_assoc, List.foldl_append]

/-- **What a recording object ends with.** -/
theorem recorded_of_delivers {occurrences : List Value} {calls : List (Slot × Value)}
    (h : Delivers occurrences calls) : (receiveAll ({} : Attributes) calls).Recorded occurrences := by
  obtain rfl := delivers_iff.1 h
  have hall := receiveAll_deliveries {} occurrences
  rw [List.nil_append] at hall
  have hnamed := congrArg Attributes.named hall
  exact ⟨congrArg Attributes.positional hall, hnamed ▸ Table.keys_ofList _,
    fun name => hnamed ▸ Table.get?_ofList _ name⟩

end Attributes

/-! ## The objects of a set -/

section Materialize

variable {ρ ω : Type} [Builder ρ ω] [Receiver ω] (registry : ρ)

/-- An object is made for the occurrences of a name. -/
structure Supplied (row : String × List Value) (made : String × ω) : Prop where
  /-- The object stands under the name. -/
  name_eq : made.1 = row.1
  /-- It is a fresh object for the name that has been given the arguments of the occurrences. -/
  exists_calls : ∃ fresh calls, Builder.build? registry row.1 = some fresh ∧
    Delivers row.2 calls ∧ made.2 = receiveAll fresh calls

/-- The objects for the names of a set that can be built. -/
def madeObjects (set : AnnotationSet) : Table String ω :=
  set.filterMap fun row =>
    (Builder.build? registry row.1).map fun fresh => (row.1, deliver fresh row.2)

variable {registry} {row : String × List Value}

theorem madeObjects_cons_of_some {fresh : ω} (h : Builder.build? registry row.1 = some fresh)
    (set : AnnotationSet) : madeObjects registry (row :: set) =
      (row.1, deliver fresh row.2) :: madeObjects registry set := by
  rw [madeObjects, List.filterMap_cons, h]
  rfl

theorem madeObjects_cons_of_none (h : Builder.build? registry row.1 = none)
    (set : AnnotationSet) : madeObjects registry (row :: set) = madeObjects registry set := by
  rw [madeObjects, List.filterMap_cons, h]
  rfl

theorem forall₂_madeObjects (set : AnnotationSet) :
    List.Forall₂ (Supplied registry)
      (set.filter fun row => (Builder.build? registry row.1).isSome) (madeObjects registry set) := by
  induction set with
  | nil => exact .nil
  | cons row set ih =>
    cases hbuild : Builder.build? registry row.1 with
    | none =>
      rw [madeObjects_cons_of_none hbuild, List.filter_cons_of_neg (by simp [hbuild])]
      exact ih
    | some fresh =>
      rw [madeObjects_cons_of_some hbuild, List.filter_cons_of_pos (by simp [hbuild])]
      exact .cons ⟨rfl, fresh, _, hbuild, delivers_iff.2 rfl, rfl⟩ ih

/-- A name that can be built gets its object in both modes. -/
theorem materialize_cons_of_some {fresh : ω} (h : Builder.build? registry row.1 = some fresh)
    (strictness : Strictness) (set : AnnotationSet) :
    materialize registry strictness (row :: set) =
      (materialize registry strictness set).map fun objects =>
        (row.1, deliver fresh row.2) :: objects := by
  simp only [materialize, h]

theorem materialize_lenient_cons_of_none (h : Builder.build? registry row.1 = none)
    (set : AnnotationSet) :
    materialize registry .lenient (row :: set) = materialize registry .lenient set := by
  simp only [materialize, h]

theorem materialize_strict_cons_of_none (h : Builder.build? registry row.1 = none)
    (set : AnnotationSet) : materialize registry .strict (row :: set) = .error ⟨row.1⟩ := by
  simp only [materialize, h]

theorem materialize_lenient (set : AnnotationSet) :
    materialize registry .lenient set = .ok (madeObjects registry set) := by
  induction set with
  | nil => rfl
  | cons row set ih =>
    cases hbuild : Builder.build? registry row.1 with
    | none => rw [materialize_lenient_cons_of_none hbuild, madeObjects_cons_of_none hbuild, ih]
    | some fresh =>
      rw [materialize_cons_of_some hbuild, madeObjects_cons_of_some hbuild, ih]
      rfl

/-- Strict mode stops at the first name that cannot be built. -/
theorem materialize_strict (set : AnnotationSet) :
    materialize registry .strict set =
      match (Table.keys set).find? fun name => (Builder.build? registry name).isNone with
      | some name => .error ⟨name⟩
      | none => .ok (madeObjects registry set) := by
  induction set with
  | nil => rfl
  | cons row set ih =>
    rw [Table.keys, List.map_cons]
    cases hbuild : Builder.build? registry row.1 with
    | none =>
      rw [materialize_strict_cons_of_none hbuild, List.find?_cons_of_pos (by simp [hbuild])]
    | some fresh =>
      rw [materialize_cons_of_some hbuild, List.find?_cons_of_neg (by simp [hbuild]),
        madeObjects_cons_of_some hbuild, ih, Table.keys]
      split <;> rfl

variable (registry)

/-- **Every argument is delivered once.**  The calls that carry the arguments of some occurrences
are determined, and attributes that get them record the arguments.  Lenient mode makes an object for
each name that can be built, in the order of the set, and gives it those calls.  Strict mode makes
the same objects if all names can be built, and otherwise refuses the first that cannot. -/
theorem materialize_supplies (set : AnnotationSet) :
    (∀ occurrences, ∃ calls, ∀ calls', Delivers occurrences calls' ↔ calls' = calls) ∧
    (∀ occurrences calls, Delivers occurrences calls →
      (receiveAll ({} : Attributes) calls).Recorded occurrences) ∧
    ∃ objects, materialize registry .lenient set = .ok objects ∧
      List.Forall₂ (Supplied registry)
        (set.filter fun row => (Builder.build? registry row.1).isSome) objects ∧
      ((∃ made, materialize registry .strict set = .ok made) ↔
        ∀ name ∈ Table.keys set, (Builder.build? registry name).isSome) ∧
      ((∀ name ∈ Table.keys set, (Builder.build? registry name).isSome) →
        materialize registry .strict set = .ok objects) ∧
      ∀ name, (Table.keys set).find? (fun name => (Builder.build? registry name).isNone) = some name →
        materialize registry .strict set = .error ⟨name⟩ := by
  refine ⟨fun occurrences => ⟨_, fun _ => delivers_iff⟩, fun _ _ => Attributes.recorded_of_delivers,
    _, materialize_lenient set, forall₂_madeObjects set, ?_⟩
  have hstrict : materialize registry .strict set = _ := materialize_strict set
  cases hfind : (Table.keys set).find? fun name => (Builder.build? registry name).isNone with
  | none =>
    rw [hfind] at hstrict
    have hall : ∀ name ∈ Table.keys set, (Builder.build? registry name).isSome := by
      simpa [List.find?_eq_none, Option.isSome_iff_ne_none] using hfind
    exact ⟨⟨fun _ => hall, fun _ => ⟨_, hstrict⟩⟩, fun _ => hstrict, nofun⟩
  | some name =>
    rw [hfind] at hstrict
    have hname : name ∈ Table.keys set := List.mem_of_find?_eq_some hfind
    have hnone := List.find?_some hfind
    have hnot : ¬ ∀ name ∈ Table.keys set, (Builder.build? registry name).isSome := by
      intro hall
      simpa [Option.isNone_iff_eq_none.1 hnone] using hall name hname
    refine ⟨⟨?_, fun hall => absurd hall hnot⟩, fun hall => absurd hall hnot, ?_⟩
    · rintro ⟨made, hmade⟩
      rw [hstrict] at hmade
      cases hmade
    · rintro _ ⟨⟩
      exact hstrict

end Materialize

end DocFacts
