import DocFacts.Proofs.Extraction.Session
import DocFacts.Proofs.Table

/-!
# Keys of a memory

An extractor remembers annotations under a declaration, or under a member of one.  Here both are
keys of one memory.

`Memory.Filled` says what a new answer adds to a memory: one entry for each scan, under the keys
of its request (`Memory.Filled.lookup_ne_none_iff`).
-/

namespace DocFacts

/-- The answer of a scanner to a comment. -/
abbrev ScanAnswer (ε : Type) := Except ε AnnotationSet

/-- What annotations are remembered under: the name of a declaration, or that and the name of a
member. -/
abbrev Key := String × Option String

namespace Request

/-- The key of a request. -/
def key : Request → Key
  | .declaration d => (d.name, none)
  | .member d m => (d.name, some m.name)

/-- The keys that are remembered when a request has been answered: its own and that of the
declaration to which it belongs. -/
def keys (r : Request) : List Key := [r.key, (r.owner.name, none)]

end Request

namespace Memory

variable {ε : Type} {rules : Rules} {memory memory' : Memory} {r : Request} {set : AnnotationSet}
  {scans : List (ScanAnswer ε)}

/-- What is remembered under a key. -/
def lookup (memory : Memory) : Key → Option AnnotationSet
  | (owner, none) => memory.declarations.get? owner
  | (owner, some name) => memory.members.get? (owner, name)

theorem lookup_empty (key : Key) : lookup {} key = none := by
  obtain ⟨owner, own⟩ := key
  cases own with
  | none => rfl
  | some own => rfl

/-- All that is remembered stays remembered. -/
def Grows (memory memory' : Memory) : Prop :=
  ∀ key set, memory.lookup key = some set → memory'.lookup key = some set

theorem Grows.refl (memory : Memory) : Grows memory memory := fun _ _ h => h

theorem Grows.trans {memory'' : Memory} (h : Grows memory memory') (h' : Grows memory' memory'') :
    Grows memory memory'' := fun key set hset => h' key set (h key set hset)

theorem lookup_addDeclaration (memory : Memory) (name : String) (set : AnnotationSet) (key : Key) :
    (memory.addDeclaration name set).lookup key =
      if (name, none) = key then some set else memory.lookup key := by
  obtain ⟨owner, own⟩ := key
  cases own with
  | none => simp [lookup, addDeclaration, Table.get?_insert]
  | some own => simp [lookup, addDeclaration]

theorem lookup_addMember (memory : Memory) (owner name : String) (set : AnnotationSet) (key : Key) :
    (memory.addMember (owner, name) set).lookup key =
      if (owner, some name) = key then some set else memory.lookup key := by
  obtain ⟨owner', own⟩ := key
  cases own with
  | none => simp [lookup, addMember]
  | some own => simp [lookup, addMember, Table.get?_insert]

theorem lookup_addDeclaration_ne_none_iff (memory : Memory) (name : String) (set : AnnotationSet)
    (key : Key) : (memory.addDeclaration name set).lookup key ≠ none ↔
      memory.lookup key ≠ none ∨ key = (name, none) := by
  rw [lookup_addDeclaration]
  by_cases h : (name, none) = key
  · simp [h]
  · simp [h, Ne.symm h]

theorem lookup_addMember_ne_none_iff (memory : Memory) (owner name : String) (set : AnnotationSet)
    (key : Key) : (memory.addMember (owner, name) set).lookup key ≠ none ↔
      memory.lookup key ≠ none ∨ key = (owner, some name) := by
  rw [lookup_addMember]
  by_cases h : (owner, some name) = key
  · simp [h]
  · simp [h, Ne.symm h]

theorem grows_addDeclaration {name : String} (h : memory.lookup (name, none) = none)
    (set : AnnotationSet) : Grows memory (memory.addDeclaration name set) := by
  intro key set' hset
  have hne : (name, none) ≠ key := by
    rintro rfl
    rw [h] at hset
    cases hset
  rw [lookup_addDeclaration, if_neg hne, hset]

theorem grows_addMember {owner name : String} (h : memory.lookup (owner, some name) = none)
    (set : AnnotationSet) : Grows memory (memory.addMember (owner, name) set) := by
  intro key set' hset
  have hne : (owner, some name) ≠ key := by
    rintro rfl
    rw [h] at hset
    cases hset
  rw [lookup_addMember, if_neg hne, hset]

theorem size_addDeclaration {name : String} (h : memory.lookup (name, none) = none)
    (set : AnnotationSet) : (memory.addDeclaration name set).size = memory.size + 1 := by
  have hlength := Table.length_insert_of_get?_eq_none
    (show memory.declarations.get? name = none from h) set
  simp only [size, addDeclaration, hlength]
  omega

theorem size_addMember {owner name : String} (h : memory.lookup (owner, some name) = none)
    (set : AnnotationSet) : (memory.addMember (owner, name) set).size = memory.size + 1 := by
  have hlength :=
    Table.length_insert_of_get?_eq_none (show memory.members.get? (owner, name) = none from h) set
  simp only [size, addMember, hlength]
  omega

/-- What an answer that is new adds to a memory.  Each scan adds one entry. -/
inductive Filled (rules : Rules) (memory : Memory) :
    Request → AnnotationSet → List (ScanAnswer ε) → Memory → Prop where
  /-- The annotations of a declaration. -/
  | declaration {d : Declaration} {set : AnnotationSet} :
    Filled rules memory (.declaration d) set [.ok set] (memory.addDeclaration d.name set)
  /-- The annotations of a member whose declaration is remembered. -/
  | member {d : Declaration} {m : Member} {own base : AnnotationSet}
    (hbase : memory.lookup (d.name, none) = some base) :
    Filled rules memory (.member d m) (consolidate rules own base) [.ok own]
      (memory.addMember (d.name, m.name) (consolidate rules own base))
  /-- The annotations of a member and of its declaration. -/
  | both {d : Declaration} {m : Member} {own base : AnnotationSet}
    (hbase : memory.lookup (d.name, none) = none) :
    Filled rules memory (.member d m) (consolidate rules own base) [.ok own, .ok base]
      ((memory.addDeclaration d.name base).addMember (d.name, m.name) (consolidate rules own base))

namespace Filled

theorem scans_ne_nil (h : Filled rules memory r set scans memory') : scans ≠ [] := by
  cases h with
  | declaration => simp
  | member hbase => simp
  | both hbase => simp

theorem lookup_member_addDeclaration {d : Declaration} {m : Member} (base : AnnotationSet)
    (h : memory.lookup (d.name, some m.name) = none) :
    (memory.addDeclaration d.name base).lookup (d.name, some m.name) = none := by
  rw [lookup_addDeclaration, if_neg (by simp), h]

theorem grows (h : Filled rules memory r set scans memory') (hnew : memory.lookup r.key = none) :
    Grows memory memory' := by
  cases h with
  | declaration => exact grows_addDeclaration hnew _
  | member hbase => exact grows_addMember hnew _
  | both hbase =>
    exact (grows_addDeclaration hbase _).trans
      (grows_addMember (lookup_member_addDeclaration _ hnew) _)

theorem size_eq (h : Filled rules memory r set scans memory') (hnew : memory.lookup r.key = none) :
    memory'.size = memory.size + scans.length := by
  cases h with
  | declaration => exact size_addDeclaration hnew _
  | member hbase => exact size_addMember hnew _
  | both hbase =>
    rw [size_addMember (lookup_member_addDeclaration _ hnew), size_addDeclaration hbase]
    rfl

/-- The request is remembered with its answer. -/
theorem lookup_key (h : Filled rules memory r set scans memory') :
    memory'.lookup r.key = some set := by
  cases h with
  | declaration => simp [lookup_addDeclaration, Request.key]
  | member hbase => simp [lookup_addMember, Request.key]
  | both hbase => simp [lookup_addMember, Request.key]

/-- Its declaration is remembered too, and nothing else is new. -/
theorem lookup_ne_none_iff (h : Filled rules memory r set scans memory') (key : Key) :
    memory'.lookup key ≠ none ↔ memory.lookup key ≠ none ∨ key ∈ r.keys := by
  simp only [Request.keys, List.mem_cons, List.not_mem_nil, or_false]
  cases h with
  | @declaration d set =>
    rw [lookup_addDeclaration_ne_none_iff]
    exact or_congr_right (or_self_iff (a := key = (d.name, none))).symm
  | @member d m own base hbase =>
    have hold : key = (d.name, none) → memory.lookup key ≠ none := by
      rintro rfl
      simp [hbase]
    rw [lookup_addMember_ne_none_iff]
    constructor
    · rintro (hkey | hkey)
      · exact .inl hkey
      · exact .inr (.inl hkey)
    · rintro (hkey | hkey | hkey)
      · exact .inl hkey
      · exact .inr hkey
      · exact .inl (hold hkey)
  | @both d m own base hbase =>
    rw [lookup_addMember_ne_none_iff, lookup_addDeclaration_ne_none_iff, or_assoc]
    exact or_congr_right or_comm

end Filled

/-- The declaration of each member that is remembered is remembered too. -/
def Rooted (memory : Memory) : Prop :=
  ∀ owner name, memory.lookup (owner, some name) ≠ none → memory.lookup (owner, none) ≠ none

theorem Rooted.empty : Rooted {} := fun _ _ h => absurd (lookup_empty _) h

theorem Filled.rooted (h : Filled rules memory r set scans memory') (hrooted : memory.Rooted) :
    memory'.Rooted := by
  intro owner name hname
  rw [h.lookup_ne_none_iff] at hname ⊢
  rcases hname with hold | hkey
  · exact .inl (hrooted owner name hold)
  · refine .inr ?_
    simp only [Request.keys, List.mem_cons, List.not_mem_nil, or_false, Prod.mk.injEq] at hkey ⊢
    rcases hkey with hkey | hkey
    · cases r with
      | declaration d => cases hkey
      | member d m => exact .inr ⟨(Prod.mk.inj hkey).1, trivial⟩
    · exact .inr ⟨hkey.1, trivial⟩

theorem Rooted.lookup_of_mem_keys (h : memory.Rooted) (hr : memory.lookup r.key ≠ none) {key : Key}
    (hkey : key ∈ r.keys) : memory.lookup key ≠ none := by
  simp only [Request.keys, List.mem_cons, List.not_mem_nil, or_false] at hkey
  rcases hkey with rfl | rfl
  · exact hr
  · cases r with
    | declaration d => exact hr
    | member d m => exact h d.name m.name hr

end Memory

end DocFacts
