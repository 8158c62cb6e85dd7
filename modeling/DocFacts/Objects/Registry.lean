import DocFacts.Comment.Scan
import DocFacts.Objects.Attributes
import DocFacts.Text.Quoted

/-!
# Building objects from annotations

A registry knows how to build an object for the name of an annotation.  `materialize` builds
one object for each name of a set and hands it the arguments of all its occurrences: the
fields of a map by name, and the elements of a list and everything else by position.  The
positions run on over all occurrences of a name.  A name that the registry does not know is
skipped, or in strict mode refused.
-/

namespace DocFacts

/-- Objects that take arguments one at a time. -/
class Receiver (ω : Type) where
  /-- Hand an argument to an object. -/
  receive : ω → Slot → Value → ω

instance : Receiver Attributes := ⟨Attributes.set⟩

/-- Registries, which build objects for the names that they know. -/
class Builder (ρ : Type) (ω : outParam Type) where
  /-- A fresh object for a name, if the registry knows the name. -/
  build? : ρ → String → Option ω

/-- A registry of factories by name.  A factory always builds the same fresh object. -/
structure Registry (ω : Type) where
  /-- The fresh object for each name. -/
  factories : Table String ω := []

namespace Registry

variable {ω : Type}

/-- Register a factory.  It replaces one of the same name. -/
def register (r : Registry ω) (name : String) (fresh : ω) : Registry ω :=
  ⟨r.factories.insert name fresh⟩

/-- A fresh object for a name. -/
def build? (r : Registry ω) (name : String) : Option ω := r.factories.get? name

instance : Builder (Registry ω) ω := ⟨build?⟩

/-- The registry has a factory for the name. -/
def contains (r : Registry ω) (name : String) : Bool := (r.build? name).isSome

/-- The registered names in the order of their code points, as a text. -/
def describe (r : Registry ω) : String :=
  let names := r.factories.keys.mergeSort fun a b => decide (a ≤ b)
  r"FactoryRegistry { names: [" ++ ", ".intercalate (names.map Text.quoted) ++ r"] }"

end Registry

/-- A name for which no object can be built. -/
structure UnknownName where
  /-- The name. -/
  name : String
deriving DecidableEq, Repr

/-- The text of the complaint. -/
def UnknownName.message (e : UnknownName) : String :=
  "annotation kind not registered: " ++ e.name

/-- What happens to names that the registry does not know. -/
inductive Strictness where
  /-- They are refused. -/
  | strict
  /-- They are skipped. -/
  | lenient
deriving DecidableEq, Repr

instance : Inhabited Strictness := ⟨.lenient⟩

/-- Number values from a position on. -/
def positions (next : Nat) : List Value → List (Slot × Value)
  | [] => []
  | v :: rest => (.index next, v) :: positions (next + 1) rest

/-- The arguments of occurrences in the order in which an object gets them.  `next` is the
position of the next unnamed argument. -/
def deliveries (next : Nat) : List Value → List (Slot × Value)
  | [] => []
  | .map fields :: rest =>
    fields.map (fun (name, v) => (Slot.name name, v)) ++ deliveries next rest
  | .list items :: rest => positions next items ++ deliveries (next + items.length) rest
  | v :: rest => (.index next, v) :: deliveries (next + 1) rest

/-- Hand the arguments of occurrences to an object. -/
def deliver {ω : Type} [Receiver ω] (fresh : ω) (occurrences : List Value) : ω :=
  (deliveries 0 occurrences).foldl (fun object (slot, v) => Receiver.receive object slot v) fresh

/-- The objects for the names of a set, in the order of the set. -/
def materialize {ρ ω : Type} [Builder ρ ω] [Receiver ω] (registry : ρ) (strictness : Strictness) :
    AnnotationSet → Except UnknownName (Table String ω)
  | [] => .ok []
  | (name, occurrences) :: rest =>
    match Builder.build? registry name, strictness with
    | some fresh, _ =>
      (materialize registry strictness rest).map fun objects =>
        (name, deliver fresh occurrences) :: objects
    | none, .strict => .error ⟨name⟩
    | none, .lenient => materialize registry strictness rest

end DocFacts
