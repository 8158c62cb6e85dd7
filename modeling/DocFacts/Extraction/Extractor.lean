import DocFacts.Extraction.Consolidation
import DocFacts.Extraction.Declaration

/-!
# Extraction with a memory

An extractor answers what annotations a declaration or a member has.  It scans a comment when
it is first asked and remembers the answer by name: the annotations of a declaration under its
name, and the consolidated annotations of a member under both names.  A later request with the
same names gets the remembered answer, whatever comment comes with it.  Failures are not
remembered.  Only `clear` forgets.

A scanner may have a state of its own.  So one that counts or notes the comments it is given
is a scanner too, and what it has seen tells when the extractor scanned.  Its failures may be of
any kind, and the extractor passes them on.

A request takes the state and gives an answer: a result or a failure, and the new state.  What
was remembered before a failure stays remembered.
-/

namespace DocFacts

/-- A way to turn comments into annotations, with a state.  It may fail in any way, by default as
`scan` does. -/
abbrev Scanner (σ : Type) (ε : Type := ScanError) := String → σ → Except ε AnnotationSet × σ

namespace Scanner

/-- The scanner that only scans. -/
def plain : Scanner Unit := fun comment s => (scan comment, s)

/-- A scanner that also notes each comment it is given. -/
def noting {σ ε : Type} (scanner : Scanner σ ε) : Scanner (σ × List String) ε :=
  fun comment (s, seen) =>
    let (answer, s) := scanner comment s
    (answer, s, seen ++ [comment])

end Scanner

/-- What an extractor remembers. -/
structure Memory where
  /-- The annotations of declarations, by name. -/
  declarations : Table String AnnotationSet := []
  /-- The consolidated annotations of members, by the names of declaration and member. -/
  members : Table (String × String) AnnotationSet := []
deriving DecidableEq, Repr, Inhabited

namespace Memory

/-- The number of remembered answers. -/
def size (memory : Memory) : Nat := memory.declarations.length + memory.members.length

/-- Remember the annotations of a declaration. -/
def addDeclaration (memory : Memory) (name : String) (set : AnnotationSet) : Memory :=
  { memory with declarations := memory.declarations.insert name set }

/-- Remember the consolidated annotations of a member. -/
def addMember (memory : Memory) (names : String × String) (set : AnnotationSet) : Memory :=
  { memory with members := memory.members.insert names set }

end Memory

/-- An extractor: its scanner and the names of what is inherited. -/
structure Extractor (σ : Type) (ε : Type := ScanError) where
  /-- The scanner of comments. -/
  scanner : Scanner σ ε
  /-- The names of the annotations that are passed on. -/
  rules : Rules := {}

namespace Extractor

/-- The state of an extractor and its scanner. -/
structure State (σ : Type) where
  /-- What has been remembered. -/
  memory : Memory := {}
  /-- The state of the scanner. -/
  scanner : σ
deriving DecidableEq, Repr

/-- A result or a failure, and the state after the request. -/
abbrev Answer (σ α : Type) (ε : Type := ScanError) := Except ε α × State σ

variable {σ ε : Type}

/-- Scan a comment. -/
def scan (x : Extractor σ ε) (comment : String) (s : State σ) : Answer σ AnnotationSet ε :=
  match x.scanner comment s.scanner with
  | (answer, scanner) => (answer, { s with scanner := scanner })

/-- The annotations of a declaration itself. -/
def declaration (x : Extractor σ ε) (d : Declaration) (s : State σ) : Answer σ AnnotationSet ε :=
  match s.memory.declarations.get? d.name with
  | some set => (.ok set, s)
  | none =>
    match x.scan d.comment s with
    | (.error e, s) => (.error e, s)
    | (.ok set, s) => (.ok set, { s with memory := s.memory.addDeclaration d.name set })

/-- The annotations of a member with what it inherits.  The comment of the member is scanned
before that of its declaration. -/
def member (x : Extractor σ ε) (d : Declaration) (m : Member) (s : State σ) :
    Answer σ AnnotationSet ε :=
  match s.memory.members.get? (d.name, m.name) with
  | some set => (.ok set, s)
  | none =>
    match x.scan m.comment s with
    | (.error e, s) => (.error e, s)
    | (.ok own, s) =>
      match x.declaration d s with
      | (.error e, s) => (.error e, s)
      | (.ok base, s) =>
        let set := consolidate x.rules own base
        (.ok set, { s with memory := s.memory.addMember (d.name, m.name) set })

/-- Make a request for each of some things and put the results in a table by name.  The first
failure ends it. -/
def tabulate {α β : Type} (name : α → String) (request : α → State σ → Answer σ β ε)
    (done : Table String β) : List α → State σ → Answer σ (Table String β) ε
  | [], s => (.ok done, s)
  | a :: rest, s =>
    match request a s with
    | (.error e, s) => (.error e, s)
    | (.ok b, s) => tabulate name request (done.insert (name a) b) rest s

end Extractor

/-- The consolidated annotations of the members of a declaration, by name. -/
abbrev Extraction := Table String AnnotationSet

namespace Extractor

variable {σ ε : Type}

/-- The annotations of all members of a declaration. -/
def extract (x : Extractor σ ε) (d : Declaration) (s : State σ) : Answer σ Extraction ε :=
  tabulate Member.name (x.member d) [] d.members s

/-- The extractions of several declarations, by name. -/
def extractAll (x : Extractor σ ε) (ds : List Declaration) (s : State σ) :
    Answer σ (Table String Extraction) ε :=
  tabulate Declaration.name x.extract [] ds s

/-- Forget everything. -/
def clear (s : State σ) : State σ := { s with memory := {} }

end Extractor

/-- The JSON form of an extraction: an object of annotation sets. -/
def Extraction.toJson (extraction : Extraction) : Json :=
  .object (extraction.map fun (name, set) => (name, AnnotationSet.toJson set))

/-- The JSON form of several extractions: an object of objects. -/
def extractionsToJson (all : Table String Extraction) : Json :=
  .object (all.map fun (name, extraction) => (name, extraction.toJson))

end DocFacts
