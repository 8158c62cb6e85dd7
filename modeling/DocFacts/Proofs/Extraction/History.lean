import DocFacts.Proofs.Extraction.Direct

/-!
# What an extractor remembers

An extractor remembers by name, so what it remembers is decided by the requests that it has
answered.  The annotations of a declaration come from the comment of the first of these requests
that belongs to a declaration of its name.  The annotations of a member come from the comment
of the first request for a member of its two names.  `Memory.Records` says this of a memory and
a history of answered requests.

`Extractor.request_spec` is the statement on one request.  It answers what a request with these
first comments would get without a memory.  An answer goes into the history, and a failure
leaves the memory as it was.
-/

namespace DocFacts

/-- What an extractor scans comments for. -/
inductive Request where
  /-- The annotations of a declaration itself. -/
  | declaration (d : Declaration)
  /-- The annotations of a member with what it inherits. -/
  | member (d : Declaration) (m : Member)
deriving DecidableEq, Repr

namespace Request

/-- The declaration to which a request belongs. -/
def owner : Request → Declaration
  | .declaration d => d
  | .member d _ => d

/-- The member for which a request is, with its declaration. -/
def member? : Request → Option (Declaration × Member)
  | .declaration _ => none
  | .member d m => some (d, m)

/-- The two names of a member of a declaration. -/
def names (dm : Declaration × Member) : String × String := (dm.1.name, dm.2.name)

end Request

/-- The requests for the members of a declaration. -/
def Declaration.requests (d : Declaration) : List Request := d.members.map (.member d)

/-- Requests that have been answered, the first one first. -/
abbrev History := List Request

namespace History

/-- The first declaration of a name to which a request belongs. -/
def owner? (history : History) (name : String) : Option Declaration :=
  (history.map Request.owner).find? fun d => d.name = name

/-- The first member of two names for which a request is, with its declaration. -/
def member? (history : History) (names : String × String) : Option (Declaration × Member) :=
  (history.filterMap Request.member?).find? fun dm => Request.names dm = names

/-- The comment that stands for the declarations of a name: the first one, or that of the
declaration itself if there is none. -/
def base (history : History) (d : Declaration) : String :=
  ((history.owner? d.name).getD d).comment

/-- The comment that stands for the members of two names: the first one, or that of the member
itself if there is none. -/
def own (history : History) (d : Declaration) (m : Member) : String :=
  ((history.member? (d.name, m.name)).getD (d, m)).2.comment

theorem owner?_append (history more : History) (name : String) :
    owner? (history ++ more) name = (history.owner? name).or (more.owner? name) := by
  simp [owner?, List.find?_append]

theorem member?_append (history more : History) (names : String × String) :
    member? (history ++ more) names = (history.member? names).or (more.member? names) := by
  simp [member?, List.find?_append]

theorem member?_declaration (d : Declaration) (names : String × String) :
    member? [.declaration d] names = none := by
  simp [member?, Request.member?]

theorem member?_member (d : Declaration) (m : Member) (names : String × String) :
    member? [.member d m] names = if (d.name, m.name) = names then some (d, m) else none := by
  by_cases h : (d.name, m.name) = names
  · simp [member?, Request.member?, Request.names, h]
  · simp [member?, Request.member?, Request.names, h]

/-- A request does not change which comment stands for its own declaration. -/
theorem base_append_cons (history more : History) (r : Request) :
    base (history ++ r :: more) r.owner = base history r.owner := by
  have hr : owner? (r :: more) r.owner.name = some r.owner := by simp [owner?]
  rw [base, base, owner?_append, hr]
  cases history.owner? r.owner.name with
  | none => rfl
  | some d => rfl

/-- A request for a member does not change which comment stands for that member. -/
theorem own_append_cons (history more : History) (d : Declaration) (m : Member) :
    own (history ++ .member d m :: more) d m = own history d m := by
  have hr : member? (.member d m :: more) (d.name, m.name) = some (d, m) := by
    simp [member?, Request.member?, Request.names]
  rw [own, own, member?_append, hr]
  cases history.member? (d.name, m.name) with
  | none => rfl
  | some dm => rfl

/-! ### First requests -/

section First

variable {history : History} {d : Declaration} {m : Member}

theorem mem_of_owner? {name : String} (h : history.owner? name = some d) :
    (∃ r ∈ history, r.owner = d) ∧ d.name = name := by
  obtain ⟨r, hr, rfl⟩ := List.mem_map.1 (List.mem_of_find?_eq_some h)
  exact ⟨⟨r, hr, rfl⟩, by simpa using List.find?_some h⟩

theorem mem_of_member? {names : String × String} (h : history.member? names = some (d, m)) :
    .member d m ∈ history ∧ (d.name, m.name) = names := by
  obtain ⟨r, hr, hrm⟩ := List.mem_filterMap.1 (List.mem_of_find?_eq_some h)
  cases r with
  | declaration d' => cases hrm
  | member d' m' =>
    cases hrm
    have hnames := List.find?_some h
    exact ⟨hr, of_decide_eq_true hnames⟩

theorem exists_member? (h : .member d m ∈ history) :
    ∃ b m', history.member? (d.name, m.name) = some (b, m') := by
  have hsome : (history.member? (d.name, m.name)).isSome := by
    rw [member?, List.find?_isSome]
    exact ⟨(d, m), List.mem_filterMap.2 ⟨_, h, rfl⟩, by simp [Request.names]⟩
  obtain ⟨⟨b, m'⟩, hb⟩ := Option.isSome_iff_exists.1 hsome
  exact ⟨b, m', hb⟩

theorem exists_owner? {r : Request} (h : r ∈ history) :
    ∃ b, history.owner? r.owner.name = some b := by
  have hsome : (history.owner? r.owner.name).isSome := by
    rw [owner?, List.find?_isSome]
    exact ⟨r.owner, List.mem_map_of_mem h, by simp⟩
  exact Option.isSome_iff_exists.1 hsome

theorem own_of_member? {b : Declaration} {m' : Member}
    (h : history.member? (d.name, m.name) = some (b, m')) : history.own d m = m'.comment := by
  rw [own, h]
  rfl

theorem base_of_owner? {b : Declaration} (h : history.owner? d.name = some b) :
    history.base d = b.comment := by
  rw [base, h]
  rfl

end First

/-- The answer to a request without a memory, but with the comments that stand for its names. -/
def answer {ε : Type} (rules : Rules) (annotations : String → Except ε AnnotationSet)
    (history : History) : Request → Except ε AnnotationSet
  | .declaration d => annotations (history.base d)
  | .member d m => Direct.consolidated rules annotations (history.own d m) (history.base d)

end History

/-- The memory holds the answers to the requests of a history and nothing else. -/
structure Memory.Records {ε : Type} (rules : Rules) (annotations : String → Except ε AnnotationSet)
    (history : History) (memory : Memory) : Prop where
  /-- A declaration is remembered with the annotations of its first comment. -/
  declaration : ∀ name, Option.Rel (fun d set => annotations d.comment = .ok set)
    (history.owner? name) (memory.declarations.get? name)
  /-- A member is remembered with the annotations of its first comment, consolidated with those
  of its declaration. -/
  member : ∀ names, Option.Rel
    (fun dm set => ∃ own base, annotations dm.2.comment = .ok own ∧
      memory.declarations.get? names.1 = some base ∧ set = consolidate rules own base)
    (history.member? names) (memory.members.get? names)

namespace Memory.Records

variable {ε : Type} {rules : Rules} {annotations : String → Except ε AnnotationSet}
  {history : History} {memory : Memory} {d : Declaration} {m : Member} {set : AnnotationSet}

/-- An empty memory goes with an empty history. -/
theorem nil : Records rules annotations [] {} := ⟨fun _ => .none, fun _ => .none⟩

/-! ## Reading the history off the memory -/

theorem owner?_of_get?_eq_some (h : Records rules annotations history memory) {name : String}
    (hget : memory.declarations.get? name = some set) :
    ∃ d, history.owner? name = some d ∧ annotations d.comment = .ok set := by
  have hd := h.declaration name
  rw [hget] at hd
  generalize history.owner? name = first at hd ⊢
  cases hd with
  | some hd => exact ⟨_, rfl, hd⟩

theorem owner?_of_get?_eq_none (h : Records rules annotations history memory) {name : String}
    (hget : memory.declarations.get? name = none) : history.owner? name = none := by
  have hd := h.declaration name
  rw [hget] at hd
  generalize history.owner? name = first at hd ⊢
  cases hd with
  | none => rfl

theorem member?_of_get?_eq_some (h : Records rules annotations history memory)
    {names : String × String} (hget : memory.members.get? names = some set) :
    ∃ dm own base, history.member? names = some dm ∧ annotations dm.2.comment = .ok own ∧
      memory.declarations.get? names.1 = some base ∧ set = consolidate rules own base := by
  have hm := h.member names
  rw [hget] at hm
  generalize history.member? names = first at hm ⊢
  cases hm with
  | some hm =>
    obtain ⟨own, base, hm⟩ := hm
    exact ⟨_, own, base, rfl, hm⟩

theorem member?_of_get?_eq_none (h : Records rules annotations history memory)
    {names : String × String} (hget : memory.members.get? names = none) :
    history.member? names = none := by
  have hm := h.member names
  rw [hget] at hm
  generalize history.member? names = first at hm ⊢
  cases hm with
  | none => rfl

theorem base_of_get?_eq_some (h : Records rules annotations history memory)
    (hget : memory.declarations.get? d.name = some set) :
    annotations (history.base d) = .ok set := by
  obtain ⟨d', ho, hset⟩ := h.owner?_of_get?_eq_some hget
  rw [History.base, ho]
  exact hset

theorem base_of_get?_eq_none (h : Records rules annotations history memory)
    (hget : memory.declarations.get? d.name = none) : history.base d = d.comment := by
  rw [History.base, h.owner?_of_get?_eq_none hget]
  rfl

theorem answer_of_get?_eq_some (h : Records rules annotations history memory)
    (hget : memory.members.get? (d.name, m.name) = some set) :
    history.answer rules annotations (.member d m) = .ok set := by
  obtain ⟨dm, own, base, ho, hown, hbase, rfl⟩ := h.member?_of_get?_eq_some hget
  have hfirst : annotations (history.own d m) = .ok own := by
    rw [History.own, ho]
    exact hown
  rw [History.answer, Direct.consolidated, hfirst, h.base_of_get?_eq_some hbase]
  rfl

theorem own_of_get?_eq_none (h : Records rules annotations history memory)
    (hget : memory.members.get? (d.name, m.name) = none) : history.own d m = m.comment := by
  rw [History.own, h.member?_of_get?_eq_none hget]
  rfl

/-! ## Going on in the history -/

/-- A request whose declaration is remembered is not the first one for its name. -/
theorem owner?_append_of_get?_eq_some (h : Records rules annotations history memory)
    {r : Request} (hget : memory.declarations.get? r.owner.name = some set) (name : String) :
    History.owner? (history ++ [r]) name = history.owner? name := by
  rw [History.owner?_append]
  by_cases hname : r.owner.name = name
  · subst hname
    obtain ⟨d', ho, -⟩ := h.owner?_of_get?_eq_some hget
    rw [ho]
    rfl
  · simp [History.owner?, hname]

/-- A declaration that is remembered is answered from the memory. -/
theorem declaration_again (h : Records rules annotations history memory)
    (hget : memory.declarations.get? d.name = some set) :
    Records rules annotations (history ++ [.declaration d]) memory where
  declaration name := by
    rw [h.owner?_append_of_get?_eq_some (r := .declaration d) hget]
    exact h.declaration name
  member names := by
    rw [History.member?_append, History.member?_declaration, Option.or_none]
    exact h.member names

/-- A member that is remembered is answered from the memory. -/
theorem member_again (h : Records rules annotations history memory)
    (hget : memory.members.get? (d.name, m.name) = some set) :
    Records rules annotations (history ++ [.member d m]) memory := by
  obtain ⟨dm, own, base, ho, -, hbase, -⟩ := h.member?_of_get?_eq_some hget
  refine ⟨fun name => ?_, fun names => ?_⟩
  · rw [h.owner?_append_of_get?_eq_some (r := .member d m) hbase]
    exact h.declaration name
  · rw [History.member?_append, History.member?_member]
    split
    · rename_i hnames
      subst hnames
      have hm := h.member (d.name, m.name)
      rw [ho] at hm ⊢
      exact hm
    · rw [Option.or_none]
      exact h.member names

/-- A declaration that is new is remembered with the annotations of its own comment. -/
theorem addDeclaration (h : Records rules annotations history memory)
    (hget : memory.declarations.get? d.name = none) (hset : annotations d.comment = .ok set) :
    Records rules annotations (history ++ [.declaration d]) (memory.addDeclaration d.name set) where
  declaration name := by
    rw [Memory.addDeclaration, Table.get?_insert, History.owner?_append]
    by_cases hname : d.name = name
    · subst hname
      rw [h.owner?_of_get?_eq_none hget]
      simpa [History.owner?, Request.owner] using hset
    · rw [if_neg hname]
      simpa [History.owner?, Request.owner, hname] using h.declaration name
  member names := by
    rw [History.member?_append, History.member?_declaration, Option.or_none,
      show (memory.addDeclaration d.name set).members = memory.members from rfl]
    have hm := h.member names
    generalize history.member? names = first, memory.members.get? names = kept at hm ⊢
    cases hm with
    | none => exact .none
    | some hm =>
      obtain ⟨own, base, hown, hbase, rfl⟩ := hm
      have hne : d.name ≠ names.1 := by
        rintro hname
        rw [← hname, hget] at hbase
        cases hbase
      refine .some ⟨own, base, hown, ?_, rfl⟩
      rw [Memory.addDeclaration, Table.get?_insert, if_neg hne, hbase]

/-- A member that is new is remembered with the annotations of its own comment and of what its
declaration is remembered with. -/
theorem addMember {own base : AnnotationSet}
    (h : Records rules annotations (history ++ [.declaration d]) memory)
    (hget : memory.members.get? (d.name, m.name) = none)
    (hown : annotations m.comment = .ok own)
    (hbase : memory.declarations.get? d.name = some base) :
    Records rules annotations (history ++ [.member d m])
      (memory.addMember (d.name, m.name) (consolidate rules own base)) where
  declaration name := by
    have hd := h.declaration name
    rw [History.owner?_append] at hd ⊢
    exact hd
  member names := by
    have hfirst := h.member?_of_get?_eq_none hget
    have hm := h.member names
    rw [History.member?_append, History.member?_declaration, Option.or_none] at hfirst hm
    rw [Memory.addMember, Table.get?_insert, History.member?_append, History.member?_member]
    split
    · rename_i hnames
      subst hnames
      rw [hfirst, Option.none_or]
      exact .some ⟨own, base, hown, hbase, rfl⟩
    · rw [Option.or_none]
      exact hm

end Memory.Records

namespace Extractor

variable {σ ε : Type} {x : Extractor σ ε} {annotations : String → Except ε AnnotationSet}
  {history : History}

/-- The answers of the scanner depend on the comment alone. -/
def Scans (x : Extractor σ ε) (annotations : String → Except ε AnnotationSet) : Prop :=
  ∀ comment s, (x.scanner comment s).1 = annotations comment

/-- Make a request. -/
def request (x : Extractor σ ε) : Request → State σ → Answer σ AnnotationSet ε
  | .declaration d => x.declaration d
  | .member d m => x.member d m

theorem scan_eq (hx : x.Scans annotations) (comment : String) (s : State σ) :
    ∃ t, x.scan comment s = (annotations comment, { s with scanner := t }) :=
  ⟨(x.scanner comment s.scanner).2, by rw [Extractor.scan, ← hx comment s.scanner]⟩

/-- A request for a declaration is answered with its first comment.  An answer is remembered,
and a failure leaves the memory as it was. -/
theorem declaration_spec (hx : x.Scans annotations) {s : State σ}
    (hs : s.memory.Records x.rules annotations history) (d : Declaration) :
    (x.declaration d s).1 = annotations (history.base d) ∧
      Ends (annotations (history.base d))
        (fun set =>
          (x.declaration d s).2.memory.Records x.rules annotations (history ++ [.declaration d]) ∧
            (x.declaration d s).2.memory.declarations.get? d.name = some set ∧
            (x.declaration d s).2.memory.members = s.memory.members)
        ((x.declaration d s).2.memory = s.memory) := by
  rw [Extractor.declaration]
  cases hget : s.memory.declarations.get? d.name with
  | some set =>
    rw [hs.base_of_get?_eq_some hget]
    exact ⟨rfl, hs.declaration_again hget, hget, rfl⟩
  | none =>
    obtain ⟨t, hscan⟩ := x.scan_eq hx d.comment s
    simp only [hscan, hs.base_of_get?_eq_none hget]
    cases hset : annotations d.comment with
    | error e => exact ⟨rfl, rfl⟩
    | ok set =>
      exact ⟨rfl, hs.addDeclaration hget hset, Table.get?_insert_self _ _ _, rfl⟩

/-- **What a request comes to.**  It is answered with the first comments of its names.  An
answer goes into the history, and a failure leaves the memory as it was. -/
theorem request_spec (hx : x.Scans annotations) {s : State σ}
    (hs : s.memory.Records x.rules annotations history) (r : Request) :
    (x.request r s).1 = history.answer x.rules annotations r ∧
      Ends (history.answer x.rules annotations r)
        (fun _ => (x.request r s).2.memory.Records x.rules annotations (history ++ [r]))
        ((x.request r s).2.memory = s.memory) := by
  cases r with
  | declaration d =>
    obtain ⟨hanswer, hafter⟩ := declaration_spec hx hs d
    exact ⟨hanswer, hafter.imp (fun _ h => h.1) id⟩
  | member d m =>
    rw [request, Extractor.member]
    cases hget : s.memory.members.get? (d.name, m.name) with
    | some set =>
      rw [hs.answer_of_get?_eq_some hget]
      exact ⟨rfl, hs.member_again hget⟩
    | none =>
      obtain ⟨t, hscan⟩ := x.scan_eq hx m.comment s
      simp only [hscan, History.answer, Direct.consolidated, hs.own_of_get?_eq_none hget]
      cases hown : annotations m.comment with
      | error e => exact ⟨rfl, rfl⟩
      | ok own =>
        -- The state behind the scan of the member's comment, from which the base is asked for.
        obtain ⟨hbase, hafter⟩ := declaration_spec hx (s := { s with scanner := t }) hs d
        rcases hr : x.declaration d { s with scanner := t } with ⟨answer, s'⟩
        rw [hr] at hbase hafter
        simp only [hr] at hbase hafter ⊢
        rw [← hbase] at hafter ⊢
        cases answer with
        | error e => exact ⟨rfl, hafter⟩
        | ok base =>
          obtain ⟨hrecords, hd, hm⟩ := hafter
          refine ⟨rfl, hrecords.addMember ?_ hown hd⟩
          rw [hm]
          exact hget

end Extractor

end DocFacts
