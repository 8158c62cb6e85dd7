import DocFacts.Proofs.Extraction.History

/-!
# Sessions

A session is a sequence of calls on one extractor.  Its replies depend on what is remembered, so
they depend on the order of the calls.  `session_eq_map_reply` says when they do not.  As long as
between two calls of `clear` the same names always come with the same comments, each call is
answered as if nothing were remembered, and so are the calls that fail.

What is kept between two calls is that the memory records some history whose requests have all
been made since the last `clear` (`Extractor.Kept`).
-/

namespace DocFacts

/-- A call on an extractor. -/
inductive Call where
  /-- Ask for the annotations of a declaration itself. -/
  | declaration (d : Declaration)
  /-- Ask for the annotations of a member with what it inherits. -/
  | member (d : Declaration) (m : Member)
  /-- Ask for the annotations of all members of a declaration. -/
  | extract (d : Declaration)
  /-- Ask for the annotations of all members of several declarations. -/
  | extractAll (ds : List Declaration)
  /-- Forget everything. -/
  | clear
deriving DecidableEq, Repr

/-- The reply to a call. -/
inductive Reply (ε : Type) where
  /-- Annotations of one declaration or member. -/
  | set (answer : Except ε AnnotationSet)
  /-- Annotations of the members of a declaration. -/
  | extraction (answer : Except ε Extraction)
  /-- Annotations of the members of several declarations. -/
  | extractions (answer : Except ε (Table String Extraction))
  /-- Everything has been forgotten. -/
  | cleared

/-- The requests that a call may lead to. -/
def Call.requests : Call → List Request
  | .declaration d => [.declaration d]
  | .member d m => [.member d m]
  | .extract d => d.requests
  | .extractAll ds => ds.flatMap Declaration.requests
  | .clear => []

namespace Extractor

variable {σ ε : Type}

/-- Make a call. -/
def call (x : Extractor σ ε) (s : State σ) : Call → Reply ε × State σ
  | .declaration d => ((x.declaration d s).map .set id)
  | .member d m => ((x.member d m s).map .set id)
  | .extract d => ((x.extract d s).map .extraction id)
  | .extractAll ds => ((x.extractAll ds s).map .extractions id)
  | .clear => (.cleared, clear s)

/-- Make calls one after the other. -/
def session (x : Extractor σ ε) : List Call → State σ → List (Reply ε)
  | [], _ => []
  | c :: calls, s => (x.call s c).1 :: x.session calls (x.call s c).2

end Extractor

namespace Direct

variable {ε : Type} (rules : Rules) (annotations : String → Except ε AnnotationSet)

/-- The answer to a request without a memory. -/
def answer : Request → Except ε AnnotationSet
  | .declaration d => annotations d.comment
  | .member d m => member rules annotations d m

/-- The reply to a call without a memory. -/
def reply : Call → Reply ε
  | .declaration d => .set (annotations d.comment)
  | .member d m => .set (member rules annotations d m)
  | .extract d => .extraction (extract rules annotations d)
  | .extractAll ds => .extractions (extractAll rules annotations ds)
  | .clear => .cleared

end Direct

/-! ## Names and their comments -/

/-- The same names always come with the same comments. -/
structure Coherent (requests : List Request) : Prop where
  /-- Declarations of one name have one comment. -/
  declaration : ∀ r ∈ requests, ∀ r' ∈ requests,
    r.owner.name = r'.owner.name → r.owner.comment = r'.owner.comment
  /-- Members of one name in declarations of one name have one comment. -/
  member : ∀ dm ∈ requests.filterMap Request.member?, ∀ dm' ∈ requests.filterMap Request.member?,
    Request.names dm = Request.names dm' → dm.2.comment = dm'.2.comment

instance (requests : List Request) : Decidable (Coherent requests) :=
  decidable_of_iff (_ ∧ _) ⟨fun h => ⟨h.1, h.2⟩, fun h => ⟨h.1, h.2⟩⟩

theorem Coherent.mono {requests requests' : List Request} (h : Coherent requests')
    (hsub : requests ⊆ requests') : Coherent requests where
  declaration r hr r' hr' := h.declaration r (hsub hr) r' (hsub hr')
  member dm hdm dm' hdm' := by
    have hmem : requests.filterMap Request.member? ⊆ requests'.filterMap Request.member? :=
      List.filterMap_subset _ hsub
    exact h.member dm (hmem hdm) dm' (hmem hdm')

/-- Between two calls of `clear` the same names always come with the same comments.  `seen` are
the requests since the last one. -/
def Consistent (seen : List Request) : List Call → Prop
  | [] => Coherent seen
  | .clear :: calls => Coherent seen ∧ Consistent [] calls
  | c :: calls => Consistent (seen ++ c.requests) calls

instance decidableConsistent (seen : List Request) : (calls : List Call) →
    Decidable (Consistent seen calls)
  | [] => inferInstanceAs (Decidable (Coherent seen))
  | .clear :: calls =>
    have := decidableConsistent [] calls
    inferInstanceAs (Decidable (Coherent seen ∧ Consistent [] calls))
  | .declaration d :: calls => decidableConsistent (seen ++ [.declaration d]) calls
  | .member d m :: calls => decidableConsistent (seen ++ [.member d m]) calls
  | .extract d :: calls => decidableConsistent (seen ++ (Call.extract d).requests) calls
  | .extractAll ds :: calls => decidableConsistent (seen ++ (Call.extractAll ds).requests) calls

theorem Consistent.coherent {seen : List Request} {calls : List Call} (h : Consistent seen calls) :
    Coherent seen := by
  induction calls generalizing seen with
  | nil => exact h
  | cons c calls ih =>
    cases c with
    | clear => exact h.1
    | declaration d => exact (ih h).mono (List.subset_append_left _ _)
    | member d m => exact (ih h).mono (List.subset_append_left _ _)
    | extract d => exact (ih h).mono (List.subset_append_left _ _)
    | extractAll ds => exact (ih h).mono (List.subset_append_left _ _)

/-- If the same names always come with the same comments, the comment that stands for a
declaration is its own. -/
theorem Coherent.base_eq {seen : List Request} {history : History} {r : Request}
    (h : Coherent seen) (hhistory : history ⊆ seen) (hr : r ∈ seen) :
    history.base r.owner = r.owner.comment := by
  rw [History.base]
  cases ho : history.owner? r.owner.name with
  | none => rfl
  | some d =>
    obtain ⟨r', hr', rfl⟩ := List.mem_map.1 (List.mem_of_find?_eq_some ho)
    have hname : r'.owner.name = r.owner.name := by simpa using List.find?_some ho
    exact h.declaration r' (hhistory hr') r hr hname

/-- If the same names always come with the same comments, the comment that stands for a member
is its own. -/
theorem Coherent.own_eq {seen : List Request} {history : History} {d : Declaration} {m : Member}
    (h : Coherent seen) (hhistory : history ⊆ seen) (hr : Request.member d m ∈ seen) :
    history.own d m = m.comment := by
  rw [History.own]
  cases ho : history.member? (d.name, m.name) with
  | none => rfl
  | some dm =>
    have hmem := List.filterMap_subset Request.member? hhistory (List.mem_of_find?_eq_some ho)
    have hnames : Request.names dm = (d.name, m.name) := by simpa using List.find?_some ho
    exact h.member dm hmem (d, m) (List.mem_filterMap.2 ⟨_, hr, rfl⟩) hnames

theorem Coherent.answer_eq {seen : List Request} {history : History} {r : Request}
    {ε : Type} {rules : Rules} {annotations : String → Except ε AnnotationSet}
    (h : Coherent seen) (hhistory : history ⊆ seen) (hr : r ∈ seen) :
    history.answer rules annotations r = Direct.answer rules annotations r := by
  cases r with
  | declaration d =>
    have hbase := h.base_eq hhistory hr
    simp only [Request.owner] at hbase
    rw [History.answer, hbase, Direct.answer]
  | member d m =>
    have hbase := h.base_eq hhistory hr
    simp only [Request.owner] at hbase
    rw [History.answer, hbase, h.own_eq hhistory hr, Direct.answer, Direct.member]

/-! ## Calls -/

namespace Extractor

variable {σ ε : Type} {x : Extractor σ ε} {annotations : String → Except ε AnnotationSet}
  {seen : List Request} {s : State σ}

/-- The memory records a history of requests that have been seen. -/
def Kept (x : Extractor σ ε) (annotations : String → Except ε AnnotationSet)
    (seen : List Request) (s : State σ) : Prop :=
  ∃ history ⊆ seen, s.memory.Records x.rules annotations history

theorem kept_nil {s : State σ} (h : s.memory = {}) : x.Kept annotations seen s := by
  refine ⟨[], List.nil_subset _, ?_⟩
  rw [h]
  exact .nil

theorem Kept.mono {seen' : List Request} (h : x.Kept annotations seen s) (hsub : seen ⊆ seen') :
    x.Kept annotations seen' s := by
  obtain ⟨history, hhistory, hrecords⟩ := h
  exact ⟨history, List.Subset.trans hhistory hsub, hrecords⟩

/-- A request that has been seen is answered as without a memory. -/
theorem Kept.request (hx : x.Scans annotations) (hseen : Coherent seen)
    (hs : x.Kept annotations seen s) {r : Request} (hr : r ∈ seen) :
    (x.request r s).1 = Direct.answer x.rules annotations r ∧
      x.Kept annotations seen (x.request r s).2 := by
  obtain ⟨history, hhistory, hrecords⟩ := hs
  obtain ⟨hanswer, hafter⟩ := request_spec hx hrecords r
  rw [hseen.answer_eq hhistory hr] at hanswer hafter
  refine ⟨hanswer, (hafter.imp (fun _ h => ?_) (fun h => ?_)).elim⟩
  · exact ⟨history ++ [r], by simp [hhistory, hr], h⟩
  · refine ⟨history, hhistory, ?_⟩
    rw [h]
    exact hrecords

/-- What is kept over each request of a table is kept over the table. -/
theorem Kept.tabulate {α β : Type} (name : α → String) {request : α → State σ → Answer σ β ε}
    {spec : α → Except ε β} {things : List α}
    (hstep : ∀ a ∈ things, ∀ s, x.Kept annotations seen s →
      (request a s).1 = spec a ∧ x.Kept annotations seen (request a s).2)
    (hs : x.Kept annotations seen s) :
    (Extractor.tabulate name request [] things s).1 = Direct.tabulate name spec things ∧
      x.Kept annotations seen (Extractor.tabulate name request [] things s).2 := by
  have hall : AnswersAs request spec (fun _ => x.Kept annotations seen)
      (x.Kept annotations seen) things := by
    intro front a back s hthings hs
    obtain ⟨hanswer, hkept⟩ := hstep a (by simp [hthings]) s hs
    cases hspec : spec a with
    | error e => exact ⟨hanswer.trans hspec, hkept⟩
    | ok b => exact ⟨hanswer.trans hspec, hkept⟩
  obtain ⟨hanswer, hafter⟩ := tabulate_run name hall hs
  exact ⟨hanswer, hafter.elim⟩

theorem Kept.extract (hx : x.Scans annotations) (hseen : Coherent seen)
    {d : Declaration} (hd : d.requests ⊆ seen) (hs : x.Kept annotations seen s) :
    (x.extract d s).1 = Direct.extract x.rules annotations d ∧
      x.Kept annotations seen (x.extract d s).2 :=
  hs.tabulate Member.name fun _ hm _ hs => hs.request hx hseen (hd (List.mem_map_of_mem hm))

/-- A call whose requests have been seen gets the reply that it gets without a memory. -/
theorem Kept.call (hx : x.Scans annotations) (hseen : Coherent seen) {c : Call}
    (hc : c.requests ⊆ seen) (hs : x.Kept annotations seen s) :
    (x.call s c).1 = Direct.reply x.rules annotations c ∧
      x.Kept annotations seen (x.call s c).2 := by
  cases c with
  | declaration d =>
    obtain ⟨hanswer, hkept⟩ := hs.request hx hseen (hc (List.mem_singleton_self _))
    exact ⟨congrArg Reply.set hanswer, hkept⟩
  | member d m =>
    obtain ⟨hanswer, hkept⟩ := hs.request hx hseen (hc (List.mem_singleton_self _))
    exact ⟨congrArg Reply.set hanswer, hkept⟩
  | extract d =>
    obtain ⟨hanswer, hkept⟩ := hs.extract hx hseen hc
    exact ⟨congrArg Reply.extraction hanswer, hkept⟩
  | extractAll ds =>
    have hds : ∀ d ∈ ds, d.requests ⊆ seen := fun d hd =>
      fun r hr => hc (List.mem_flatMap.2 ⟨d, hd, hr⟩)
    have hextract : ∀ d ∈ ds, ∀ s, x.Kept annotations seen s →
        (x.extract d s).1 = Direct.extract x.rules annotations d ∧
          x.Kept annotations seen (x.extract d s).2 :=
      fun d hd s hs => hs.extract hx hseen (hds d hd)
    obtain ⟨hanswer, hkept⟩ := hs.tabulate Declaration.name hextract
    exact ⟨congrArg Reply.extractions hanswer, hkept⟩
  | clear => exact ⟨rfl, kept_nil rfl⟩

/-- A session that goes on behind requests that have been seen. -/
theorem Kept.session (hx : x.Scans annotations) {calls : List Call}
    (hcalls : Consistent seen calls) (hs : x.Kept annotations seen s) :
    x.session calls s = calls.map (Direct.reply x.rules annotations) := by
  induction calls generalizing seen s with
  | nil => rfl
  | cons c calls ih =>
    -- All calls but `clear` add their requests to those that have been seen.
    have hgrow (h : Consistent (seen ++ c.requests) calls) :
        x.session (c :: calls) s = (c :: calls).map (Direct.reply x.rules annotations) := by
      obtain ⟨hreply, hkept⟩ := (hs.mono (List.subset_append_left seen c.requests)).call hx
        h.coherent (List.subset_append_right seen c.requests)
      rw [Extractor.session, List.map_cons, hreply, ih h hkept]
    cases c with
    | clear =>
      rw [Extractor.session, List.map_cons, ih hcalls.2 (kept_nil rfl)]
      rfl
    | declaration d => exact hgrow hcalls
    | member d m => exact hgrow hcalls
    | extract d => exact hgrow hcalls
    | extractAll ds => exact hgrow hcalls

/-- **The memory cannot be seen.**  On a new extractor whose scanner goes by the comment alone,
calls that always give the same names the same comments are answered as without a memory. -/
theorem session_eq_map_reply (hx : x.Scans annotations) (calls : List Call)
    (hcalls : Consistent [] calls) (t : σ) :
    x.session calls { scanner := t } = calls.map (Direct.reply x.rules annotations) :=
  Kept.session hx hcalls (kept_nil rfl)

end Extractor

/-- A class whose member inherits a route, with a member whose comment is faulty. -/
def sampleClass : Declaration where
  name := "A"
  comment := "/** @ApiRoute(name=\"/a\") */"
  members := [⟨"get", "/** @ApiRoute(name=\"/x\") */"⟩, ⟨"bad", "/** @T(a=\"b) */"⟩]

/-- Calls that fail, that repeat names, and that give a name a new comment behind `clear`. -/
def sampleCalls : List Call :=
  [.extract sampleClass, .member sampleClass ⟨"get", "/** @ApiRoute(name=\"/x\") */"⟩,
    .extractAll [sampleClass, ⟨"B", "", []⟩], .declaration sampleClass, .clear,
    .declaration ⟨"A", "/** @B(\") */", []⟩, .declaration ⟨"A", "/** @B(\") */", []⟩]

theorem session_sampleCalls :
    Extractor.Scans { scanner := Scanner.noting Scanner.plain } scan ∧
      Consistent [] sampleCalls ∧
      Extractor.session { scanner := Scanner.noting Scanner.plain } sampleCalls
          { scanner := ((), []) } = sampleCalls.map (Direct.reply {} scan) :=
  have hx : Extractor.Scans { scanner := Scanner.noting Scanner.plain } scan := fun _ _ => rfl
  have hcalls : Consistent [] sampleCalls := by decide +kernel
  ⟨hx, hcalls, Extractor.session_eq_map_reply hx sampleCalls hcalls ((), [])⟩

end DocFacts
