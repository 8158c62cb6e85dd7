import Mathlib.Data.List.Induction
import DocFacts.Proofs.Extraction.Trace

/-!
# What a failure leaves behind

A request for a member may scan two comments and add two entries, and either scan can fail.  No
entry is added before both scans have succeeded, so a request that fails leaves the memory as it
was.  An extraction that fails has answered the requests in front of the failure, and leaves what
these leave when they are made as calls of their own (`Extractor.ComesTo`).

So whatever calls have been made, and however many of them have failed, the entries of members
can be traced back: the declaration is remembered too, and the entry is what a scan of a comment
with which the member was requested comes to with it (`Extractor.Run.traced`).
-/

namespace DocFacts

/-- The call that makes a request on its own. -/
def Request.call : Request → Call
  | .declaration d => .declaration d
  | .member d m => .member d m

/-- A new entry of a member is consolidated from the first scan and from what its declaration is
then remembered with. -/
theorem Memory.Filled.exists_base {rules : Rules} {memory memory' : Memory} {d : Declaration}
    {m : Member} {set : AnnotationSet} {scans : List (ScanAnswer ε)}
    (h : memory.Filled rules (.member d m) set scans memory') :
    ∃ own base, scans.head? = some (.ok own) ∧ memory'.lookup (d.name, none) = some base ∧
      set = consolidate rules own base := by
  cases h with
  | @member d m own base hbase =>
    exact ⟨own, base, rfl, by rw [lookup_addMember, if_neg (by simp), hbase], rfl⟩
  | @both d m own base hbase =>
    exact ⟨own, base, rfl, by simp [lookup_addMember, lookup_addDeclaration], rfl⟩

namespace Extractor

variable {σ ε : Type} {x : Extractor σ ε} {s s' t : State σ}

/-! ## Requests that fail -/

/-- A request that fails leaves the memory as it was. -/
theorem Serves.memory_of_error {rules : Rules} {r : Request} {e : ε}
    {scans : List (ScanAnswer ε)} (h : Serves rules s r (.error e) scans s') :
    s'.memory = s.memory := by
  cases h with
  | failed hnew hscans => rfl

theorem memory_of_request_eq_error {r : Request} {e : ε}
    (h : (x.request r s).1 = .error e) : (x.request r s).2.memory = s.memory := by
  obtain ⟨answer, scans, s', hserves, hrequest, -⟩ := x.request_serves r s
  rw [hrequest] at h ⊢
  cases h
  exact hserves.memory_of_error

/-! ## Operations that fail midway -/

/-- The requests are answered when they are made one after the other. -/
def Answers (x : Extractor σ ε) (s : State σ) (requests : List Request) : Prop :=
  ∀ front r back, requests = front ++ r :: back →
    ∃ set, (x.request r (x.after (front.map Request.call) s)).1 = .ok set

/-- Of some requests one fails, and those in front of it are answered.  The memory is the one that
these leave when they are made on their own. -/
def Stops (x : Extractor σ ε) (s : State σ) (requests : List Request) (e : ε)
    (memory : Memory) : Prop :=
  ∃ front r back, requests = front ++ r :: back ∧ x.Answers s front ∧
    (x.request r (x.after (front.map Request.call) s)).1 = .error e ∧
    memory = (x.after (front.map Request.call) s).memory

/-- An operation comes to some requests: it makes all of them, or stops at the first that fails. -/
structure ComesTo {β : Type} (x : Extractor σ ε) (operation : State σ → Answer σ β ε)
    (requests : List Request) : Prop where
  /-- With a result, all requests have been answered. -/
  ok : ∀ {s s' b}, operation s = (.ok b, s') →
    x.Answers s requests ∧ s' = x.after (requests.map Request.call) s
  /-- With a failure, one of the requests has failed. -/
  error : ∀ {s s' e}, operation s = (.error e, s') → x.Stops s requests e s'.memory

theorem after_call (x : Extractor σ ε) (r : Request) (s : State σ) :
    x.after [r.call] s = (x.request r s).2 := by
  cases r with
  | declaration d => rfl
  | member d m => rfl

theorem answers_nil : x.Answers s [] := by
  intro front r back h
  cases front with
  | nil => cases h
  | cons r' front => cases h

theorem answers_append {front back : List Request} (hfront : x.Answers s front)
    (hback : x.Answers (x.after (front.map Request.call) s) back) :
    x.Answers s (front ++ back) := by
  intro before r behind h
  rcases List.append_eq_append_iff.1 h with ⟨middle, hbefore, hrest⟩ | ⟨middle, hfront', hrest⟩
  · rw [hbefore, List.map_append, after_append]
    exact hback middle r behind hrest
  · cases middle with
    | nil =>
      rw [List.append_nil] at hfront'
      subst hfront'
      exact hback [] r behind hrest.symm
    | cons r' middle =>
      obtain ⟨rfl, -⟩ := List.cons.inj hrest
      exact hfront before r middle hfront'

/-- What stops behind requests that are answered stops with these in front. -/
theorem Stops.append {front back : List Request} {e : ε} {memory : Memory}
    (hfront : x.Answers s front)
    (hback : x.Stops (x.after (front.map Request.call) s) back e memory) :
    x.Stops s (front ++ back) e memory := by
  obtain ⟨before, r, behind, rfl, hbefore, hr, hmemory⟩ := hback
  refine ⟨front ++ before, r, behind, by rw [List.append_assoc], answers_append hfront hbefore, ?_⟩
  rw [List.map_append, after_append]
  exact ⟨hr, hmemory⟩

/-- What stops at some requests stops there when others would follow. -/
theorem Stops.append_right {front : List Request} {e : ε} {memory : Memory}
    (h : x.Stops s front e memory) (back : List Request) : x.Stops s (front ++ back) e memory := by
  obtain ⟨before, r, behind, rfl, h⟩ := h
  exact ⟨before, r, behind ++ back, by simp, h⟩

theorem comesTo_request (x : Extractor σ ε) (r : Request) : x.ComesTo (x.request r) [r] where
  ok := by
    intro s s' set h
    refine ⟨?_, by rw [List.map_singleton, after_call, h]⟩
    intro front r' back hr
    cases front with
    | nil =>
      obtain ⟨rfl, -⟩ := List.cons.inj hr
      exact ⟨set, congrArg Prod.fst h⟩
    | cons r'' front => simp at hr
  error := by
    intro s s' e h
    have hmemory := memory_of_request_eq_error (congrArg Prod.fst h)
    rw [h] at hmemory
    exact ⟨[], r, [], rfl, answers_nil, congrArg Prod.fst h, hmemory⟩

/-- A table of operations comes to the requests of each. -/
theorem ComesTo.tabulate {α β : Type} (name : α → String) {request : α → State σ → Answer σ β ε}
    {requests : α → List Request} (h : ∀ a, x.ComesTo (request a) (requests a))
    (done : Table String β) (things : List α) :
    x.ComesTo (Extractor.tabulate name request done things) (things.flatMap requests) := by
  induction things generalizing done with
  | nil =>
    constructor
    · intro s s' b hs
      cases hs
      exact ⟨answers_nil, rfl⟩
    · intro s s' e hs
      cases hs
  | cons a things ih =>
    constructor
    · intro s s' t hs
      rw [Extractor.tabulate] at hs
      rcases hr : request a s with ⟨answer, s₁⟩
      rw [hr] at hs
      cases answer with
      | error e => cases hs
      | ok b =>
        obtain ⟨hanswers, rfl⟩ := (h a).ok hr
        obtain ⟨hrest, rfl⟩ := (ih _).ok hs
        rw [List.flatMap_cons, List.map_append, after_append]
        exact ⟨answers_append hanswers hrest, rfl⟩
    · intro s s' e hs
      rw [Extractor.tabulate] at hs
      rcases hr : request a s with ⟨answer, s₁⟩
      rw [hr] at hs
      cases answer with
      | error e' =>
        cases hs
        exact ((h a).error hr).append_right _
      | ok b =>
        obtain ⟨hanswers, rfl⟩ := (h a).ok hr
        exact .append hanswers ((ih _).error hs)

theorem comesTo_extract (x : Extractor σ ε) (d : Declaration) :
    x.ComesTo (x.extract d) d.requests := by
  have hmembers := ComesTo.tabulate (x := x) Member.name
    (fun m => x.comesTo_request (.member d m)) [] d.members
  rwa [← List.map_eq_flatMap] at hmembers

theorem comesTo_extractAll (x : Extractor σ ε) (ds : List Declaration) :
    x.ComesTo (x.extractAll ds) (ds.flatMap Declaration.requests) :=
  .tabulate Declaration.name x.comesTo_extract [] ds

/-! ## Where entries come from -/

section Traced

variable {served : List (Served ε)} {d : Declaration} {m : Member} {own : AnnotationSet}

/-- On a run from `s` a member has been requested, and the scanner has then answered its comment
with `own`. -/
def Asked (x : Extractor σ ε) (s : State σ) (served : List (Served ε)) (d : Declaration)
    (m : Member) (own : AnnotationSet) : Prop :=
  ∃ front t back, served = front ++ (x.serve (.member d m) t).1 :: back ∧ x.Run s front t ∧
    (x.scanner m.comment t.scanner).1 = .ok own

/-- The entry of each member is consolidated from a scan of a comment with which the member was
requested on a run from `s`, and from what its declaration is remembered with. -/
def Traced (x : Extractor σ ε) (s : State σ) (served : List (Served ε)) (memory : Memory) : Prop :=
  ∀ owner name set, memory.members.get? (owner, name) = some set →
    ∃ base, memory.declarations.get? owner = some base ∧
      ∃ d m own, d.name = owner ∧ m.name = name ∧ x.Asked s served d m own ∧
        set = consolidate x.rules own base

theorem Asked.append (h : x.Asked s served d m own) (later : List (Served ε)) :
    x.Asked s (served ++ later) d m own := by
  obtain ⟨front, t, back, rfl, hrun, hscan⟩ := h
  exact ⟨front, t, back ++ later, by simp, hrun, hscan⟩

/-- A member that is not remembered has its own comment scanned first. -/
theorem head?_scans_serve (hnew : s.memory.lookup (d.name, some m.name) = none) :
    (x.serve (.member d m) s).1.scans.head? = some (x.scanner m.comment s.scanner).1 := by
  have hget : (s.withLog ([] : List (ScanAnswer ε))).memory.members.get? (d.name, m.name) = none :=
    hnew
  obtain ⟨answer, u, hscan⟩ := x.exists_scan_eq m.comment s
  have hfirst : (x.scanner m.comment s.scanner).1 = answer := congrArg Prod.fst hscan
  rw [hfirst, serve, request, member]
  cases answer with
  | error e =>
    simp only [hget, scan_logging, hscan]
    rfl
  | ok own =>
    -- What the scanner answers for the declaration stands behind the first answer in the log.
    obtain ⟨base, scans, s', -, -, hbase⟩ := x.declaration_serves d { s with scanner := u }
    simp only [hget, scan_logging, hscan, hbase]
    cases base with
    | error e => rfl
    | ok base => rfl

/-- An entry that a request adds for a member is that of its own member. -/
theorem Serves.exists_base {rules : Rules} {r : Request} {answer : ScanAnswer ε}
    {scans : List (ScanAnswer ε)} (h : Serves rules s r answer scans s') {owner name : String}
    {set : AnnotationSet} (hold : s.memory.lookup (owner, some name) = none)
    (hset : s'.memory.lookup (owner, some name) = some set) :
    ∃ d m own base, r = .member d m ∧ d.name = owner ∧ m.name = name ∧
      scans.head? = some (.ok own) ∧ s'.memory.lookup (owner, none) = some base ∧
      set = consolidate rules own base := by
  cases h with
  | remembered hr => exact absurd (hold.symm.trans hset) nofun
  | failed hnew hscans => exact absurd (hold.symm.trans hset) nofun
  | @filled set' scans memory t hnew hfilled =>
    have hkey : (owner, some name) ∈ r.keys := by
      have hsome : memory.lookup (owner, some name) ≠ none := by rw [hset]; exact nofun
      exact ((hfilled.lookup_ne_none_iff _).1 hsome).resolve_left fun h => h hold
    simp only [Request.keys, List.mem_cons, List.not_mem_nil, or_false] at hkey
    rcases hkey with hkey | hkey
    · cases r with
      | declaration d => cases hkey
      | member d m =>
        cases hkey
        obtain ⟨own, base, hown, hbase, rfl⟩ := hfilled.exists_base
        have hanswer := hfilled.lookup_key.symm.trans hset
        exact ⟨d, m, own, base, rfl, rfl, rfl, hown, hbase, (Option.some.inj hanswer).symm⟩
    · cases hkey

/-- **Each request keeps entries traced.** -/
theorem Traced.serve (h : x.Traced s served t.memory) (hrun : x.Run s served t) (r : Request) :
    x.Traced s (served ++ [(x.serve r t).1]) (x.serve r t).2.memory := by
  obtain ⟨hserves, -, -⟩ := x.serve_serves r t
  intro owner name set hset
  cases hold : t.memory.lookup (owner, some name) with
  | some old =>
    obtain rfl := Option.some.inj ((hserves.grows _ _ hold).symm.trans hset)
    obtain ⟨base, hbase, d, m, own, hd, hm, hasked, hset⟩ := h owner name old hold
    exact ⟨base, hserves.grows (owner, none) base hbase, d, m, own, hd, hm, hasked.append _, hset⟩
  | none =>
    obtain ⟨d, m, own, base, rfl, rfl, rfl, hscans, hbase, hset⟩ := hserves.exists_base hold hset
    have hscan := Option.some.inj ((head?_scans_serve hold).symm.trans hscans)
    exact ⟨base, hbase, d, m, own, rfl, rfl, ⟨served, t, [], rfl, hrun, hscan⟩, hset⟩

/-- **What a run of requests keeps.**  Behind a run from an empty memory all entries are traced. -/
theorem Run.traced (h : x.Run s served s') (hs : s.memory = {}) : x.Traced s served s'.memory := by
  -- The last request may add an entry, so the run is taken apart at its end.
  induction served using List.reverseRecOn generalizing s' with
  | nil =>
    cases h with
    | nil =>
      intro owner name set hset
      rw [hs] at hset
      cases hset
  | append_singleton served v ih =>
    obtain ⟨t, hrun, hlast⟩ := h.of_append
    cases hlast with
    | @cons r _ _ _ hend =>
      cases hend with
      | nil => exact (ih hrun).serve hrun r

end Traced

/-! ## Calls -/

/-- The calls behind the last `clear`. -/
theorem exists_append_since_clear (calls : List Call) :
    ∃ front back, calls = front ++ back ∧ .clear ∉ back ∧
      (front = [] ∨ front.getLast? = some .clear) := by
  induction calls with
  | nil => exact ⟨[], [], rfl, List.not_mem_nil, .inl rfl⟩
  | cons c calls ih =>
    obtain ⟨front, back, rfl, hback, hfront⟩ := ih
    rcases hfront with rfl | hlast
    · by_cases hc : c = .clear
      · exact ⟨[c], back, rfl, hback, .inr (by rw [hc]; rfl)⟩
      · refine ⟨[], c :: back, rfl, ?_, .inl rfl⟩
        exact List.not_mem_cons_of_ne_of_not_mem (Ne.symm hc) hback
    · refine ⟨c :: front, back, rfl, hback, .inr ?_⟩
      rw [List.getLast?_cons, hlast]
      rfl

/-- A new extractor and one that has just been cleared remember nothing. -/
theorem memory_after_clear {front : List Call} (h : front = [] ∨ front.getLast? = some .clear)
    (t : σ) : (x.after front { scanner := t }).memory = {} := by
  rcases h with rfl | hlast
  · rfl
  · obtain ⟨before, rfl⟩ := List.getLast?_eq_some_iff.1 hlast
    rw [after_append]
    rfl

/-- **Failures leave the memory sound.**  Whatever calls a new extractor has answered or refused,
each member that is remembered has its declaration remembered too, and the entry is consolidated
from that and from a scan of a comment with which the member was requested since the last `clear`.
A request for one declaration or member that fails leaves the memory as it was.  An extraction of
one or several declarations that fails leaves what the requests in front of the failing one leave
when each is a call of its own. -/
theorem failures_leave_memory (x : Extractor σ ε) :
    (∀ (t : σ) (calls : List Call), ∃ front back, calls = front ++ back ∧ .clear ∉ back ∧
      (front = [] ∨ front.getLast? = some .clear) ∧
      x.Traced (x.after front { scanner := t }) (x.trace back (x.after front { scanner := t }))
        (x.after calls { scanner := t }).memory) ∧
    (∀ s d e, (x.declaration d s).1 = .error e → (x.declaration d s).2.memory = s.memory) ∧
    (∀ s d m e, (x.member d m s).1 = .error e → (x.member d m s).2.memory = s.memory) ∧
    (∀ s d e, (x.extract d s).1 = .error e →
      x.Stops s d.requests e (x.extract d s).2.memory) ∧
    (∀ s ds e, (x.extractAll ds s).1 = .error e →
      x.Stops s (ds.flatMap Declaration.requests) e (x.extractAll ds s).2.memory) := by
  refine ⟨fun t calls => ?_, fun s d e h => ?_, fun s d m e h => ?_, fun s d e h => ?_,
    fun s ds e h => ?_⟩
  · obtain ⟨front, back, rfl, hback, hfront⟩ := exists_append_since_clear calls
    refine ⟨front, back, rfl, hback, hfront, ?_⟩
    rw [after_append]
    exact (trace_run hback _).traced (memory_after_clear hfront t)
  · exact memory_of_request_eq_error (r := .declaration d) h
  · exact memory_of_request_eq_error (r := .member d m) h
  · exact (x.comesTo_extract d).error (Prod.ext h rfl)
  · exact (x.comesTo_extractAll ds).error (Prod.ext h rfl)

end Extractor

end DocFacts
