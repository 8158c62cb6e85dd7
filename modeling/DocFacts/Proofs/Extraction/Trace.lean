import DocFacts.Proofs.Extraction.Scans

/-!
# The requests behind some calls

A call makes its requests one after the other up to the first failure (`Extractor.served`), and
some calls make those of each (`Extractor.trace`).  `Extractor.call_makes` says that this is all
that the scanner sees, and `Extractor.exists_served` that replies show no other annotations.  So
what a run of requests keeps holds for calls (`Extractor.trace_answers`).
-/

namespace DocFacts

namespace Extractor

variable {σ ε : Type}

/-! ## Calls -/

section Calls

variable {α β : Type} (x : Extractor σ ε)

/-- The requests that are made for each of some things, one after the other.  The first failure
ends them. -/
def servedAll (request : α → State σ → Answer σ β ε) (served : α → State σ → List (Served ε)) :
    List α → State σ → List (Served ε)
  | [], _ => []
  | a :: rest, s =>
    served a s ++
      match request a s with
      | (.ok _, s) => servedAll request served rest s
      | (.error _, _) => []

/-- The requests for the members of a declaration. -/
def servedMembers (d : Declaration) (s : State σ) : List (Served ε) :=
  servedAll (x.member d) (fun m s => [(x.serve (.member d m) s).1]) d.members s

/-- The requests that a call makes. -/
def served (s : State σ) : Call → List (Served ε)
  | .declaration d => [(x.serve (.declaration d) s).1]
  | .member d m => [(x.serve (.member d m) s).1]
  | .extract d => x.servedMembers d s
  | .extractAll ds => servedAll x.extract x.servedMembers ds s
  | .clear => []

/-- The state behind some calls. -/
def after : List Call → State σ → State σ
  | [], s => s
  | c :: calls, s => after calls (x.call s c).2

/-- The requests that some calls make. -/
def trace : List Call → State σ → List (Served ε)
  | [], _ => []
  | c :: calls, s => x.served s c ++ trace calls (x.call s c).2

/-- Some requests are what an operation of the extractor comes to.  With a log the scanner sees
them and no others. -/
structure Makes (operation : State σ → Answer σ β ε)
    (logged : State (σ × List (ScanAnswer ε)) → Answer (σ × List (ScanAnswer ε)) β ε)
    (served : State σ → List (Served ε)) : Prop where
  /-- The requests lead to the state behind the operation. -/
  run : ∀ s, x.Run s (served s) (operation s).2
  /-- The log has the scans of the requests, and makes no difference. -/
  log : ∀ s log, logged (s.withLog log) =
    ((operation s).1, (operation s).2.withLog (log ++ (served s).flatMap Served.scans))

variable {x}

theorem makes_request (r : Request) :
    x.Makes (x.request r) (x.logging.request r) fun s => [(x.serve r s).1] where
  run s := by
    obtain ⟨-, hrequest, -⟩ := x.serve_serves r s
    rw [hrequest]
    exact .single x r s
  log s log := by
    obtain ⟨-, hrequest, hlog⟩ := x.serve_serves r s
    rw [hlog, hrequest, List.flatMap_singleton]

theorem Makes.tabulate (name : α → String) {request : α → State σ → Answer σ β ε}
    {logged : α → State (σ × List (ScanAnswer ε)) → Answer (σ × List (ScanAnswer ε)) β ε}
    {served : α → State σ → List (Served ε)}
    (h : ∀ a, x.Makes (request a) (logged a) (served a)) (done : Table String β)
    (things : List α) :
    x.Makes (Extractor.tabulate name request done things)
      (Extractor.tabulate name logged done things) (servedAll request served things) := by
  induction things generalizing done with
  | nil => exact ⟨fun s => .nil, fun s log => by simp [Extractor.tabulate, servedAll]⟩
  | cons a things ih =>
    refine ⟨fun s => ?_, fun s log => ?_⟩
    · have hrun := (h a).run s
      rw [Extractor.tabulate, servedAll]
      rcases hr : request a s with ⟨answer, s'⟩
      rw [hr] at hrun
      cases answer with
      | error e => simpa using hrun
      | ok b => exact hrun.append ((ih _).run s')
    · have hlog := (h a).log s log
      rw [Extractor.tabulate, Extractor.tabulate, servedAll, hlog]
      rcases request a s with ⟨answer, s'⟩
      cases answer with
      | error e => simp
      | ok b =>
        simp only [(ih _).log, List.flatMap_append, List.append_assoc]

theorem makes_extract (d : Declaration) :
    x.Makes (x.extract d) (x.logging.extract d) (x.servedMembers d) :=
  .tabulate Member.name (fun m => makes_request (.member d m)) [] d.members

/-- A call comes to its requests, and those are all that its scanner sees. -/
theorem call_makes (c : Call) (s : State σ) :
    (c ≠ .clear → x.Run s (x.served s c) (x.call s c).2) ∧
      ∀ log, x.logging.call (s.withLog log) c =
        ((x.call s c).1,
          (x.call s c).2.withLog (log ++ (x.served s c).flatMap Served.scans)) := by
  cases c with
  | declaration d =>
    have hmakes := makes_request (x := x) (.declaration d)
    exact ⟨fun _ => hmakes.run s, fun log => congrArg (Prod.map Reply.set id) (hmakes.log s log)⟩
  | member d m =>
    have hmakes := makes_request (x := x) (.member d m)
    exact ⟨fun _ => hmakes.run s, fun log => congrArg (Prod.map Reply.set id) (hmakes.log s log)⟩
  | extract d =>
    have hmakes := makes_extract (x := x) d
    exact ⟨fun _ => hmakes.run s,
      fun log => congrArg (Prod.map Reply.extraction id) (hmakes.log s log)⟩
  | extractAll ds =>
    have hmakes := Makes.tabulate Declaration.name (makes_extract (x := x)) [] ds
    exact ⟨fun _ => hmakes.run s,
      fun log => congrArg (Prod.map Reply.extractions id) (hmakes.log s log)⟩
  | clear => exact ⟨fun h => absurd rfl h, fun log => by simp [call, clear, served, State.withLog]⟩

/-- Calls without `clear` come to their requests. -/
theorem trace_run {calls : List Call} (h : .clear ∉ calls) (s : State σ) :
    x.Run s (x.trace calls s) (x.after calls s) := by
  induction calls generalizing s with
  | nil => exact .nil
  | cons c calls ih =>
    obtain ⟨hc, hcalls⟩ := List.ne_and_not_mem_of_not_mem_cons h
    exact ((call_makes c s).1 hc.symm).append (ih hcalls _)

/-- The scanner sees the scans of the requests and no others. -/
theorem after_logging (calls : List Call) (s : State σ) (log : List (ScanAnswer ε)) :
    x.logging.after calls (s.withLog log) =
      (x.after calls s).withLog (log ++ (x.trace calls s).flatMap Served.scans) := by
  induction calls generalizing s log with
  | nil => simp [after, trace]
  | cons c calls ih =>
    rw [after, after, trace, (call_makes c s).2, ih, List.flatMap_append, List.append_assoc]

theorem after_append (front back : List Call) (s : State σ) :
    x.after (front ++ back) s = x.after back (x.after front s) := by
  induction front generalizing s with
  | nil => rfl
  | cons c front ih => exact ih _

theorem trace_append (front back : List Call) (s : State σ) :
    x.trace (front ++ back) s = x.trace front s ++ x.trace back (x.after front s) := by
  induction front generalizing s with
  | nil => rfl
  | cons c front ih => rw [List.cons_append, trace, trace, after, ih, List.append_assoc]

theorem size_after_le {calls : List Call} (h : .clear ∉ calls) (s : State σ) :
    s.memory.size ≤ (x.after calls s).memory.size :=
  (trace_run h s).size_le

/-! ## What replies show -/

/-- A reply to a call shows a set as the annotations of a key. -/
inductive Shows : Call → Reply ε → Key → AnnotationSet → Prop where
  /-- The annotations of a declaration. -/
  | declaration {d : Declaration} {set : AnnotationSet} :
    Shows (.declaration d) (.set (.ok set)) (d.name, none) set
  /-- The annotations of a member. -/
  | member {d : Declaration} {m : Member} {set : AnnotationSet} :
    Shows (.member d m) (.set (.ok set)) (d.name, some m.name) set
  /-- The annotations in a row of an extraction. -/
  | extract {d : Declaration} {t : Extraction} {name : String} {set : AnnotationSet}
    (h : t.get? name = some set) :
    Shows (.extract d) (.extraction (.ok t)) (d.name, some name) set
  /-- The annotations in a row of one of several extractions. -/
  | extractAll {ds : List Declaration} {all : Table String Extraction} {owner name : String}
    {t : Extraction} {set : AnnotationSet} (h : all.get? owner = some t)
    (ht : t.get? name = some set) :
    Shows (.extractAll ds) (.extractions (.ok all)) (owner, some name) set

/-- Things of distinct names have a row each, in their order. -/
theorem keys_tabulate {name : α → String} {request : α → State σ → Answer σ β ε}
    {done t : Table String β} {things : List α} {s : State σ}
    (h : (tabulate name request done things s).1 = .ok t)
    (hdistinct : (done.keys ++ things.map name).Nodup) :
    t.keys = done.keys ++ things.map name := by
  induction things generalizing done s with
  | nil =>
    cases h
    rw [List.map_nil, List.append_nil]
  | cons a things ih =>
    rw [List.map_cons, List.append_cons] at hdistinct ⊢
    have hkeys (b : β) : (done.insert (name a) b).keys = done.keys ++ [name a] := by
      rw [Table.keys_insert, if_neg]
      intro ha
      have hfront := (List.nodup_append.1 hdistinct).1
      exact (List.nodup_append.1 hfront).2.2 _ ha _ List.mem_cons_self rfl
    rw [tabulate] at h
    rcases hr : request a s with ⟨answer, s'⟩
    rw [hr] at h
    cases answer with
    | error e => cases h
    | ok b =>
      rw [← hkeys b] at hdistinct ⊢
      exact ih h hdistinct

/-- A row of a table comes from one of the things, by the requests that were made for it. -/
theorem exists_of_get?_tabulate (name : α → String) {request : α → State σ → Answer σ β ε}
    (served : α → State σ → List (Served ε)) {done t : Table String β} {things : List α}
    {s : State σ} (h : (tabulate name request done things s).1 = .ok t) {key : String} {b : β}
    (hb : t.get? key = some b) :
    done.get? key = some b ∨ ∃ a ∈ things, ∃ s', name a = key ∧ (request a s').1 = .ok b ∧
      served a s' ⊆ servedAll request served things s := by
  induction things generalizing done s with
  | nil =>
    cases h
    exact .inl hb
  | cons a things ih =>
    rw [tabulate] at h
    rw [servedAll]
    rcases hr : request a s with ⟨answer, s'⟩
    rw [hr] at h
    cases answer with
    | error e => cases h
    | ok b' =>
      rcases ih h with hdone | ⟨a', ha', s'', hname, hrequest, hserved⟩
      · rw [Table.get?_insert] at hdone
        split at hdone
        · rename_i hname
          cases hdone
          refine .inr ⟨a, List.mem_cons_self, s, hname, by rw [hr], ?_⟩
          exact List.subset_append_left _ _
        · exact .inl hdone
      · refine .inr ⟨a', List.mem_cons_of_mem _ ha', s'', hname, hrequest, fun v hv => ?_⟩
        exact List.mem_append_right _ (hserved hv)

theorem exists_served_member {d : Declaration} {s : State σ} {t : Extraction}
    (h : (x.extract d s).1 = .ok t) {name : String} {set : AnnotationSet}
    (hset : t.get? name = some set) :
    ∃ v ∈ x.servedMembers d s, v.request.key = (d.name, some name) ∧ v.answer = .ok set := by
  obtain hnone | ⟨m, -, s', rfl, hrequest, hserved⟩ := exists_of_get?_tabulate Member.name
    (fun m s => [(x.serve (.member d m) s).1]) h hset
  · cases hnone
  · refine ⟨_, hserved (List.mem_singleton_self _), rfl, ?_⟩
    obtain ⟨-, hr, -⟩ := x.serve_serves (.member d m) s'
    rw [← hrequest]
    exact (congrArg Prod.fst hr).symm

/-- What a reply shows is the answer to a request that the call has made. -/
theorem exists_served {c : Call} {s : State σ} {key : Key} {set : AnnotationSet}
    (h : Shows c (x.call s c).1 key set) :
    ∃ v ∈ x.served s c, v.request.key = key ∧ v.answer = .ok set := by
  generalize hreply : (x.call s c).1 = reply at h
  cases h with
  | @declaration d set =>
    obtain ⟨-, hr, -⟩ := x.serve_serves (.declaration d) s
    refine ⟨_, List.mem_singleton_self _, rfl, ?_⟩
    rw [← Reply.set.inj hreply]
    exact (congrArg Prod.fst hr).symm
  | @member d m set =>
    obtain ⟨-, hr, -⟩ := x.serve_serves (.member d m) s
    refine ⟨_, List.mem_singleton_self _, rfl, ?_⟩
    rw [← Reply.set.inj hreply]
    exact (congrArg Prod.fst hr).symm
  | extract hset => exact exists_served_member (Reply.extraction.inj hreply) hset
  | @extractAll ds all owner name t set hall hset =>
    obtain hnone | ⟨d, -, s', rfl, hextract, hserved⟩ := exists_of_get?_tabulate Declaration.name
      x.servedMembers (Reply.extractions.inj hreply) hall
    · cases hnone
    · obtain ⟨v, hv, hkey, hanswer⟩ := exists_served_member hextract hset
      exact ⟨v, hserved hv, hkey, hanswer⟩

/-- **Answers are kept and scans are paid once.**  Calls begin on an empty memory and do not
clear it.  They come to the requests of their trace, which are all that the scanner sees and all
that the replies show.  The first answer for a key counts, and a request is scanned for exactly
if its key has not been answered before.  The memory never shrinks, and if no scan fails it has
one entry for each scan. -/
theorem trace_answers (x : Extractor σ ε) (s : State σ) {calls : List Call} (h : .clear ∉ calls) :
    (clear s).memory.size = 0 ∧
    x.logging.after calls ((clear s).withLog []) =
      (x.after calls (clear s)).withLog ((x.trace calls (clear s)).flatMap Served.scans) ∧
    (∀ front c back, calls = front ++ c :: back →
      x.trace calls (clear s) = x.trace front (clear s) ++
          x.served (x.after front (clear s)) c ++ x.trace back (x.after (front ++ [c]) (clear s)) ∧
        ∀ key set, Shows c (x.call (x.after front (clear s)) c).1 key set →
          ∃ v ∈ x.served (x.after front (clear s)) c, v.request.key = key ∧ v.answer = .ok set) ∧
    (x.trace calls (clear s)).Pairwise (fun u v => ∀ set, u.answer = .ok set →
      v.request.key = u.request.key → v.answer = .ok set ∧ v.scans = []) ∧
    (∀ front v back, x.trace calls (clear s) = front ++ v :: back →
      (v.scans = [] ↔ ∃ u ∈ front, u.answer.isOk = true ∧ v.request.key ∈ u.request.keys)) ∧
    (∀ front back, calls = front ++ back →
      (x.after front (clear s)).memory.size ≤ (x.after calls (clear s)).memory.size) ∧
    ((∀ answer ∈ (x.trace calls (clear s)).flatMap Served.scans, answer.isOk = true) →
      ((x.trace calls (clear s)).flatMap Served.scans).length =
        (x.after calls (clear s)).memory.size) := by
  have hrun := x.trace_run h (clear s)
  refine ⟨rfl, by simpa using after_logging calls (clear s) [], ?_, hrun.pairwise,
    fun front v back hserved => hrun.scans_eq_nil_iff rfl hserved, ?_, ?_⟩
  · rintro front c back rfl
    refine ⟨?_, fun key set hshows => exists_served hshows⟩
    rw [trace_append, trace, after_append, List.append_assoc]
    rfl
  · rintro front back rfl
    rw [after_append]
    exact size_after_le (fun hback => h (List.mem_append_right _ hback)) _
  · intro hscans
    rw [hrun.size_eq hscans]
    exact (Nat.zero_add _).symm

end Calls

/-- An extractor whose scanner answers with the number of the scan, whatever the comment. -/
def numbering : Extractor Nat where
  scanner _ n := (.ok [("N", [.int (Int64.ofNat n)])], n + 1)

/-- Calls that give the same names ever new comments. -/
def renamingCalls : List Call :=
  [.extract ⟨"A", "a", [⟨"m", "b"⟩, ⟨"n", "c"⟩, ⟨"m", "d"⟩]⟩, .declaration ⟨"A", "e", []⟩,
    .member ⟨"A", "f", []⟩ ⟨"n", "g"⟩]

theorem trace_renamingCalls :
    .clear ∉ renamingCalls ∧
      (∀ answer ∈ (numbering.trace renamingCalls (clear { scanner := 0 })).flatMap Served.scans,
        answer.isOk = true) ∧
      ((numbering.trace renamingCalls (clear { scanner := 0 })).flatMap Served.scans).length =
        (numbering.after renamingCalls (clear { scanner := 0 })).memory.size ∧
      (numbering.after renamingCalls (clear { scanner := 0 })).memory.size = 3 := by
  have hclear : .clear ∉ renamingCalls := by decide
  have hscans : ∀ answer ∈
      (numbering.trace renamingCalls (clear { scanner := 0 })).flatMap Served.scans,
      answer.isOk = true := by decide +kernel
  obtain ⟨-, -, -, -, -, -, hsize⟩ := numbering.trace_answers { scanner := 0 } hclear
  exact ⟨hclear, hscans, hsize hscans, by decide +kernel⟩

end Extractor

end DocFacts
