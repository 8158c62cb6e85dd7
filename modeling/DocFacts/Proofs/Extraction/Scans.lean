import DocFacts.Proofs.Extraction.Keys

/-!
# When an extractor scans

A scanner may answer one comment in many ways, and names may come with ever new comments.  Still
an extractor keeps to its first answer for a key and scans no more for it.

`Extractor.request_serves` says what one request can do.  Either it is remembered and nothing is
scanned, or a scan fails and nothing is remembered, or each scan adds one entry
(`Memory.Filled`).  What a run of requests keeps follows from that by induction
(`Extractor.Run`).  What a scanner is given is seen by one that keeps a log, which changes no
answer.
-/

namespace DocFacts

/-- A scanner that also keeps a log of its answers. -/
def Scanner.logging {σ ε : Type} (scanner : Scanner σ ε) : Scanner (σ × List (ScanAnswer ε)) ε :=
  fun comment (s, log) =>
    let (answer, s) := scanner comment s
    (answer, s, log ++ [answer])

namespace Extractor

variable {σ ε : Type}

/-! ## What one request can do -/

/-- The extractor with a scanner that keeps a log. -/
def logging (x : Extractor σ ε) : Extractor (σ × List (ScanAnswer ε)) ε where
  scanner := x.scanner.logging
  rules := x.rules

/-- The state with a log beside that of the scanner. -/
def State.withLog (s : State σ) (log : List (ScanAnswer ε)) : State (σ × List (ScanAnswer ε)) where
  memory := s.memory
  scanner := (s.scanner, log)

/-- What a request can do: its answer, the answers of the scanner meanwhile, and the state behind
it. -/
inductive Serves (rules : Rules) (s : State σ) (r : Request) :
    ScanAnswer ε → List (ScanAnswer ε) → State σ → Prop where
  /-- What is remembered is answered without a scan. -/
  | remembered {set : AnnotationSet} (h : s.memory.lookup r.key = some set) :
    Serves rules s r (.ok set) [] s
  /-- A scan fails, and nothing is remembered. -/
  | failed {e : ε} {scans : List (ScanAnswer ε)} {t : σ}
    (h : s.memory.lookup r.key = none) (hscans : ∃ answer ∈ scans, answer.isOk = false) :
    Serves rules s r (.error e) scans { s with scanner := t }
  /-- No scan fails, and each adds an entry. -/
  | filled {set : AnnotationSet} {scans : List (ScanAnswer ε)} {memory : Memory} {t : σ}
    (h : s.memory.lookup r.key = none) (hfilled : s.memory.Filled rules r set scans memory) :
    Serves rules s r (.ok set) scans { memory := memory, scanner := t }

theorem scan_logging (x : Extractor σ ε) (comment : String) (s : State σ)
    (log : List (ScanAnswer ε)) :
    x.logging.scan comment (s.withLog log) =
      ((x.scan comment s).1, (x.scan comment s).2.withLog (log ++ [(x.scan comment s).1])) := rfl

theorem exists_scan_eq (x : Extractor σ ε) (comment : String) (s : State σ) :
    ∃ answer t, x.scan comment s = (answer, { s with scanner := t }) := ⟨_, _, rfl⟩

theorem declaration_serves (x : Extractor σ ε) (d : Declaration) (s : State σ) :
    ∃ answer scans s', Serves x.rules s (.declaration d) answer scans s' ∧
      x.declaration d s = (answer, s') ∧
      ∀ log, x.logging.declaration d (s.withLog log) = (answer, s'.withLog (log ++ scans)) := by
  cases hget : s.memory.declarations.get? d.name with
  | some set =>
    refine ⟨.ok set, [], s, .remembered hget, by rw [declaration, hget], fun log => ?_⟩
    rw [declaration, show (s.withLog log).memory.declarations.get? d.name = some set from hget,
      List.append_nil]
  | none =>
    have hlog (log : List (ScanAnswer ε)) :
        (s.withLog log).memory.declarations.get? d.name = none := hget
    obtain ⟨answer, t, hscan⟩ := x.exists_scan_eq d.comment s
    cases answer with
    | error e =>
      refine ⟨.error e, [.error e], _, .failed (t := t) hget ⟨_, List.mem_singleton_self _, rfl⟩,
        by simp only [declaration, hget, hscan], fun log => ?_⟩
      simp only [declaration, hlog, scan_logging, hscan]
    | ok set =>
      refine ⟨.ok set, [.ok set], _, .filled (t := t) hget .declaration,
        by simp only [declaration, hget, hscan], fun log => ?_⟩
      simp only [declaration, hlog, scan_logging, hscan]
      rfl

theorem member_serves (x : Extractor σ ε) (d : Declaration) (m : Member) (s : State σ) :
    ∃ answer scans s', Serves x.rules s (.member d m) answer scans s' ∧
      x.member d m s = (answer, s') ∧
      ∀ log, x.logging.member d m (s.withLog log) = (answer, s'.withLog (log ++ scans)) := by
  cases hget : s.memory.members.get? (d.name, m.name) with
  | some set =>
    refine ⟨.ok set, [], s, .remembered hget, by rw [member, hget], fun log => ?_⟩
    rw [member, show (s.withLog log).memory.members.get? (d.name, m.name) = some set from hget,
      List.append_nil]
  | none =>
    have hlog (log : List (ScanAnswer ε)) :
        (s.withLog log).memory.members.get? (d.name, m.name) = none := hget
    obtain ⟨answer, t, hscan⟩ := x.exists_scan_eq m.comment s
    cases answer with
    | error e =>
      refine ⟨.error e, [.error e], _, .failed (t := t) hget ⟨_, List.mem_singleton_self _, rfl⟩,
        by simp only [member, hget, hscan], fun log => ?_⟩
      simp only [member, hlog, scan_logging, hscan]
    | ok own =>
      obtain ⟨base, scans, s', hserves, hbase, hbaseLog⟩ :=
        x.declaration_serves d { s with scanner := t }
      cases hserves with
      | @remembered base h =>
        refine ⟨.ok (consolidate x.rules own base), [.ok own], _,
          .filled (t := t) hget (.member h),
          by simp only [member, hget, hscan, hbase], fun log => ?_⟩
        simp only [member, hlog, scan_logging, hscan, hbaseLog, List.append_nil]
        rfl
      | @failed e scans u h hscans =>
        obtain ⟨answer, hanswer, herror⟩ := hscans
        refine ⟨.error e, .ok own :: scans, _,
          .failed (t := u) hget ⟨answer, List.mem_cons_of_mem _ hanswer, herror⟩,
          by simp only [member, hget, hscan, hbase], fun log => ?_⟩
        simp only [member, hlog, scan_logging, hscan, hbaseLog, List.append_assoc,
          List.singleton_append]
      | @filled base scans memory u h hfilled =>
        cases hfilled with
        | declaration =>
          refine ⟨.ok (consolidate x.rules own base), [.ok own, .ok base], _,
            .filled (t := u) hget (.both h),
            by simp only [member, hget, hscan, hbase], fun log => ?_⟩
          simp only [member, hlog, scan_logging, hscan, hbaseLog, List.append_assoc,
            List.singleton_append]
          rfl

/-- **What one request can do.**  A scanner that keeps a log changes nothing of it. -/
theorem request_serves (x : Extractor σ ε) (r : Request) (s : State σ) :
    ∃ answer scans s', Serves x.rules s r answer scans s' ∧ x.request r s = (answer, s') ∧
      ∀ log, x.logging.request r (s.withLog log) = (answer, s'.withLog (log ++ scans)) := by
  cases r with
  | declaration d => exact x.declaration_serves d s
  | member d m => exact x.member_serves d m s

namespace Serves

variable {rules : Rules} {s s' : State σ} {r : Request} {answer : ScanAnswer ε}
  {scans : List (ScanAnswer ε)}

theorem grows (h : Serves rules s r answer scans s') : s.memory.Grows s'.memory := by
  cases h with
  | remembered hset => exact .refl _
  | failed hnew hscans => exact .refl _
  | filled hnew hfilled => exact hfilled.grows hnew

theorem rooted (h : Serves rules s r answer scans s') (hs : s.memory.Rooted) :
    s'.memory.Rooted := by
  cases h with
  | remembered hset => exact hs
  | failed hnew hscans => exact hs
  | filled hnew hfilled => exact hfilled.rooted hs

/-- What is remembered is the answer, and nothing is scanned for it. -/
theorem of_lookup (h : Serves rules s r answer scans s') {set : AnnotationSet}
    (hset : s.memory.lookup r.key = some set) : answer = .ok set ∧ scans = [] := by
  cases h with
  | remembered hset' => exact ⟨congrArg _ (Option.some.inj (hset'.symm.trans hset)), rfl⟩
  | failed hnew hscans => exact absurd (hnew.symm.trans hset) nofun
  | filled hnew hfilled => exact absurd (hnew.symm.trans hset) nofun

theorem scans_eq_nil_iff (h : Serves rules s r answer scans s') :
    scans = [] ↔ s.memory.lookup r.key ≠ none := by
  cases h with
  | remembered hset => simp [hset]
  | failed hnew hscans =>
    obtain ⟨answer, hanswer, -⟩ := hscans
    simp [hnew, List.ne_nil_of_mem hanswer]
  | filled hnew hfilled => simp [hnew, hfilled.scans_ne_nil]

/-- An answer is remembered. -/
theorem lookup_of_ok {set : AnnotationSet} (h : Serves rules s r (.ok set) scans s') :
    s'.memory.lookup r.key = some set := by
  cases h with
  | remembered hset => exact hset
  | filled hnew hfilled => exact hfilled.lookup_key

theorem lookup_ne_none_iff (h : Serves rules s r answer scans s') (hs : s.memory.Rooted)
    (key : Key) : s'.memory.lookup key ≠ none ↔
      s.memory.lookup key ≠ none ∨ (answer.isOk = true ∧ key ∈ r.keys) := by
  cases h with
  | remembered hset =>
    have hr : s.memory.lookup r.key ≠ none := by simp [hset]
    exact ⟨.inl, fun h => h.elim id fun hkey => hs.lookup_of_mem_keys hr hkey.2⟩
  | failed hnew hscans =>
    exact ⟨.inl, fun h => h.elim id fun hkey =>
      absurd hkey.1 (by simp [Except.isOk, Except.toBool])⟩
  | filled hnew hfilled =>
    rw [hfilled.lookup_ne_none_iff]
    simp [Except.isOk, Except.toBool]

theorem size_le (h : Serves rules s r answer scans s') : s.memory.size ≤ s'.memory.size := by
  cases h with
  | remembered hset => exact Nat.le_refl _
  | failed hnew hscans => exact Nat.le_refl _
  | filled hnew hfilled =>
    rw [hfilled.size_eq hnew]
    exact Nat.le_add_right _ _

/-- If no scan fails, each adds an entry. -/
theorem size_eq (h : Serves rules s r answer scans s')
    (hscans : ∀ answer ∈ scans, answer.isOk = true) :
    s'.memory.size = s.memory.size + scans.length := by
  cases h with
  | remembered hset => rfl
  | failed hnew herror =>
    obtain ⟨answer, hanswer, herror⟩ := herror
    rw [hscans answer hanswer] at herror
    cases herror
  | filled hnew hfilled => exact hfilled.size_eq hnew

end Serves

end Extractor

/-! ## Runs of requests -/

/-- A request that has been made. -/
structure Served (ε : Type) where
  /-- The request. -/
  request : Request
  /-- Its answer. -/
  answer : ScanAnswer ε
  /-- What the scanner has answered meanwhile. -/
  scans : List (ScanAnswer ε)

namespace Extractor

variable {σ ε : Type}

/-- Make a request, and note what the scanner answers meanwhile. -/
def serve (x : Extractor σ ε) (r : Request) (s : State σ) : Served ε × State σ :=
  match x.logging.request r (s.withLog []) with
  | (answer, s') => (⟨r, answer, s'.scanner.2⟩, { memory := s'.memory, scanner := s'.scanner.1 })

theorem serve_serves (x : Extractor σ ε) (r : Request) (s : State σ) :
    Serves x.rules s r (x.serve r s).1.answer (x.serve r s).1.scans (x.serve r s).2 ∧
      x.request r s = ((x.serve r s).1.answer, (x.serve r s).2) ∧
      ∀ log, x.logging.request r (s.withLog log) =
        ((x.serve r s).1.answer, (x.serve r s).2.withLog (log ++ (x.serve r s).1.scans)) := by
  obtain ⟨answer, scans, s', hserves, hrequest, hlog⟩ := x.request_serves r s
  have hserve : x.serve r s = (⟨r, answer, scans⟩, s') := by
    rw [serve, hlog []]
    rfl
  rw [hserve]
  exact ⟨hserves, hrequest, hlog⟩

@[simp] theorem request_serve (x : Extractor σ ε) (r : Request) (s : State σ) :
    (x.serve r s).1.request = r := rfl

/-- Requests that are made one after the other. -/
inductive Run (x : Extractor σ ε) : State σ → List (Served ε) → State σ → Prop where
  /-- No request. -/
  | nil {s : State σ} : Run x s [] s
  /-- A request and the others behind it. -/
  | cons {r : Request} {s s' : State σ} {later : List (Served ε)}
    (h : Run x (x.serve r s).2 later s') : Run x s ((x.serve r s).1 :: later) s'

namespace Run

variable {x : Extractor σ ε} {s s' : State σ} {served : List (Served ε)}

theorem single (x : Extractor σ ε) (r : Request) (s : State σ) :
    x.Run s [(x.serve r s).1] (x.serve r s).2 := .cons .nil

theorem append {s'' : State σ} {later : List (Served ε)} (h : x.Run s served s')
    (h' : x.Run s' later s'') : x.Run s (served ++ later) s'' := by
  induction h with
  | nil => exact h'
  | cons _ ih => exact .cons (ih h')

theorem of_append {later : List (Served ε)} (h : x.Run s (served ++ later) s') :
    ∃ t, x.Run s served t ∧ x.Run t later s' := by
  induction served generalizing s with
  | nil => exact ⟨s, .nil, h⟩
  | cons v served ih =>
    cases h with
    | cons h =>
      obtain ⟨t, hfront, hback⟩ := ih h
      exact ⟨t, .cons hfront, hback⟩

/-- What is remembered stays remembered. -/
theorem grows (h : x.Run s served s') : s.memory.Grows s'.memory := by
  induction h with
  | nil => exact .refl _
  | @cons r s s' later _ ih => exact (x.serve_serves r s).1.grows.trans ih

theorem size_le (h : x.Run s served s') : s.memory.size ≤ s'.memory.size := by
  induction h with
  | nil => exact Nat.le_refl _
  | @cons r s s' later _ ih => exact Nat.le_trans (x.serve_serves r s).1.size_le ih

/-- If no scan fails, each adds an entry. -/
theorem size_eq (h : x.Run s served s')
    (hscans : ∀ answer ∈ served.flatMap Served.scans, answer.isOk = true) :
    s'.memory.size = s.memory.size + (served.flatMap Served.scans).length := by
  induction h with
  | nil => rfl
  | @cons r s s' later _ ih =>
    rw [List.flatMap_cons] at hscans ⊢
    obtain ⟨hnow, hlater⟩ := List.forall_mem_append.1 hscans
    rw [ih hlater, (x.serve_serves r s).1.size_eq hnow, List.length_append, Nat.add_assoc]

/-- What is remembered when a run begins is answered without a scan all along. -/
theorem answers_of_lookup (h : x.Run s served s') {key : Key} {set : AnnotationSet}
    (hset : s.memory.lookup key = some set) :
    ∀ v ∈ served, v.request.key = key → v.answer = .ok set ∧ v.scans = [] := by
  induction h with
  | nil => simp
  | @cons r s s' later _ ih =>
    obtain ⟨hserves, -, -⟩ := x.serve_serves r s
    refine List.forall_mem_cons.2 ⟨?_, ih (hserves.grows key set hset)⟩
    rintro rfl
    exact hserves.of_lookup hset

/-- **The first answer counts.**  Once a key has been answered, later requests for it get the
same answer without a scan. -/
theorem pairwise (h : x.Run s served s') :
    served.Pairwise fun u v => ∀ set, u.answer = .ok set → v.request.key = u.request.key →
      v.answer = .ok set ∧ v.scans = [] := by
  induction h with
  | nil => exact .nil
  | @cons r s s' later hrun ih =>
    obtain ⟨hserves, -, -⟩ := x.serve_serves r s
    refine List.pairwise_cons.2 ⟨fun v hv set hanswer hkey => ?_, ih⟩
    rw [hanswer] at hserves
    exact hrun.answers_of_lookup hserves.lookup_of_ok v hv hkey

/-- What is remembered behind a run has been there or has been answered on it. -/
theorem lookup_ne_none_iff (h : x.Run s served s') (hs : s.memory.Rooted) (key : Key) :
    s'.memory.lookup key ≠ none ↔ s.memory.lookup key ≠ none ∨
      ∃ v ∈ served, v.answer.isOk = true ∧ key ∈ v.request.keys := by
  induction h with
  | nil => simp
  | @cons r s s' later hrun ih =>
    obtain ⟨hserves, -, -⟩ := x.serve_serves r s
    rw [ih (hserves.rooted hs), hserves.lookup_ne_none_iff hs, or_assoc]
    simp

/-- **What is scanned.**  From an empty memory on, a request is scanned for unless its key has
been answered. -/
theorem scans_eq_nil_iff (h : x.Run s served s') (hs : s.memory = {}) {front back : List (Served ε)}
    {v : Served ε} (hserved : served = front ++ v :: back) :
    v.scans = [] ↔ ∃ u ∈ front, u.answer.isOk = true ∧ v.request.key ∈ u.request.keys := by
  subst hserved
  obtain ⟨t, hfront, hback⟩ := h.of_append
  cases hback with
  | @cons r _ _ _ hback =>
    have hrooted : s.memory.Rooted := hs ▸ .empty
    obtain ⟨hserves, -, -⟩ := x.serve_serves r t
    rw [hserves.scans_eq_nil_iff, hfront.lookup_ne_none_iff hrooted, hs]
    exact or_iff_right fun h => h (Memory.lookup_empty _)

end Run

end Extractor

end DocFacts
