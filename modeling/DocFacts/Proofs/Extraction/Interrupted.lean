import Mathlib.Data.List.TakeWhile
import DocFacts.Proofs.Extraction.FirstComment

/-!
# Extractions that fail

The extraction of a declaration ends at the first member that fails.  The members in front of it
have been answered by then, and what has been answered stays remembered.  So a declaration that
fails leaves its first comments behind for the declarations that follow.

`Extractor.extract_outcome` says what a declaration comes to behind a history and which of its
requests go into the history.  A declaration that can be extracted by a new extractor can be
extracted behind every history, since first comments that are remembered have been scanned
(`Memory.Records.exists_outcome`).
-/

namespace DocFacts

namespace History

variable {ε : Type} (rules : Rules) (annotations : String → Except ε AnnotationSet)

/-- What a declaration comes to behind a history. -/
def outcome (history : History) (d : Declaration) : Except ε Extraction :=
  Direct.extract rules annotations (settle (history ++ d.requests) d)

/-- The requests of a declaration that are answered behind a history: those in front of the
first one that fails. -/
def answered (history : History) (d : Declaration) : History :=
  d.requests.takeWhile fun r => (answer rules annotations (history ++ d.requests) r).isOk

variable {rules annotations} {history : History} {d : Declaration}

theorem answered_prefix : answered rules annotations history d <+: d.requests :=
  List.takeWhile_prefix _

/-- A declaration that can be extracted has all of its requests answered. -/
theorem answered_of_outcome_eq_ok {extraction : Extraction}
    (h : outcome rules annotations history d = .ok extraction) :
    answered rules annotations history d = d.requests := by
  rw [outcome, extract_settle] at h
  rw [answered, List.takeWhile_eq_self_iff]
  intro r hr
  obtain ⟨m, hm, rfl⟩ := List.mem_map.1 hr
  obtain ⟨set, hset⟩ := Direct.exists_eq_ok_of_tabulate h m hm
  rw [hset]
  rfl

/-- If a request fails and those in front of it do not, those are the ones that are answered. -/
theorem answered_of_error {front back : List Member} {m : Member} {e : ε}
    (hmembers : d.members = front ++ m :: back)
    (hfront : ∀ m' ∈ front,
      (answer rules annotations (history ++ d.requests) (.member d m')).isOk = true)
    (hm : answer rules annotations (history ++ d.requests) (.member d m) = .error e) :
    answered rules annotations history d = front.map (.member d) := by
  have hrequests : d.requests = front.map (.member d) ++ .member d m :: back.map (.member d) := by
    rw [Declaration.requests, hmembers, List.map_append, List.map_cons]
  rw [answered]
  generalize history ++ d.requests = all at hfront hm ⊢
  rw [hrequests, List.takeWhile_append_of_pos, List.takeWhile_cons, hm]
  · simp [Except.isOk, Except.toBool]
  · intro r hr
    obtain ⟨m', hm', rfl⟩ := List.mem_map.1 hr
    exact hfront m' hm'

end History

namespace Extractor

variable {σ ε : Type} {x : Extractor σ ε} {annotations : String → Except ε AnnotationSet}

/-- **What a declaration comes to.**  It is answered with the first comments of its names.  The
requests in front of the first failure go into the history, whether or not there is one. -/
theorem extract_outcome (hx : x.Scans annotations) {history : History} {s : State σ}
    (hs : s.memory.Records x.rules annotations history) (d : Declaration) :
    (x.extract d s).1 = history.outcome x.rules annotations d ∧
      (x.extract d s).2.memory.Records x.rules annotations
        (history ++ history.answered x.rules annotations d) := by
  -- Behind some members these have been answered, and all of them with a result.
  let R (front : List Member) (s : State σ) : Prop :=
    s.memory.Records x.rules annotations (history ++ front.map (.member d)) ∧
      ∀ m ∈ front,
        ((history ++ d.requests).answer x.rules annotations (.member d m)).isOk = true
  let E (s : State σ) : Prop :=
    s.memory.Records x.rules annotations (history ++ history.answered x.rules annotations d)
  have hstep : AnswersAs (x.member d)
      (fun m => (history ++ d.requests).answer x.rules annotations (.member d m)) R E
      d.members := by
    intro front m back s hmembers hR
    obtain ⟨hrecords, hfront⟩ := hR
    have hanswer :
        History.answer x.rules annotations (history ++ front.map (.member d)) (.member d m) =
          (history ++ d.requests).answer x.rules annotations (.member d m) := by
      rw [Declaration.requests, hmembers, List.map_append, List.map_cons,
        ← History.answer_append_cons _ _ _ (back.map (.member d))]
      simp
    obtain ⟨hrequest, hafter⟩ := request_spec hx hrecords (.member d m)
    rw [hanswer] at hrequest hafter
    refine ⟨hrequest, ?_⟩
    simp only
    cases hm : (history ++ d.requests).answer x.rules annotations (.member d m) with
    | error e =>
      rw [hm, ends_error] at hafter
      rw [ends_error]
      change Memory.Records _ _ _ _
      rw [History.answered_of_error hmembers hfront hm]
      exact hafter ▸ hrecords
    | ok set =>
      rw [hm, ends_ok] at hafter
      rw [ends_ok]
      refine ⟨by simpa [request] using hafter, fun m' hm' => ?_⟩
      rcases List.mem_append.1 hm' with hold | hnew
      · exact hfront m' hold
      · rw [List.mem_singleton.1 hnew, hm]
        rfl
  obtain ⟨hanswer, hafter⟩ :=
    tabulate_run Member.name hstep (s := s) ⟨by simpa using hs, by simp⟩
  rw [History.outcome, History.extract_settle]
  refine ⟨hanswer, ?_⟩
  cases hall : Direct.tabulate Member.name
      (fun m => (history ++ d.requests).answer x.rules annotations (.member d m)) d.members with
  | error e =>
    rw [hall] at hafter
    exact hafter
  | ok t =>
    rw [hall] at hafter
    have hok : history.outcome x.rules annotations d = .ok t := by
      rw [History.outcome, History.extract_settle, hall]
    rw [History.answered_of_outcome_eq_ok hok]
    exact hafter.1

end Extractor

namespace Memory.Records

variable {ε : Type} {rules : Rules} {annotations : String → Except ε AnnotationSet}
  {history more : History} {memory : Memory} {d : Declaration}

/-- The first comment of a declaration has been scanned, unless the name is new. -/
theorem exists_base (h : Records rules annotations history memory)
    (hmore : ∃ set, annotations (more.base d) = .ok set) :
    ∃ set, annotations (History.base (history ++ more) d) = .ok set := by
  have hd := h.declaration d.name
  rw [History.base, History.owner?_append]
  generalize history.owner? d.name = first, memory.declarations.get? d.name = kept at hd ⊢
  cases hd with
  | none => exact hmore
  | some hset => exact ⟨_, hset⟩

/-- The first comment of a member has been scanned, unless its names are new. -/
theorem exists_own (h : Records rules annotations history memory) {m : Member}
    (hmore : ∃ set, annotations (more.own d m) = .ok set) :
    ∃ set, annotations (History.own (history ++ more) d m) = .ok set := by
  have hm := h.member (d.name, m.name)
  rw [History.own, History.member?_append]
  generalize history.member? (d.name, m.name) = first,
    memory.members.get? (d.name, m.name) = kept at hm ⊢
  cases hm with
  | none => exact hmore
  | some hset =>
    obtain ⟨own, -, hown, -⟩ := hset
    exact ⟨own, hown⟩

/-- A declaration that a new extractor can extract can be extracted behind every history. -/
theorem exists_outcome (h : Records rules annotations history memory) {extraction : Extraction}
    (halone : History.outcome rules annotations [] d = .ok extraction) :
    ∃ extraction, history.outcome rules annotations d = .ok extraction := by
  rw [History.outcome, History.extract_settle] at halone
  rw [History.outcome, History.extract_settle]
  refine Direct.exists_tabulate_eq_ok _ fun m hm => ?_
  obtain ⟨set, hset⟩ := Direct.exists_eq_ok_of_tabulate halone m hm
  obtain ⟨own, base, hown, hbase, -⟩ := Direct.consolidated_eq_ok_iff.1 hset
  obtain ⟨own', hown'⟩ := h.exists_own ⟨own, hown⟩
  obtain ⟨base', hbase'⟩ := h.exists_base ⟨base, hbase⟩
  exact ⟨_, Direct.consolidated_eq_ok_iff.2 ⟨own', base', hown', hbase', rfl⟩⟩

end Memory.Records

end DocFacts
