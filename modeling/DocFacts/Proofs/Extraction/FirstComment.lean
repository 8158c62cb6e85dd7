import DocFacts.Proofs.Extraction.Session

/-!
# The first comment counts

When declarations or members of one name come with different comments, an extractor goes by the
first comment and never looks at the others.  `History.settle` puts the first comments into a
declaration.  A new extractor then answers, up to the first failure, as one without a memory
would answer for the settled declarations (`Extractor.extractAll_eq`).
-/

namespace DocFacts

namespace History

/-- A declaration with the comments that stand for its names. -/
def settle (history : History) (d : Declaration) : Declaration where
  name := d.name
  comment := history.base d
  members := d.members.map fun m => { m with comment := history.own d m }

@[simp] theorem name_settle (history : History) (d : Declaration) :
    (history.settle d).name = d.name := rfl

/-- What a declaration requests does not change which comments stand for its names. -/
theorem answer_append_cons {ε : Type} (rules : Rules)
    (annotations : String → Except ε AnnotationSet) (history more : History) (d : Declaration) (m : Member) :
    answer rules annotations (history ++ .member d m :: more) (.member d m) =
      answer rules annotations history (.member d m) := by
  have hbase := base_append_cons history more (.member d m)
  simp only [Request.owner] at hbase
  rw [answer, answer, own_append_cons, hbase]

/-- The members of a settled declaration, one by one. -/
theorem extract_settle {ε : Type} (rules : Rules) (annotations : String → Except ε AnnotationSet)
    (history : History) (d : Declaration) :
    Direct.extract rules annotations (history.settle d) =
      Direct.tabulate Member.name (fun m => history.answer rules annotations (.member d m))
        d.members := by
  rw [Direct.extract, Direct.tabulate, Direct.tabulate, Direct.rows, Direct.rows, settle,
    List.mapM_map]
  rfl

/-- In a settled declaration the same names come with the same comments. -/
theorem coherent_settle {history : History} {d : Declaration} (hd : d.requests ⊆ history) :
    Coherent (history.settle d).requests where
  declaration r hr r' hr' _ := by
    obtain ⟨m, -, rfl⟩ := List.mem_map.1 hr
    obtain ⟨m', -, rfl⟩ := List.mem_map.1 hr'
    rfl
  member dm hdm dm' hdm' hnames := by
    -- Both come from members of `d`, and the first request for them has been made.
    have hfrom : ∀ dm ∈ (history.settle d).requests.filterMap Request.member?, ∃ m ∈ d.members,
        dm = (history.settle d, { m with comment := history.own d m }) := by
      intro dm hdm
      obtain ⟨r, hr, hrdm⟩ := List.mem_filterMap.1 hdm
      obtain ⟨m', hm', rfl⟩ := List.mem_map.1 hr
      obtain ⟨m, hm, rfl⟩ := List.mem_map.1 hm'
      exact ⟨m, hm, (Option.some.inj hrdm).symm⟩
    obtain ⟨m, hm, rfl⟩ := hfrom dm hdm
    obtain ⟨m', hm', rfl⟩ := hfrom dm' hdm'
    obtain ⟨-, hname⟩ := Prod.mk.inj hnames
    simp only at hname
    obtain ⟨b, m₀, hfirst⟩ := exists_member? (hd (List.mem_map_of_mem hm))
    simp only [own]
    rw [← hname, hfirst]
    rfl

end History

namespace Extractor

variable {σ ε : Type} {x : Extractor σ ε} {annotations : String → Except ε AnnotationSet}

/-- A declaration is answered with the first comments of its names. -/
theorem extract_spec (hx : x.Scans annotations) {front more all : History} {d : Declaration}
    {s : State σ} (hall : all = front ++ (d.requests ++ more))
    (hs : s.memory.Records x.rules annotations front) :
    (x.extract d s).1 = Direct.extract x.rules annotations (all.settle d) ∧
      Ends (Direct.extract x.rules annotations (all.settle d))
        (fun _ => (x.extract d s).2.memory.Records x.rules annotations (front ++ d.requests))
        True := by
  rw [History.extract_settle]
  have hmembers : AnswersAs (x.member d) (fun m => all.answer x.rules annotations (.member d m))
      (fun ms s => s.memory.Records x.rules annotations (front ++ ms.map (.member d)))
      (fun _ => True) d.members := by
    intro ms m ms' s hmembers hs
    have hanswer : History.answer x.rules annotations (front ++ ms.map (.member d)) (.member d m) =
        all.answer x.rules annotations (.member d m) := by
      rw [hall, Declaration.requests, hmembers, List.map_append, List.map_cons,
        ← History.answer_append_cons _ _ _ (ms'.map (.member d) ++ more)]
      simp
    obtain ⟨hrequest, hafter⟩ := request_spec hx hs (.member d m)
    rw [hanswer] at hrequest hafter
    exact ⟨hrequest, hafter.imp (fun _ h => by simpa [request] using h) fun _ => trivial⟩
  exact tabulate_run Member.name hmembers (by simpa using hs)

/-- A new extractor answers for several declarations as one without a memory does for the same
declarations with the first comments of their names. -/
theorem extractAll_eq (hx : x.Scans annotations) (ds : List Declaration) (t : σ) :
    (x.extractAll ds { scanner := t }).1 =
      Direct.tabulate Declaration.name
        (fun d => Direct.extract x.rules annotations
          (History.settle (ds.flatMap Declaration.requests) d)) ds := by
  have hds : AnswersAs x.extract
      (fun d => Direct.extract x.rules annotations
        (History.settle (ds.flatMap Declaration.requests) d))
      (fun front s => s.memory.Records x.rules annotations (front.flatMap Declaration.requests))
      (fun _ => True) ds := by
    intro front d back s hds hs
    have hall : ds.flatMap Declaration.requests = front.flatMap Declaration.requests ++
        (d.requests ++ back.flatMap Declaration.requests) := by simp [hds]
    obtain ⟨hanswer, hafter⟩ := extract_spec hx hall hs
    exact ⟨hanswer, hafter.imp (fun _ h => by simpa using h) id⟩
  exact (tabulate_run Declaration.name hds .nil).1

/-- In a declaration where the same names come with the same comments, a new extractor goes by
these comments. -/
theorem extract_eq_of_coherent (hx : x.Scans annotations) {d : Declaration}
    (hd : Coherent d.requests) (t : σ) :
    (x.extract d { scanner := t }).1 = Direct.extract x.rules annotations d :=
  (Kept.extract hx hd (List.Subset.refl _) (kept_nil rfl)).1

end Extractor

end DocFacts
