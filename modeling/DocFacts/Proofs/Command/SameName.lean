import DocFacts.Command.Run
import DocFacts.Proofs.Extraction.FirstComment

/-!
# Declarations of one name

Nothing keeps the inputs of the command from declaring one name twice.  The output then has one
entry for the name, that of its last declaration.  But the extractor goes by the first comments
of the name and of its members, so the entry is that of the last declaration with the first
comments put in (`get?_extractDeclarations_iff`).  It may be the entry of none of the
declarations: `mixed_sameName` is a run where it is not, and
`extractDeclarations_unmixed_iff` says exactly when it is.
-/

namespace DocFacts.Command

instance : DecidableEq Extraction := inferInstanceAs (DecidableEq (Table String AnnotationSet))

variable {rules : Rules} {ds : List Declaration} {out : Table String Extraction}

/-- The scanner of the command goes by the comment alone. -/
theorem scans_plain (rules : Rules) :
    Extractor.Scans { scanner := Scanner.plain, rules := rules } scan := fun _ _ => rfl

/-- What a new extractor answers for a declaration alone. -/
def alone (rules : Rules) (d : Declaration) : Except ScanError Extraction :=
  (Extractor.extract { scanner := Scanner.plain, rules := rules } d { scanner := () }).1

/-- A declaration with the first comments that the given declarations have for its name and
those of its members. -/
def settled (ds : List Declaration) (d : Declaration) : Declaration :=
  History.settle (ds.flatMap Declaration.requests) d

/-- Every entry of the output is that of one of the declarations of its name. -/
def Unmixed (rules : Rules) (ds : List Declaration) (out : Table String Extraction) : Prop :=
  ∀ name entry, out.get? name = some entry →
    ∃ d ∈ ds, d.name = name ∧ alone rules d = .ok entry

/-- A run that leaves nothing out fills the table of the extractor. -/
theorem extractFrom_eq_ok_iff {x : Extractor Unit} {s : Extractor.State Unit}
    {done : Table String Extraction} :
    (extractFrom x false s done ds).2 = .ok out ↔
      (Extractor.tabulate Declaration.name x.extract done ds s).1 = .ok out := by
  induction ds generalizing s done with
  | nil => simp [extractFrom, Extractor.tabulate]
  | cons d ds ih =>
    rw [extractFrom, Extractor.tabulate]
    rcases x.extract d s with ⟨answer, s'⟩
    cases answer with
    | error e => simp
    | ok extraction => exact ih

/-- The output is the table of the declarations with the first comments put in. -/
theorem extractDeclarations_eq_ok_iff :
    (extractDeclarations rules false ds).2 = .ok out ↔
      Direct.tabulate Declaration.name (fun d => Direct.extract rules scan (settled ds d)) ds =
        .ok out := by
  have hall := Extractor.extractAll_eq (scans_plain rules) ds ()
  rw [Extractor.extractAll] at hall
  rw [extractDeclarations, extractFrom_eq_ok_iff, hall]
  rfl

/-- Alone, a declaration with the first comments put in is answered by these comments. -/
theorem alone_settled {d : Declaration} (hd : d ∈ ds) :
    alone rules (settled ds d) = Direct.extract rules scan (settled ds d) := by
  have hrequests : d.requests ⊆ ds.flatMap Declaration.requests := fun r hr =>
    List.mem_flatMap.2 ⟨d, hd, hr⟩
  exact Extractor.extract_eq_of_coherent (scans_plain rules) (History.coherent_settle hrequests) ()

theorem mem_of_isLast {d : Declaration} (h : Direct.IsLast Declaration.name ds d) : d ∈ ds := by
  obtain ⟨front, back, rfl, -⟩ := h
  simp

/-- The entry of a name is that of its last declaration with the first comments put in. -/
theorem get?_extractDeclarations_iff (h : (extractDeclarations rules false ds).2 = .ok out)
    {name : String} {entry : Extraction} :
    out.get? name = some entry ↔
      ∃ d, Direct.IsLast Declaration.name ds d ∧ d.name = name ∧
        alone rules (settled ds d) = .ok entry := by
  rw [Direct.get?_tabulate_iff (extractDeclarations_eq_ok_iff.1 h)]
  refine exists_congr fun d => and_congr_right fun hd => ?_
  rw [alone_settled (mem_of_isLast hd)]

/-- In a run that succeeds, each declaration with the first comments put in has an entry. -/
theorem exists_alone_settled (h : (extractDeclarations rules false ds).2 = .ok out)
    {d : Declaration} (hd : d ∈ ds) : ∃ entry, alone rules (settled ds d) = .ok entry := by
  rw [alone_settled hd]
  exact Direct.exists_eq_ok_of_tabulate (extractDeclarations_eq_ok_iff.1 h) d hd

/-- If the same names always come with the same comments, no entry is mixed. -/
theorem unmixed_of_coherent (h : (extractDeclarations rules false ds).2 = .ok out)
    (hds : Coherent (ds.flatMap Declaration.requests)) : Unmixed rules ds out := by
  intro name entry hentry
  obtain ⟨d, hlast, hname, halone⟩ := (get?_extractDeclarations_iff h).1 hentry
  refine ⟨d, mem_of_isLast hlast, hname, ?_⟩
  rw [alone_settled (mem_of_isLast hlast)] at halone
  have hrequests : d.requests ⊆ ds.flatMap Declaration.requests := fun r hr =>
    List.mem_flatMap.2 ⟨d, mem_of_isLast hlast, hr⟩
  rw [alone, Extractor.extract_eq_of_coherent (scans_plain rules) (hds.mono hrequests), ← halone,
    settled, History.extract_settle]
  -- Member by member, the comments that stand for the names are the declaration's own.
  exact Direct.tabulate_congr fun m hm =>
    (hds.answer_eq (List.Subset.refl _) (hrequests (List.mem_map_of_mem hm))).symm

/-- **When declarations are mixed.**  In a run that succeeds the entry of a name is that of its
last declaration with the first comments put in.  So the entries are those of single
declarations exactly when for each name one of its declarations alone comes to the same. -/
theorem extractDeclarations_unmixed_iff (h : (extractDeclarations rules false ds).2 = .ok out) :
    (∀ name entry, out.get? name = some entry ↔
      ∃ d, Direct.IsLast Declaration.name ds d ∧ d.name = name ∧
        alone rules (settled ds d) = .ok entry) ∧
    (Unmixed rules ds out ↔
      ∀ d, Direct.IsLast Declaration.name ds d →
        ∃ d' ∈ ds, d'.name = d.name ∧ alone rules d' = alone rules (settled ds d)) := by
  refine ⟨fun name entry => get?_extractDeclarations_iff h, fun hunmixed d hd => ?_, ?_⟩
  · obtain ⟨entry, hentry⟩ := exists_alone_settled h (mem_of_isLast hd)
    obtain ⟨d', hd', hname, halone⟩ :=
      hunmixed d.name entry ((get?_extractDeclarations_iff h).2 ⟨d, hd, rfl, hentry⟩)
    exact ⟨d', hd', hname, halone.trans hentry.symm⟩
  · intro hsame name entry hentry
    obtain ⟨d, hd, hname, halone⟩ := (get?_extractDeclarations_iff h).1 hentry
    obtain ⟨d', hd', hname', halone'⟩ := hsame d hd
    exact ⟨d', hd', hname'.trans hname, halone'.trans halone⟩

/-- A class that two inputs declare, with different members. -/
def twoClasses : List Declaration :=
  [⟨"A", "", [⟨"m", "/** @X(1) */"⟩]⟩, ⟨"A", "", [⟨"m", "/** @X(2) */"⟩, ⟨"n", "/** @Y(3) */"⟩]⟩]

/-- Its entry: the members of the second declaration, one with the comment of the first. -/
def mixedEntry : Extraction := [("m", [("X", [.int 1])]), ("n", [("Y", [.int 3])])]

theorem extractDeclarations_twoClasses :
    (extractDeclarations {} false twoClasses).2 = .ok [("A", mixedEntry)] :=
  eq_ok_of_toOption_eq_some (by decide +kernel)

/-- The entry of a name may be that of none of its declarations. -/
theorem mixed_sameName :
    (extractDeclarations {} false twoClasses).2 = .ok [("A", mixedEntry)] ∧
      ¬ Unmixed {} twoClasses [("A", mixedEntry)] := by
  refine ⟨extractDeclarations_twoClasses, fun h => ?_⟩
  obtain ⟨d, hd, -, halone⟩ := h "A" mixedEntry rfl
  have hnone : ∀ d ∈ twoClasses, (alone {} d).toOption ≠ some mixedEntry := by decide +kernel
  exact hnone d hd (by rw [halone]; rfl)

theorem unmixed_iff_twoClasses :
    (extractDeclarations {} false twoClasses).2 = .ok [("A", mixedEntry)] ∧
      (Unmixed {} twoClasses [("A", mixedEntry)] ↔
        ∀ d, Direct.IsLast Declaration.name twoClasses d →
          ∃ d' ∈ twoClasses, d'.name = d.name ∧ alone {} d' = alone {} (settled twoClasses d)) :=
  ⟨extractDeclarations_twoClasses,
    (extractDeclarations_unmixed_iff extractDeclarations_twoClasses).2⟩

end DocFacts.Command
