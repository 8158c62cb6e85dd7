import DocFacts.Proofs.Command.SameName
import DocFacts.Proofs.Extraction.Interrupted
import DocFacts.Proofs.Extraction.Subhistory

/-!
# Declarations that are left out

With `skipInvalid` the command goes on behind a declaration that cannot be extracted.  The
declaration has no entry, but the extractor keeps what it has answered for the members in front
of the fault.  `outcomes` says what each declaration comes to in such a run, and
`leftover_sameName` is a run in which the entry of a later declaration shows a member of one that
was left out.

If a declaration that cannot be extracted gives the same comments as the other declarations of
its name (`FaultsAgree`), nothing of it is left behind: the run gives what a new extractor gives
for the declarations that can be extracted (`extractDeclarations_skipping`).  The two histories
differ then only by requests of declarations that are left out, and by none of the first comments
that the others are answered with.
-/

namespace DocFacts

namespace Command

variable {rules : Rules} {ds all : List Declaration} {history : History}

/-! ## What a run comes to -/

/-- What a new extractor answers for several declarations. -/
def together (rules : Rules) (ds : List Declaration) : Except ScanError (Table String Extraction) :=
  (Extractor.extractAll { scanner := Scanner.plain, rules := rules } ds { scanner := () }).1

/-- A new extractor can extract the declaration. -/
def extractable (rules : Rules) (d : Declaration) : Bool := (alone rules d).isOk

/-- What declarations come to one after the other, when those that fail are left out.  The
requests of the history have been answered before. -/
def outcomes (rules : Rules) (history : History) :
    List Declaration → List (String × Except ScanError Extraction)
  | [] => []
  | d :: ds =>
    (d.name, history.outcome rules scan d) ::
      outcomes rules (history ++ history.answered rules scan d) ds

/-- The rows of the declarations that have been extracted. -/
def rowsOf (results : List (String × Except ScanError Extraction)) : List (String × Extraction) :=
  results.filterMap fun row => row.2.toOption.map (row.1, ·)

/-- The declarations that have been left out, with the reasons. -/
def faultsOf (results : List (String × Except ScanError Extraction)) : List BadDeclaration :=
  results.filterMap fun row =>
    match row.2 with
    | .ok _ => none
    | .error e => some ⟨row.1, e⟩

section Rows

variable (name : String) (extraction : Extraction) (e : ScanError)
  (results : List (String × Except ScanError Extraction))

theorem rowsOf_cons_ok :
    rowsOf ((name, .ok extraction) :: results) = (name, extraction) :: rowsOf results := rfl

theorem rowsOf_cons_error : rowsOf ((name, .error e) :: results) = rowsOf results := rfl

theorem faultsOf_cons_ok :
    faultsOf ((name, .ok extraction) :: results) = faultsOf results := rfl

theorem faultsOf_cons_error :
    faultsOf ((name, .error e) :: results) = ⟨name, e⟩ :: faultsOf results := rfl

end Rows

theorem alone_eq_outcome (d : Declaration) : alone rules d = History.outcome rules scan [] d :=
  (Extractor.extract_outcome (scans_plain rules) .nil d).1

/-- A run that leaves out what fails. -/
theorem extractFrom_skipping {s : Extractor.State Unit} {done : Table String Extraction}
    (hs : s.memory.Records rules scan history) :
    extractFrom { scanner := Scanner.plain, rules := rules } true s done ds =
      (faultsOf (outcomes rules history ds),
        .ok ((rowsOf (outcomes rules history ds)).foldl
          (fun t row => Table.insert t row.1 row.2) done)) := by
  induction ds generalizing s done history with
  | nil => rfl
  | cons d ds ih =>
    obtain ⟨hanswer, hafter⟩ := Extractor.extract_outcome (scans_plain rules) hs d
    rw [extractFrom, outcomes]
    rcases hr : Extractor.extract { scanner := Scanner.plain, rules := rules } d s with ⟨answer, s'⟩
    rw [hr] at hanswer hafter
    simp only at hanswer hafter
    rw [← hanswer]
    cases answer with
    | error e => simp only [if_true, ih hafter]; rfl
    | ok extraction => simp only [ih hafter]; rfl

/-- The run of the command that leaves out what fails. -/
theorem extractDeclarations_skipping_eq (rules : Rules) (ds : List Declaration) :
    extractDeclarations rules true ds =
      (faultsOf (outcomes rules [] ds), .ok (Table.ofList (rowsOf (outcomes rules [] ds)))) :=
  extractFrom_skipping .nil

/-! ## Runs that leave nothing out -/

/-- If nothing is left out, it does not matter whether it would have been. -/
theorem extractFrom_eq_of_no_faults {x : Extractor Unit} {s : Extractor.State Unit}
    {done out : Table String Extraction} (h : extractFrom x true s done ds = ([], .ok out)) :
    (Extractor.tabulate Declaration.name x.extract done ds s).1 = .ok out := by
  induction ds generalizing s done with
  | nil =>
    cases h
    rfl
  | cons d ds ih =>
    rw [extractFrom] at h
    rw [Extractor.tabulate]
    rcases hr : x.extract d s with ⟨answer, s'⟩
    rw [hr] at h
    cases answer with
    | error e => cases congrArg Prod.fst h
    | ok extraction => exact ih h

/-- Up to the first failure a run is the table of the extractor. -/
theorem extractFrom_strict {x : Extractor Unit} {s : Extractor.State Unit}
    {done : Table String Extraction} :
    (extractFrom x false s done ds).2.mapError BadDeclaration.error =
      (Extractor.tabulate Declaration.name x.extract done ds s).1 := by
  induction ds generalizing s done with
  | nil => rfl
  | cons d ds ih =>
    rw [extractFrom, Extractor.tabulate]
    rcases x.extract d s with ⟨answer, s'⟩
    cases answer with
    | error e => rfl
    | ok extraction => exact ih

/-- A run fails on the first declaration on which the table of the extractor fails. -/
theorem exists_first_fault {x : Extractor Unit} {s : Extractor.State Unit}
    {done : Table String Extraction} {bad : BadDeclaration}
    (h : (extractFrom x false s done ds).2 = .error bad) :
    ∃ front d back, ds = front ++ d :: back ∧ d.name = bad.name ∧
      (∃ out, (Extractor.tabulate Declaration.name x.extract done front s).1 = .ok out) ∧
      (Extractor.tabulate Declaration.name x.extract done (front ++ [d]) s).1 =
        .error bad.error := by
  induction ds generalizing s done with
  | nil => cases h
  | cons d ds ih =>
    rw [extractFrom] at h
    rcases hr : x.extract d s with ⟨answer, s'⟩
    rw [hr] at h
    cases answer with
    | error e =>
      cases h
      exact ⟨[], d, ds, rfl, rfl, ⟨done, rfl⟩, by simp [Extractor.tabulate, hr]⟩
    | ok extraction =>
      obtain ⟨front, d', back, rfl, hname, ⟨out, hfront⟩, hbad⟩ := ih h
      refine ⟨d :: front, d', back, rfl, hname, ⟨out, ?_⟩, ?_⟩
      · rw [Extractor.tabulate, hr]
        exact hfront
      · rw [List.cons_append, Extractor.tabulate, hr]
        exact hbad

/-! ## Declarations that agree -/

/-- Two declarations come with the same comment, and so do members of theirs of one name. -/
structure Agree (d d' : Declaration) : Prop where
  /-- The comments of the declarations are the same. -/
  comment : d.comment = d'.comment
  /-- The comments of members of one name are the same. -/
  member : ∀ m ∈ d.members, ∀ m' ∈ d'.members, m.name = m'.name → m.comment = m'.comment

instance (d d' : Declaration) : Decidable (Agree d d') :=
  decidable_of_iff (_ ∧ _) ⟨fun h => ⟨h.1, h.2⟩, fun h => ⟨h.1, h.2⟩⟩

/-- A declaration that cannot be extracted agrees with the others of its name. -/
def FaultsAgree (rules : Rules) (ds : List Declaration) : Prop :=
  ∀ d ∈ ds, extractable rules d = false → ∀ d' ∈ ds, d'.name = d.name → d' ≠ d → Agree d d'

instance (rules : Rules) (ds : List Declaration) : Decidable (FaultsAgree rules ds) :=
  inferInstanceAs (Decidable (∀ d ∈ ds, _))

/-- The history is one of a run over some declarations. -/
structure Trail (all : List Declaration) (history : History) : Prop where
  /-- The requests are those of the declarations. -/
  mem : ∀ r ∈ history, ∃ d ∈ all, r ∈ d.requests
  /-- A first member is the first one of its own declaration too. -/
  first : ∀ names d m, history.member? names = some (d, m) →
    History.member? d.requests names = some (d, m)

namespace Trail

theorem nil : Trail all [] where
  mem _ hr := by cases hr
  first _ _ _ h := by cases h

/-- A run goes on with the first requests of a declaration. -/
theorem append (h : Trail all history) {d : Declaration} (hd : d ∈ all) {requests : History}
    (hrequests : requests <+: d.requests) : Trail all (history ++ requests) where
  mem r hr := by
    rcases List.mem_append.1 hr with hold | hnew
    · exact h.mem r hold
    · exact ⟨d, hd, hrequests.subset hnew⟩
  first names b m hfirst := by
    rw [History.member?_append] at hfirst
    cases hold : history.member? names with
    | some dm =>
      rw [hold] at hfirst
      cases hfirst
      exact h.first names b m hold
    | none =>
      rw [hold, Option.none_or] at hfirst
      obtain ⟨hmem, -⟩ := History.mem_of_member? hfirst
      obtain ⟨rfl, -⟩ := History.mem_requests_iff.1 (hrequests.subset hmem)
      exact (hrequests.filterMap Request.member?).find?_eq_some hfirst

theorem mem_of_owner? (h : Trail all history) {name : String} {d : Declaration}
    (ho : history.owner? name = some d) : d ∈ all ∧ d.name = name := by
  obtain ⟨⟨r, hr, rfl⟩, hname⟩ := History.mem_of_owner? ho
  obtain ⟨d, hd, hrd⟩ := h.mem r hr
  rw [History.owner_of_mem_requests hrd] at hname ⊢
  exact ⟨hd, hname⟩

theorem mem_of_member? (h : Trail all history) {names : String × String} {d : Declaration}
    {m : Member} (hm : history.member? names = some (d, m)) :
    d ∈ all ∧ m ∈ d.members ∧ (d.name, m.name) = names := by
  obtain ⟨hr, hnames⟩ := History.mem_of_member? hm
  obtain ⟨d', hd', hrd⟩ := h.mem _ hr
  obtain ⟨rfl, hmem⟩ := History.mem_requests_iff.1 hrd
  exact ⟨hd', hmem, hnames⟩

/-- Behind a history of others that agree with it, a declaration goes by its own comments. -/
theorem settle_eq_of_agree (h : Trail all history) {d : Declaration}
    (hagree : ∀ d' ∈ all, d'.name = d.name → d' ≠ d → Agree d d') :
    History.settle (history ++ d.requests) d = History.settle d.requests d := by
  have hbase : History.base (history ++ d.requests) d = History.base d.requests d := by
    cases ho : history.owner? d.name with
    | none => rw [History.base, History.owner?_append, ho, Option.none_or, ← History.base]
    | some b =>
      have hfirst : History.owner? (history ++ d.requests) d.name = some b := by
        rw [History.owner?_append, ho, Option.some_or]
      rw [History.base_of_owner? hfirst, History.base_requests]
      obtain ⟨hb, hname⟩ := h.mem_of_owner? ho
      by_cases hbd : b = d
      · rw [hbd]
      · exact (hagree b hb hname hbd).comment.symm
  have hown : ∀ m ∈ d.members,
      History.own (history ++ d.requests) d m = History.own d.requests d m := by
    intro m hm
    cases ho : history.member? (d.name, m.name) with
    | none => rw [History.own, History.member?_append, ho, Option.none_or, ← History.own]
    | some bm =>
      obtain ⟨b, m'⟩ := bm
      have hfirst : History.member? (history ++ d.requests) (d.name, m.name) = some (b, m') := by
        rw [History.member?_append, ho, Option.some_or]
      rw [History.own_of_member? hfirst]
      obtain ⟨hb, hm', hnames⟩ := h.mem_of_member? ho
      by_cases hbd : b = d
      · subst hbd
        rw [History.own_of_member? (h.first _ _ _ ho)]
      · -- The first member of the declaration's own requests has the comment of the others.
        obtain ⟨d', m'', hsome⟩ := History.exists_member? (History.mem_requests_iff.2 ⟨rfl, hm⟩)
        obtain ⟨hr, hnames'⟩ := History.mem_of_member? hsome
        obtain ⟨rfl, hm''⟩ := History.mem_requests_iff.1 hr
        obtain ⟨hname, hmname⟩ := Prod.mk.inj (hnames.trans hnames'.symm)
        rw [History.own_of_member? hsome]
        exact ((hagree b hb hname hbd).member m'' hm'' m' hm' hmname.symm).symm
  rw [History.settle, History.settle, hbase]
  exact congrArg _ (List.map_congr_left fun m hm => by rw [hown m hm])

section Class

variable (h : Trail all history) (hall : FaultsAgree rules all) {d : Declaration} (hd : d ∈ all)
  (hgood : extractable rules d = true)

include h hd hgood

/-- The comment that stands for a declaration in the class of those that can be extracted comes
from one of them. -/
theorem exists_base_ofClass : ∃ c ∈ all, extractable rules c = true ∧ c.name = d.name ∧
    (history.ofClass (extractable rules)).base d = c.comment := by
  cases ho : (history.ofClass (extractable rules)).owner? d.name with
  | none => exact ⟨d, hd, hgood, rfl, by rw [History.base, ho]; rfl⟩
  | some c =>
    obtain ⟨⟨r, hr, rfl⟩, hname⟩ := History.mem_of_owner? ho
    obtain ⟨hr, hc⟩ := List.mem_filter.1 hr
    obtain ⟨c', hc', hrc⟩ := h.mem r hr
    rw [← History.owner_of_mem_requests hrc] at hc'
    exact ⟨r.owner, hc', hc, hname, History.base_of_owner? ho⟩

include hall

theorem base_ofClass :
    history.base d = (history.ofClass (extractable rules)).base d := by
  cases ho : history.owner? d.name with
  | none =>
    cases ho' : (history.ofClass (extractable rules)).owner? d.name with
    | none => rw [History.base, History.base, ho, ho']
    | some c =>
      obtain ⟨⟨r, hr, rfl⟩, hname⟩ := History.mem_of_owner? ho'
      obtain ⟨b, hb⟩ := History.exists_owner? (List.mem_filter.1 hr).1
      rw [hname, ho] at hb
      cases hb
  | some b =>
    obtain ⟨hb, hname⟩ := h.mem_of_owner? ho
    cases hclass : extractable rules b with
    | true =>
      rw [History.base_of_owner? ho, History.base_of_owner? (History.owner?_ofClass ho hclass)]
    | false =>
      obtain ⟨c, hc, hcgood, hcname, hbase⟩ := exists_base_ofClass h hd hgood
      have hne : c ≠ b := by
        rintro rfl
        rw [hclass] at hcgood
        cases hcgood
      rw [History.base_of_owner? ho, hbase]
      exact (hall b hb hclass c hc (hcname.trans hname.symm) hne).comment

omit hd in
theorem own_ofClass {m : Member} (hm : .member d m ∈ history) :
    history.own d m = (history.ofClass (extractable rules)).own d m := by
  obtain ⟨b, m', hfirst⟩ := History.exists_member? hm
  obtain ⟨hb, hm', hnames⟩ := h.mem_of_member? hfirst
  cases hclass : extractable rules b with
  | true =>
    rw [History.own_of_member? hfirst,
      History.own_of_member? (History.member?_ofClass hfirst hclass)]
  | false =>
    -- The first member in the class belongs to another declaration, which agrees with `b`.
    have hkept : .member d m ∈ history.ofClass (extractable rules) := List.mem_filter.2 ⟨hm, hgood⟩
    obtain ⟨c, m'', hfirst'⟩ := History.exists_member? hkept
    obtain ⟨hr, hnames'⟩ := History.mem_of_member? hfirst'
    obtain ⟨hr, hcgood⟩ := List.mem_filter.1 hr
    obtain ⟨c', hc', hrc⟩ := h.mem _ hr
    obtain ⟨rfl, hm''⟩ := History.mem_requests_iff.1 hrc
    have hne : c ≠ b := by
      rintro rfl
      rw [show extractable rules c = true from hcgood] at hclass
      cases hclass
    obtain ⟨hcname, hmname⟩ := Prod.mk.inj (hnames'.trans hnames.symm)
    rw [History.own_of_member? hfirst, History.own_of_member? hfirst']
    exact (hall b hb hclass c hc' hcname hne).member m' hm' m'' hm'' hmname.symm

/-- A declaration that can be extracted goes by the first comments of those that can be. -/
theorem settle_ofClass (hrequests : d.requests ⊆ history) :
    history.settle d = (history.ofClass (extractable rules)).settle d := by
  rw [History.settle, History.settle, base_ofClass h hall hd hgood]
  refine congrArg _ (List.map_congr_left fun m hm => ?_)
  rw [own_ofClass h hall hgood (hrequests (List.mem_map_of_mem hm))]

end Class

end Trail

/-! ## What is left behind -/

/-- What is remembered behind a declaration records a longer history. -/
theorem exists_records_append {memory : Memory} (h : memory.Records rules scan history)
    (d : Declaration) : ∃ memory' : Memory,
      memory'.Records rules scan (history ++ history.answered rules scan d) :=
  ⟨_, (Extractor.extract_outcome (scans_plain rules) (s := ⟨memory, ()⟩) h d).2⟩

theorem exists_outcome_of_extractable {memory : Memory} (h : memory.Records rules scan history)
    {d : Declaration} (hd : extractable rules d = true) :
    ∃ extraction, history.outcome rules scan d = .ok extraction := by
  rw [extractable, alone_eq_outcome] at hd
  cases halone : History.outcome rules scan [] d with
  | error e =>
    rw [halone] at hd
    cases hd
  | ok extraction => exact h.exists_outcome halone

/-- **The run and its part.**  Declarations that can be extracted come to the same behind the
history of the whole run and behind its part of declarations that can be.  The others come to
what they come to alone. -/
theorem outcomes_filter {memory : Memory} (hall : FaultsAgree rules all) (hds : ds ⊆ all)
    (h : Trail all history) (hrecords : memory.Records rules scan history) :
    rowsOf (outcomes rules history ds) =
        rowsOf (outcomes rules (history.ofClass (extractable rules))
          (ds.filter (extractable rules))) ∧
      faultsOf (outcomes rules history ds) = faultsOf (ds.map fun d => (d.name, alone rules d)) ∧
      faultsOf (outcomes rules (history.ofClass (extractable rules))
        (ds.filter (extractable rules))) = [] := by
  induction ds generalizing history memory with
  | nil => exact ⟨rfl, rfl, rfl⟩
  | cons d ds ih =>
    obtain ⟨hd, hds⟩ := List.cons_subset.1 hds
    obtain ⟨memory', hrecords'⟩ := exists_records_append hrecords d
    have hprefix : history.answered rules scan d <+: d.requests := History.answered_prefix
    have htrail := h.append hd hprefix
    obtain ⟨hrows, hfaults, hnone⟩ := ih hds htrail hrecords'
    have hrequests : d.requests ⊆ history ++ d.requests := List.subset_append_right _ _
    rw [History.ofClass_append] at hrows hnone
    rw [List.filter_cons, List.map_cons, outcomes]
    cases hgood : extractable rules d with
    | true =>
      -- The answers are the same, and all requests go into both histories.
      obtain ⟨extraction, hout⟩ := exists_outcome_of_extractable hrecords hgood
      have hclass : History.ofClass (extractable rules) d.requests = d.requests :=
        History.ofClass_eq_self (List.Subset.refl _) hgood
      have hpart : (history.ofClass (extractable rules)).outcome rules scan d = .ok extraction := by
        have hsettle := (h.append hd (List.prefix_refl _)).settle_ofClass hall hd hgood hrequests
        rw [History.ofClass_append, hclass] at hsettle
        rw [History.outcome, ← hsettle]
        exact hout
      obtain ⟨extraction', halone⟩ := exists_outcome_of_extractable .nil hgood
      rw [History.answered_of_outcome_eq_ok hout] at hrows hfaults hnone
      rw [hclass] at hrows hnone
      rw [if_pos rfl, outcomes, alone_eq_outcome, hout, hpart, halone,
        History.answered_of_outcome_eq_ok hout, History.answered_of_outcome_eq_ok hpart]
      rw [rowsOf_cons_ok, rowsOf_cons_ok, faultsOf_cons_ok, faultsOf_cons_ok, faultsOf_cons_ok,
        hrows]
      exact ⟨rfl, hfaults, hnone⟩
    | false =>
      -- The answer is the one that the declaration gets alone, and the part does not grow.
      have hsettle := h.settle_eq_of_agree (hall d hd hgood)
      have hout : history.outcome rules scan d = alone rules d := by
        rw [alone_eq_outcome, History.outcome, hsettle]
        rfl
      have hclass : History.ofClass (extractable rules) (history.answered rules scan d) = [] :=
        History.ofClass_eq_nil History.answered_prefix.subset hgood
      rw [hclass, List.append_nil] at hrows hnone
      rw [extractable] at hgood
      rw [hout, if_neg (by simp)]
      cases halone : alone rules d with
      | ok extraction =>
        rw [halone] at hgood
        cases hgood
      | error e =>
        rw [rowsOf_cons_error, faultsOf_cons_error, faultsOf_cons_error, hfaults]
        exact ⟨hrows, rfl, hnone⟩

/-- **What is left out.**  A run that leaves nothing out gives what a new extractor gives, and
fails on the same first declaration.  A run that leaves out what fails gives what declarations
come to one after the other.  If the declarations that cannot be extracted agree with the others
of their names, this is what a new extractor gives for the others alone, and what is left out are
the declarations that cannot be extracted. -/
theorem extractDeclarations_skipping (rules : Rules) (ds : List Declaration) :
    (extractDeclarations rules false ds).2.mapError BadDeclaration.error = together rules ds ∧
    (∀ bad, (extractDeclarations rules false ds).2 = .error bad →
      ∃ front d back, ds = front ++ d :: back ∧ d.name = bad.name ∧
        (∃ out, together rules front = .ok out) ∧
        together rules (front ++ [d]) = .error bad.error) ∧
    extractDeclarations rules true ds =
      (faultsOf (outcomes rules [] ds), .ok (Table.ofList (rowsOf (outcomes rules [] ds)))) ∧
    (FaultsAgree rules ds →
      (extractDeclarations rules true ds).1 = faultsOf (ds.map fun d => (d.name, alone rules d)) ∧
        ∃ out, (extractDeclarations rules true ds).2 = .ok out ∧
          together rules (ds.filter (extractable rules)) = .ok out) := by
  refine ⟨extractFrom_strict, fun bad hbad => exists_first_fault hbad,
    extractDeclarations_skipping_eq rules ds, fun hagree => ?_⟩
  obtain ⟨hrows, hfaults, hnone⟩ :=
    outcomes_filter hagree (List.Subset.refl ds) .nil Memory.Records.nil
  have hpart := extractDeclarations_skipping_eq rules (ds.filter (extractable rules))
  simp only [History.ofClass, List.filter_nil] at hrows hnone
  rw [hnone, ← hrows] at hpart
  rw [extractDeclarations_skipping_eq]
  exact ⟨hfaults, _, rfl, extractFrom_eq_of_no_faults hpart⟩

/-- A class whose second member is faulty, and a class of the same name. -/
def faultyFirst : List Declaration :=
  [⟨"A", "", [⟨"m", "/** @X(1) */"⟩, ⟨"bad", "/** @Y(a=\"x) */"⟩]⟩,
    ⟨"A", "", [⟨"m", "/** @X(2) */"⟩]⟩]

/-- The entry of a declaration may show a member of one that was left out. -/
theorem leftover_sameName :
    (extractDeclarations {} true faultyFirst).2 = .ok [("A", [("m", [("X", [.int 1])])])] ∧
      together {} (faultyFirst.filter (extractable {})) =
        .ok [("A", [("m", [("X", [.int 2])])])] :=
  ⟨eq_ok_of_toOption_eq_some (by decide +kernel), eq_ok_of_toOption_eq_some (by decide +kernel)⟩

/-- A class with a faulty member, a class of the same name that agrees with it, and another. -/
def agreeingFault : List Declaration :=
  [⟨"A", "/** @S(1) */", [⟨"m", "/** @X(1) */"⟩, ⟨"bad", "/** @Y(a=\"x) */"⟩]⟩,
    ⟨"A", "/** @S(1) */", [⟨"m", "/** @X(1) */"⟩]⟩, ⟨"B", "", [⟨"m", "/** @X(3) */"⟩]⟩]

theorem skipping_agreeingFault :
    FaultsAgree {} agreeingFault ∧
      ((extractDeclarations {} true agreeingFault).1 =
          faultsOf (agreeingFault.map fun d => (d.name, alone {} d)) ∧
        ∃ out, (extractDeclarations {} true agreeingFault).2 = .ok out ∧
          together {} (agreeingFault.filter (extractable {})) = .ok out) := by
  have hagree : FaultsAgree {} agreeingFault := by decide +kernel
  exact ⟨hagree, (extractDeclarations_skipping {} agreeingFault).2.2.2 hagree⟩

end Command

end DocFacts
