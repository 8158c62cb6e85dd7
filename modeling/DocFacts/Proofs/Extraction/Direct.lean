import DocFacts.Extraction.Extractor

/-!
# Extraction without a memory

What an extractor would answer if it remembered nothing.  Then the answer to a request depends
on the comments that come with the request alone.  For a member its own comment is read first
and that of its declaration second, so of two faulty comments the member's is reported.

`Extractor.tabulate_run` relates a table of requests on an extractor to a table without states.
It holds for any description of the states that the single requests keep.
-/

namespace DocFacts

/-- One thing holds if there is a result, and another if there is a failure. -/
def Ends {ε α : Type} (answer : Except ε α) (good : α → Prop) (bad : Prop) : Prop :=
  match answer with
  | .ok a => good a
  | .error _ => bad

@[simp] theorem ends_ok {ε α : Type} {a : α} {good : α → Prop} {bad : Prop} :
    Ends (.ok a : Except ε α) good bad ↔ good a := Iff.rfl

@[simp] theorem ends_error {ε α : Type} {e : ε} {good : α → Prop} {bad : Prop} :
    Ends (.error e : Except ε α) good bad ↔ bad := Iff.rfl

theorem Ends.imp {ε α : Type} {answer : Except ε α} {good good' : α → Prop} {bad bad' : Prop}
    (h : Ends answer good bad) (hgood : ∀ a, good a → good' a) (hbad : bad → bad') :
    Ends answer good' bad' := by
  cases answer with
  | ok a => exact hgood a h
  | error e => exact hbad h

theorem Ends.elim {ε α : Type} {answer : Except ε α} {p : Prop} (h : Ends answer (fun _ => p) p) :
    p := by
  cases answer with
  | ok a => exact h
  | error e => exact h

theorem eq_ok_of_toOption_eq_some {ε α : Type} {answer : Except ε α} {a : α}
    (h : answer.toOption = some a) : answer = .ok a := by
  cases answer with
  | ok b => exact congrArg _ (Option.some.inj h)
  | error e => cases h

namespace Direct

/-! ## Tables of results -/

/-- The results of a request for each of some things, with their names.  The first failure ends
it. -/
def rows {ε α β : Type} (name : α → String) (request : α → Except ε β) (things : List α) :
    Except ε (List (String × β)) :=
  things.mapM fun a => (request a).map (name a, ·)

theorem rows_cons {ε α β : Type} (name : α → String) (request : α → Except ε β) (a : α)
    (things : List α) :
    rows name request (a :: things) =
      match request a with
      | .error e => .error e
      | .ok b => (rows name request things).map ((name a, b) :: ·) := by
  rw [rows, List.mapM_cons]
  cases request a with
  | error e => rfl
  | ok b =>
    change (rows name request things >>= fun rest => pure ((name a, b) :: rest)) = _
    cases rows name request things with
    | error e => rfl
    | ok rest => rfl

theorem rows_cons_eq_ok_iff {ε α β : Type} {name : α → String}
    {request : α → Except ε β} {a : α} {things : List α} {results : List (String × β)} :
    rows name request (a :: things) = .ok results ↔
      ∃ b rest, request a = .ok b ∧ rows name request things = .ok rest ∧
        results = (name a, b) :: rest := by
  rw [rows_cons]
  cases request a with
  | error e => simp
  | ok b =>
    cases rows name request things with
    | error e => simp [Except.map]
    | ok rest => simp [Except.map, eq_comm]

/-- Make a request for each of some things and put the results in a table by name.  The first
failure ends it.  A name that comes again keeps its place and has its last result. -/
def tabulate {ε α β : Type} (name : α → String) (request : α → Except ε β)
    (things : List α) : Except ε (Table String β) :=
  (rows name request things).map Table.ofList

theorem tabulate_eq_ok_iff {ε α β : Type} {name : α → String} {request : α → Except ε β}
    {things : List α} {t : Table String β} :
    tabulate name request things = .ok t ↔
      ∃ results, rows name request things = .ok results ∧ t = Table.ofList results := by
  rw [tabulate]
  cases rows name request things with
  | error e => simp [Except.map]
  | ok results => simp [Except.map, eq_comm]

theorem tabulate_congr {ε α β : Type} {name : α → String} {request request' : α → Except ε β}
    {things : List α} (h : ∀ a ∈ things, request a = request' a) :
    tabulate name request things = tabulate name request' things := by
  have hrows : rows name request things = rows name request' things := by
    induction things with
    | nil => rfl
    | cons a things ih =>
      obtain ⟨ha, hthings⟩ := List.forall_mem_cons.1 h
      rw [rows_cons, rows_cons, ha, ih hthings]
  rw [tabulate, tabulate, hrows]

/-! ## The last thing of a name -/

/-- The thing is the last one of its name. -/
def IsLast {α : Type} (name : α → String) (things : List α) (a : α) : Prop :=
  ∃ front back, things = front ++ a :: back ∧ ∀ a' ∈ back, name a' ≠ name a

theorem isLast_cons {α : Type} {name : α → String} {a b : α} {things : List α} :
    IsLast name (b :: things) a ↔
      IsLast name things a ∨ (a = b ∧ ∀ a' ∈ things, name a' ≠ name a) := by
  constructor
  · rintro ⟨front, back, hthings, hlast⟩
    cases front with
    | nil =>
      obtain ⟨rfl, rfl⟩ := List.cons.inj hthings
      exact .inr ⟨rfl, hlast⟩
    | cons c front =>
      obtain ⟨rfl, hrest⟩ := List.cons.inj hthings
      exact .inl ⟨front, back, hrest, hlast⟩
  · rintro (⟨front, back, rfl, hlast⟩ | ⟨rfl, hlast⟩)
    · exact ⟨b :: front, back, rfl, hlast⟩
    · exact ⟨[], things, rfl, hlast⟩

/-- The row of a name in a table of results, put on top of the rows of `done`. -/
theorem get?_foldl_insert_iff {ε α β : Type} {name : α → String} {request : α → Except ε β}
    {things : List α} {results : List (String × β)} (h : rows name request things = .ok results)
    {done : Table String β} {key : String} {b : β} :
    Table.get? (results.foldl (fun t row => Table.insert t row.1 row.2) done) key = some b ↔
      (∃ a, IsLast name things a ∧ name a = key ∧ request a = .ok b) ∨
        ((∀ a ∈ things, name a ≠ key) ∧ done.get? key = some b) := by
  induction things generalizing results done with
  | nil =>
    cases h
    simp [IsLast]
  | cons a things ih =>
    obtain ⟨b', rest, hb, hrows, rfl⟩ := rows_cons_eq_ok_iff.1 h
    simp only [List.foldl_cons]
    rw [ih hrows, Table.get?_insert]
    simp only [isLast_cons, List.forall_mem_cons]
    constructor
    · rintro (⟨a', hlast, hname, ha'⟩ | ⟨hnone, hget⟩)
      · exact .inl ⟨a', .inl hlast, hname, ha'⟩
      · split at hget
        · rename_i hname
          subst hname
          cases hget
          exact .inl ⟨a, .inr ⟨rfl, hnone⟩, rfl, hb⟩
        · rename_i hname
          exact .inr ⟨⟨hname, hnone⟩, hget⟩
    · rintro (⟨a', hlast | ⟨rfl, hnone⟩, rfl, ha'⟩ | ⟨⟨hname, hnone⟩, hget⟩)
      · exact .inl ⟨a', hlast, rfl, ha'⟩
      · rw [hb] at ha'
        cases ha'
        exact .inr ⟨hnone, by rw [if_pos rfl]⟩
      · exact .inr ⟨hnone, by rw [if_neg hname, hget]⟩

/-- The row of a name in a table of results is the result of the last thing of that name. -/
theorem get?_tabulate_iff {ε α β : Type} {name : α → String} {request : α → Except ε β}
    {things : List α} {t : Table String β} (h : tabulate name request things = .ok t)
    {key : String} {b : β} :
    t.get? key = some b ↔ ∃ a, IsLast name things a ∧ name a = key ∧ request a = .ok b := by
  obtain ⟨results, hrows, rfl⟩ := tabulate_eq_ok_iff.1 h
  rw [Table.ofList, get?_foldl_insert_iff hrows]
  simp

/-- Each thing of a table of results has a result. -/
theorem exists_eq_ok_of_tabulate {ε α β : Type} {name : α → String}
    {request : α → Except ε β} {things : List α} {t : Table String β}
    (h : tabulate name request things = .ok t) : ∀ a ∈ things, ∃ b, request a = .ok b := by
  obtain ⟨results, hrows, -⟩ := tabulate_eq_ok_iff.1 h
  clear h
  induction things generalizing results with
  | nil => simp
  | cons a things ih =>
    obtain ⟨b, rest, hb, hrest, -⟩ := rows_cons_eq_ok_iff.1 hrows
    exact List.forall_mem_cons.2 ⟨⟨b, hb⟩, ih rest hrest⟩

/-- If each thing has a result, there is a table of results. -/
theorem exists_tabulate_eq_ok {ε α β : Type} (name : α → String) {request : α → Except ε β}
    {things : List α} (h : ∀ a ∈ things, ∃ b, request a = .ok b) :
    ∃ t, tabulate name request things = .ok t := by
  have hrows : ∃ results, rows name request things = .ok results := by
    induction things with
    | nil => exact ⟨[], rfl⟩
    | cons a things ih =>
      obtain ⟨⟨b, hb⟩, hthings⟩ := List.forall_mem_cons.1 h
      obtain ⟨rest, hrest⟩ := ih hthings
      exact ⟨_, rows_cons_eq_ok_iff.2 ⟨b, rest, hb, hrest, rfl⟩⟩
  obtain ⟨results, hresults⟩ := hrows
  exact ⟨_, tabulate_eq_ok_iff.2 ⟨results, hresults, rfl⟩⟩

/-! ## Annotations of members and declarations -/

variable {ε : Type} (rules : Rules) (annotations : String → Except ε AnnotationSet)

/-- The annotations of a member, given its comment and that of its declaration. -/
def consolidated (own base : String) : Except ε AnnotationSet :=
  match annotations own with
  | .error e => .error e
  | .ok own => (annotations base).map (consolidate rules own)

theorem consolidated_eq_ok_iff {ε : Type} {rules : Rules}
    {annotations : String → Except ε AnnotationSet} {own base : String}
    {set : AnnotationSet} :
    consolidated rules annotations own base = .ok set ↔
      ∃ ownSet baseSet, annotations own = .ok ownSet ∧ annotations base = .ok baseSet ∧
        set = consolidate rules ownSet baseSet := by
  rw [consolidated]
  cases annotations own with
  | error e => simp
  | ok ownSet =>
    cases annotations base with
    | error e => simp [Except.map]
    | ok baseSet => simp [Except.map, eq_comm]

/-- The annotations of a member with what it inherits. -/
def member (d : Declaration) (m : Member) : Except ε AnnotationSet :=
  consolidated rules annotations m.comment d.comment

/-- The annotations of all members of a declaration. -/
def extract (d : Declaration) : Except ε Extraction :=
  tabulate Member.name (member rules annotations d) d.members

/-- The extractions of several declarations. -/
def extractAll (ds : List Declaration) : Except ε (Table String Extraction) :=
  tabulate Declaration.name (extract rules annotations) ds

end Direct

/-! ## Tables of requests on an extractor -/

namespace Extractor

variable {σ ε α β : Type}

/-- Each of some things that are requested one after the other gets the answer that `spec` gives
it.  `R` describes the states behind a number of requests that have succeeded, and `E` the
states behind one that has failed. -/
def AnswersAs (request : α → State σ → Answer σ β ε) (spec : α → Except ε β)
    (R : List α → State σ → Prop) (E : State σ → Prop) (things : List α) : Prop :=
  ∀ front a back s, things = front ++ a :: back → R front s →
    (request a s).1 = spec a ∧
      Ends (spec a) (fun _ => R (front ++ [a]) (request a s).2) (E (request a s).2)

section Tabulate

variable (name : α → String) {request : α → State σ → Answer σ β ε}
  {spec : α → Except ε β} {R : List α → State σ → Prop} {E : State σ → Prop}
  {things : List α}

/-- The requests that are left, in front of which those of `front` have succeeded and have been
put into `done`. -/
theorem tabulate_from (hstep : AnswersAs request spec R E things) (back front : List α)
    (done : Table String β) (s : State σ) (hthings : things = front ++ back) (hs : R front s) :
    (tabulate name request done back s).1 =
        (Direct.rows name spec back).map
          (List.foldl (fun t row => Table.insert t row.1 row.2) done) ∧
      Ends (Direct.rows name spec back) (fun _ => R things (tabulate name request done back s).2)
        (E (tabulate name request done back s).2) := by
  induction back generalizing front done s with
  | nil =>
    rw [List.append_nil] at hthings
    subst hthings
    exact ⟨rfl, hs⟩
  | cons a back ih =>
    obtain ⟨hanswer, hafter⟩ := hstep front a back s hthings hs
    rw [tabulate, Direct.rows_cons]
    rcases hr : request a s with ⟨answer, s'⟩
    rw [hr] at hanswer hafter
    simp only at hanswer hafter
    rw [← hanswer] at hafter ⊢
    cases answer with
    | error e => exact ⟨rfl, hafter⟩
    | ok b =>
      have hrest := ih (front ++ [a]) (done.insert (name a) b) s' (by simpa using hthings) hafter
      cases hrows : Direct.rows name spec back with
      | error e =>
        rw [hrows] at hrest
        exact hrest
      | ok rest =>
        rw [hrows] at hrest
        exact hrest

/-- A table of requests on an extractor is the table without states, if each request answers as
without a state. -/
theorem tabulate_run (hstep : AnswersAs request spec R E things) {s : State σ} (hs : R [] s) :
    (tabulate name request [] things s).1 = Direct.tabulate name spec things ∧
      Ends (Direct.tabulate name spec things)
        (fun _ => R things (tabulate name request [] things s).2)
        (E (tabulate name request [] things s).2) := by
  have hall := tabulate_from name hstep things [] [] s rfl hs
  rw [Direct.tabulate]
  cases hrows : Direct.rows name spec things with
  | error e =>
    rw [hrows] at hall
    exact hall
  | ok rest =>
    rw [hrows] at hall
    exact hall

end Tabulate

end Extractor

end DocFacts
