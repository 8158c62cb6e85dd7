import DocFacts.Proofs.Arguments.Acceptance
import DocFacts.Proofs.Arguments.Draft
import Mathlib.Logic.Relation

/-!
# The reader, token by token

A run of the reader is a chain of advances, each over one token: a string, an equals sign, a comma,
a composite with the blank characters behind it, a stray brace, or a character of text.
`Reading.Advance` lists them with what each asks for, and `Reading.Stuck` lists the places at which
no advance is possible.  A run has a value exactly when advances lead to the end of the body
(`run_eq_ok_iff`), and it is refused exactly when they lead to a place at which the reader is stuck
(`run_eq_error_iff`).  Statements about runs are then proved for one advance and carried along the
chain.  An advance looks at its token only, and behind a string or a composite at whether a
separator stands there, so it can be made in front of another text, too (`Advance.onto`).
-/

namespace DocFacts

/-- Blank characters are moved over up to what stands behind them. -/
theorem Cursor.skipBlank_append {past gap back : List Char}
    (hgap : ∀ c ∈ gap, Text.isBlank c = true) (hback : ∀ c ∈ back.head?, Text.isBlank c = false) :
    (Cursor.mk past (gap ++ back)).skipBlank = ⟨gap.reverse ++ past, back⟩ := by
  have htake : (gap ++ back).takeWhile Text.isBlank = gap := by
    have hnone : back.takeWhile Text.isBlank = [] := by
      cases back with
      | nil => rfl
      | cons c back => exact List.takeWhile_cons_of_neg (by simp [hback c rfl])
    rw [List.takeWhile_append_of_pos hgap, hnone, List.append_nil]
  rw [skipBlank, htake, Text.dropBlank_append hgap, Text.dropBlank_eq hback]

/-- A place is moved over the blank characters at it. -/
theorem Cursor.exists_skipBlank (past rest : List Char) :
    ∃ gap back, rest = gap ++ back ∧ (∀ c ∈ gap, Text.isBlank c = true) ∧
      (∀ c ∈ back.head?, Text.isBlank c = false) ∧
      (Cursor.mk past rest).skipBlank = ⟨gap.reverse ++ past, back⟩ := by
  obtain ⟨gap, hgap, hrest⟩ := Text.exists_append_dropBlank rest
  have hback : ∀ c ∈ (Text.dropBlank rest).head?, Text.isBlank c = false := by
    intro c hc
    obtain ⟨tail, htail⟩ := List.head?_eq_some_iff.1 hc
    exact Text.isBlank_of_dropBlank_eq_cons htail
  refine ⟨gap, Text.dropBlank rest, hrest.symm, hgap, hback, ?_⟩
  rw [← Cursor.skipBlank_append hgap hback, hrest]

/-- What may follow a closed string or composite is not blank. -/
theorem MayFollow.not_blank {depth : Nat} {text : List Char} (h : MayFollow depth text) :
    ∀ c ∈ text.head?, Text.isBlank c = false := by
  intro c hc
  obtain ⟨tail, rfl⟩ := List.head?_eq_some_iff.1 hc
  rcases h with rfl | ⟨-, rfl⟩
  · decide
  · decide

/-- The complaint about a place shows the last ten characters up to and with the one at it. -/
theorem Cursor.separatorError?_eq_some_iff {p : Cursor} {e : ParseError} :
    p.separatorError? = some e ↔ ∃ c rest, p.rest = c :: rest ∧ c ≠ ',' ∧
      e = .missingComma (String.ofList ((c :: p.past).take 10).reverse) := by
  obtain ⟨past, rest⟩ := p
  cases rest with
  | nil => simp [separatorError?]
  | cons c rest =>
    simp only [separatorError?, List.cons.injEq]
    constructor
    · intro h
      split at h
      · cases h
      · rename_i hc
        cases h
        exact ⟨c, rest, ⟨rfl, rfl⟩, hc, rfl⟩
    · rintro ⟨d, tail, ⟨rfl, rfl⟩, hc, rfl⟩
      rw [if_neg hc]

namespace Reading

/-- The reader goes on over one token. -/
inductive Advance (r : Reading) : Reading → Prop where
  /-- A string, with a separator behind it. -/
  | string {inside back : List Char} (hrest : r.cursor.rest = '"' :: (inside ++ '"' :: back))
      (hescaped : Text.isEscaped r.cursor.past = false) (hinside : Quotable [] inside)
      (hback : MayFollow 0 back) :
      Advance r { r with
        cursor := ⟨'"' :: (inside.reverse ++ '"' :: r.cursor.past), back⟩
        draft := r.draft.quote (String.ofList inside) }
  /-- The equals sign behind a name. -/
  | equals {back : List Char} (hrest : r.cursor.rest = '=' :: back)
      (hside : r.draft.side = .name) :
      Advance r { r with
        cursor := ⟨'=' :: r.cursor.past, back⟩, draft := r.draft.crossEquals, keyed := true }
  /-- A comma. -/
  | comma {back : List Char} (hrest : r.cursor.rest = ',' :: back) :
      Advance r { r with
        cursor := ⟨',' :: r.cursor.past, back⟩, entries := r.flush, draft := {},
        separated := true }
  /-- A composite and the blank characters behind it, with a separator behind them. -/
  | composite {inside gap back : List Char} {v : Value}
      (hrest : r.cursor.rest = '{' :: (inside ++ '}' :: (gap ++ back)))
      (hinside : Pass.Balanced {} inside) (hvalue : parseBody inside = .ok v)
      (hgap : ∀ c ∈ gap, Text.isBlank c = true) (hback : MayFollow 0 back) :
      Advance r (r.take v ⟨gap.reverse ++ '}' :: (inside.reverse ++ '{' :: r.cursor.past), back⟩)
  /-- A stray closing brace. -/
  | stray {back : List Char} (hrest : r.cursor.rest = '}' :: back) :
      Advance r { r with cursor := ⟨'}' :: r.cursor.past, back⟩ }
  /-- A character of text. -/
  | text {c : Char} {back : List Char} (hrest : r.cursor.rest = c :: back)
      (hmark : ¬ (c = '"' ∧ Text.isEscaped r.cursor.past = false))
      (hequals : ¬ (c = '=' ∧ r.draft.side = .name)) (hcomma : c ≠ ',') (hopen : c ≠ '{')
      (hclose : c ≠ '}') :
      Advance r { r with cursor := ⟨c :: r.cursor.past, back⟩, draft := r.draft.push c }

/-- The reader can go no further, and why. -/
inductive Stuck (r : Reading) : ParseError → Prop where
  /-- A quotation mark is never closed. -/
  | openString {back : List Char} (hrest : r.cursor.rest = '"' :: back)
      (hescaped : Text.isEscaped r.cursor.past = false) (hclose : closeQuote [] back = none) :
      Stuck r (.unterminatedQuote r.cursor.offset)
  /-- A string has no separator behind it. -/
  | behindString {inside back : List Char} {e : ParseError}
      (hrest : r.cursor.rest = '"' :: (inside ++ '"' :: back))
      (hescaped : Text.isEscaped r.cursor.past = false) (hinside : Quotable [] inside)
      (hback : (Cursor.mk ('"' :: (inside.reverse ++ '"' :: r.cursor.past)) back).separatorError? =
        some e) : Stuck r e
  /-- An opening brace is never closed. -/
  | openComposite {back : List Char} (hrest : r.cursor.rest = '{' :: back)
      (hclose : closeBrace 1 false [] back = none) :
      Stuck r (.unterminatedComposite (String.ofList back))
  /-- The inside of a composite cannot be read. -/
  | inComposite {inside back : List Char} {e : ParseError}
      (hrest : r.cursor.rest = '{' :: (inside ++ '}' :: back))
      (hinside : Pass.Balanced {} inside) (herror : parseBody inside = .error e) : Stuck r e
  /-- A composite has no separator behind it and the blank characters that follow it. -/
  | behindComposite {inside gap back : List Char} {v : Value} {e : ParseError}
      (hrest : r.cursor.rest = '{' :: (inside ++ '}' :: (gap ++ back)))
      (hinside : Pass.Balanced {} inside) (hvalue : parseBody inside = .ok v)
      (hgap : ∀ c ∈ gap, Text.isBlank c = true)
      (hblank : ∀ c ∈ back.head?, Text.isBlank c = false)
      (hback : (Cursor.mk (gap.reverse ++ '}' :: (inside.reverse ++ '{' :: r.cursor.past))
        back).separatorError? = some e) : Stuck r e

/-- The reader gets from one state to the other. -/
def Reads : Reading → Reading → Prop := Relation.ReflTransGen Advance

variable {r s : Reading} {v : Value} {e : ParseError} {c : Char} {rest : List Char}

theorem closeQuote_of_quotable {inside back : List Char} (h : Quotable [] inside) :
    closeQuote [] (inside ++ '"' :: back) = some (inside.reverse, back) :=
  closeQuote_eq_some_iff.2 ⟨inside, rfl, by rw [List.append_nil], h⟩

theorem closeBrace_of_balanced {inside back : List Char} (h : Pass.Balanced {} inside) :
    closeBrace 1 false [] (inside ++ '}' :: back) = some (inside.reverse, back) :=
  (closeBrace_eq_some_iff (p := {})).2 ⟨inside, rfl, by rw [List.append_nil], h⟩

/-! ## From advances to runs -/

/-- A run over a composite reads its inside first. -/
theorem run_composite_eq {inside gap back : List Char}
    (hrest : r.cursor.rest = '{' :: (inside ++ '}' :: (gap ++ back)))
    (hinside : Pass.Balanced {} inside) (hgap : ∀ c ∈ gap, Text.isBlank c = true)
    (hblank : ∀ c ∈ back.head?, Text.isBlank c = false) :
    let behind : Cursor :=
      ⟨gap.reverse ++ '}' :: (inside.reverse ++ '{' :: r.cursor.past), back⟩
    r.run =
      match parseBody inside with
      | .error e => .error e
      | .ok v =>
        match behind.separatorError? with
        | some e => .error e
        | none => (r.take v behind).run := by
  intro behind
  rw [run_cons hrest, step_brace (closeBrace_of_balanced hinside)]
  simp only [List.reverse_reverse, Cursor.skipBlank_append hgap hblank]
  rfl

/-- An advance leaves the rest of the run to be made. -/
theorem Advance.run_eq (h : Advance r s) : r.run = s.run := by
  cases h with
  | string hrest hescaped hinside hback =>
    have hstep := step_quote hescaped (closeQuote_of_quotable hinside)
      (Cursor.separatorError?_eq_none_iff.2 hback)
    rw [List.reverse_reverse] at hstep
    exact run_proceed hrest hstep
  | equals hrest hside => exact run_proceed hrest (step_equals hside)
  | comma hrest => exact run_proceed hrest step_comma
  | @composite inside gap back v hrest hinside hvalue hgap hback =>
    have hnone : (Cursor.mk (gap.reverse ++ '}' :: (inside.reverse ++ '{' :: r.cursor.past))
        back).separatorError? = none := Cursor.separatorError?_eq_none_iff.2 hback
    rw [run_composite_eq hrest hinside hgap hback.not_blank, hvalue]
    simp only [hnone]
  | stray hrest => exact run_proceed hrest step_stray
  | text hrest hmark hequals hcomma hopen hclose =>
    exact run_proceed hrest (step_text hmark hequals hcomma hopen hclose)

theorem Reads.run_eq (h : Reads r s) : r.run = s.run := by
  induction h using Relation.ReflTransGen.head_induction_on with
  | refl => rfl
  | head hfirst _ ih => exact hfirst.run_eq.trans ih

/-- A reader that is stuck refuses the body. -/
theorem Stuck.run_eq (h : Stuck r e) : r.run = .error e := by
  cases h with
  | openString hrest hescaped hclose =>
    rw [run_cons hrest, step_quote_unclosed hescaped hclose]
  | behindString hrest hescaped hinside hback =>
    rw [run_cons hrest, step_quote_refused hescaped (closeQuote_of_quotable hinside) hback]
  | openComposite hrest hclose => rw [run_cons hrest, step_brace_unclosed hclose]
  | inComposite hrest hinside herror =>
    rw [run_cons hrest, step_brace (closeBrace_of_balanced hinside)]
    simp only [List.reverse_reverse, herror]
  | behindComposite hrest hinside hvalue hgap hblank hback =>
    rw [run_composite_eq hrest hinside hgap hblank, hvalue]
    simp only [hback]

/-! ## From runs to advances -/

/-- What a move can come to: it leads on over a token, the reader is stuck, or it hands the inside
of a composite back. -/
def Comes (r : Reading) (c : Char) (rest : List Char) : Prop :=
  (∃ s, r.step c rest = .proceed s ∧ Advance r s) ∨
    (∃ e, r.step c rest = .refuse e ∧ Stuck r e) ∨
      ∃ inside back, r.cursor.rest = '{' :: (inside ++ '}' :: back) ∧ Pass.Balanced {} inside ∧
        r.step c rest =
          .descend inside ⟨'}' :: (inside.reverse ++ '{' :: r.cursor.past), back⟩

/-- **What every move comes to.** -/
theorem step_comes (hrest : r.cursor.rest = c :: rest) : r.Comes c rest := by
  have hmoves := r.step_moves c rest
  rw [Comes]
  generalize r.step c rest = move at hmoves ⊢
  cases hmoves with
  | openString hescaped hclose => exact .inr (.inl ⟨_, rfl, .openString hrest hescaped hclose⟩)
  | behindString hescaped hclose hback =>
    obtain ⟨body, rfl, rfl, hbody⟩ := closeQuote_eq_some_iff.1 hclose
    rw [List.append_nil] at hback
    exact .inr (.inl ⟨_, rfl, .behindString hrest hescaped hbody hback⟩)
  | string hescaped hclose hback =>
    obtain ⟨body, rfl, rfl, hbody⟩ := closeQuote_eq_some_iff.1 hclose
    rw [List.append_nil] at hback ⊢
    rw [List.reverse_reverse]
    exact .inl ⟨_, rfl, .string hrest hescaped hbody (Cursor.separatorError?_eq_none_iff.1 hback)⟩
  | equals hside => exact .inl ⟨_, rfl, .equals hrest hside⟩
  | comma => exact .inl ⟨_, rfl, .comma hrest⟩
  | openComposite hclose => exact .inr (.inl ⟨_, rfl, .openComposite hrest hclose⟩)
  | @composite _ back hclose =>
    obtain ⟨body, rfl, rfl, hbody⟩ := (closeBrace_eq_some_iff (p := {})).1 hclose
    rw [List.append_nil, List.reverse_reverse]
    exact .inr (.inr ⟨body, back, hrest, hbody, rfl⟩)
  | stray => exact .inl ⟨_, rfl, .stray hrest⟩
  | text hmark hequals hcomma hopen hclose =>
    exact .inl ⟨_, rfl, .text hrest hmark hequals hcomma hopen hclose⟩

/-- In front of a composite the reader advances over it or is stuck. -/
theorem advance_or_stuck_composite {inside behind : List Char}
    (hrest : r.cursor.rest = '{' :: (inside ++ '}' :: behind)) (hinside : Pass.Balanced {} inside) :
    (∃ s, Advance r s) ∨ ∃ e, Stuck r e := by
  cases hvalue : parseBody inside with
  | error e => exact .inr ⟨e, .inComposite hrest hinside hvalue⟩
  | ok v =>
    obtain ⟨gap, back, rfl, hgap, hblank, -⟩ := Cursor.exists_skipBlank [] behind
    cases hback : (Cursor.mk (gap.reverse ++ '}' :: (inside.reverse ++ '{' :: r.cursor.past))
        back).separatorError? with
    | none =>
      exact .inl ⟨_, .composite hrest hinside hvalue hgap
        (Cursor.separatorError?_eq_none_iff.1 hback)⟩
    | some e => exact .inr ⟨e, .behindComposite hrest hinside hvalue hgap hblank hback⟩

/-- A reader in front of the end advances or is stuck. -/
theorem advance_or_stuck (hrest : r.cursor.rest = c :: rest) :
    (∃ s, Advance r s) ∨ ∃ e, Stuck r e := by
  rcases step_comes hrest with ⟨s, -, hs⟩ | ⟨e, -, he⟩ | ⟨inside, back, hcomposite, hinside, -⟩
  · exact .inl ⟨s, hs⟩
  · exact .inr ⟨e, he⟩
  · exact advance_or_stuck_composite hcomposite hinside

/-- A reader that is not at the end of a body with a value advances. -/
theorem exists_advance {rest : List Char} (hrest : r.cursor.rest = c :: rest) (hv : r.run = .ok v) :
    ∃ s, Advance r s ∧ s.run = .ok v := by
  rcases advance_or_stuck hrest with ⟨s, hs⟩ | ⟨e, he⟩
  · exact ⟨s, hs, hs.run_eq ▸ hv⟩
  · rw [he.run_eq] at hv
    cases hv

/-- An advance leaves less to read. -/
theorem Advance.length_lt (h : Advance r s) : s.cursor.rest.length < r.cursor.rest.length := by
  cases h with
  | string hrest _ _ _ => simp [hrest]; omega
  | equals hrest _ => simp [hrest]
  | comma hrest => simp [hrest]
  | composite hrest _ _ _ _ => simp [hrest, take]; omega
  | stray hrest => simp [hrest]
  | text hrest _ _ _ _ _ => simp [hrest]

/-- In front of the equals sign of an entry nothing has been read of its value. -/
theorem Advance.unvalued (h : Advance r s) (hr : r.draft.Unvalued) : s.draft.Unvalued := by
  cases h with
  | string _ _ _ _ => exact hr.setCurrent _
  | equals _ _ =>
    intro hside
    cases hside
  | comma _ => exact fun _ => rfl
  | composite _ _ _ _ _ => exact hr.setCurrent _
  | stray _ => exact hr
  | text _ _ _ _ _ _ => exact hr.setCurrent _

theorem Reads.unvalued (h : Reads r s) (hr : r.draft.Unvalued) : s.draft.Unvalued := by
  induction h with
  | refl => exact hr
  | tail _ hlast ih => exact hlast.unvalued ih

/-- The reader gets to the end of the body or to a place at which it is stuck. -/
theorem exists_reads (r : Reading) :
    (∃ s, Reads r s ∧ s.cursor.rest = []) ∨ ∃ s e, Reads r s ∧ Stuck s e := by
  induction hk : r.cursor.rest.length using Nat.strongRecOn generalizing r with
  | _ k ih =>
    cases hrest : r.cursor.rest with
    | nil => exact .inl ⟨r, .refl, hrest⟩
    | cons c rest =>
      rcases advance_or_stuck hrest with ⟨next, hnext⟩ | ⟨e, he⟩
      · rcases ih _ (hk ▸ hnext.length_lt) next rfl with ⟨s, hs, hend⟩ | ⟨s, e, hs, he⟩
        · exact .inl ⟨s, .head hnext hs, hend⟩
        · exact .inr ⟨s, e, .head hnext hs, he⟩
      · exact .inr ⟨r, e, .refl, he⟩

/-- **A run has a value** exactly when advances lead to the end of the body. -/
theorem run_eq_ok_iff : r.run = .ok v ↔ ∃ s, Reads r s ∧ s.cursor.rest = [] ∧ s.result = v := by
  constructor
  · intro h
    rcases exists_reads r with ⟨s, hs, hend⟩ | ⟨s, e, hs, he⟩
    · rw [hs.run_eq, run_nil hend] at h
      exact ⟨s, hs, hend, Except.ok.inj h⟩
    · rw [hs.run_eq, he.run_eq] at h
      cases h
  · rintro ⟨s, hs, hend, rfl⟩
    rw [hs.run_eq, run_nil hend]

/-- **A run is refused** exactly when advances lead to a place at which the reader is stuck. -/
theorem run_eq_error_iff : r.run = .error e ↔ ∃ s, Reads r s ∧ Stuck s e := by
  constructor
  · intro h
    rcases exists_reads r with ⟨s, hs, hend⟩ | ⟨s, e', hs, he⟩
    · rw [hs.run_eq, run_nil hend] at h
      cases h
    · rw [hs.run_eq, he.run_eq] at h
      cases h
      exact ⟨s, hs, he⟩
  · rintro ⟨s, hs, he⟩
    rw [hs.run_eq, he.run_eq]

/-! ## Advances in front of another text -/

/-- The reader in front of another text. -/
def onto (r : Reading) (rest : List Char) : Reading := { r with cursor := ⟨r.cursor.past, rest⟩ }

/-- An advance is over its token, whatever stands behind that.  Behind a string or a composite it
must be something that may follow. -/
theorem Advance.onto (h : Advance r s) {token rest : List Char}
    (htoken : r.cursor.rest = token ++ s.cursor.rest)
    (hrest : 1 < token.length → MayFollow 0 s.cursor.rest → MayFollow 0 rest) :
    Advance (r.onto (token ++ rest)) (s.onto rest) := by
  cases h with
  | @string inside back hrest' hescaped hinside hback =>
    obtain rfl : '"' :: (inside ++ ['"']) = token :=
      List.append_cancel_right (Eq.trans (by simp) (hrest'.symm.trans htoken))
    exact @Advance.string _ inside rest (by simp [Reading.onto]) hescaped hinside
      (hrest (by simp) hback)
  | @equals back hrest' hside =>
    obtain rfl : ['='] = token := List.append_cancel_right (hrest'.symm.trans htoken)
    exact .equals rfl hside
  | @comma back hrest' =>
    obtain rfl : [','] = token := List.append_cancel_right (hrest'.symm.trans htoken)
    exact .comma rfl
  | @composite inside gap back v hrest' hinside hvalue hgap hback =>
    obtain rfl : '{' :: (inside ++ ['}']) ++ gap = token :=
      List.append_cancel_right (Eq.trans (by simp [take]) (hrest'.symm.trans htoken))
    have hlength : 1 < ('{' :: (inside ++ ['}']) ++ gap).length := by
      simp only [List.length_append, List.length_cons]
      omega
    exact @Advance.composite _ inside gap rest v (by simp [Reading.onto]) hinside hvalue hgap
      (hrest hlength hback)
  | @stray back hrest' =>
    obtain rfl : ['}'] = token := List.append_cancel_right (hrest'.symm.trans htoken)
    exact .stray rfl
  | @text c back hrest' hmark hequals hcomma hopen hclose =>
    obtain rfl : [c] = token := List.append_cancel_right (hrest'.symm.trans htoken)
    exact .text rfl hmark hequals hcomma hopen hclose

end Reading

end DocFacts
