import DocFacts.Proofs.Arguments.TopLevel

/-!
# The states of the reader

The reader of a body comes through states, one for each round of its loop, and it reads the inside
of a composite as a body of its own before it goes on.  `Visits` says which states there are, in the
words of `Reading.run`: a round goes on from what a move makes of a state, or from behind a
composite whose inside has a value.  Some states that could be written down never come up, and the
reader has no answer of its own for them: a character added to a composite is dropped, and so is the
name of an entry in a list.  `Reading.Regular` says what is true of every state that is visited
instead.

One invariant carries all of it (`Orderly`).  A draft that holds a string or a composite is
*closed*: behind it stands a comma or nothing, so the only move over it is the one that finishes its
entry.
-/

namespace DocFacts

open Relation (ReflTransGen)

namespace Reading

/-! ## Rounds -/

/-- The reader goes on to the next round. -/
inductive Goes (r : Reading) : Reading → Prop where
  /-- The move over the next character leads on. -/
  | proceed {c : Char} {rest : List Char} {s : Reading} (hrest : r.cursor.rest = c :: rest)
      (hstep : r.step c rest = .proceed s) : Goes r s
  /-- The inside of a composite has a value, and a separator stands behind the composite. -/
  | take {c : Char} {rest inside : List Char} {behind : Cursor} {v : Value}
      (hrest : r.cursor.rest = c :: rest) (hstep : r.step c rest = .descend inside behind)
      (hvalue : parseBody inside = .ok v) (hbehind : behind.skipBlank.separatorError? = none) :
      Goes r (r.take v behind.skipBlank)

/-- The reader comes to a composite with the given inside. -/
inductive Enters (r : Reading) : List Char → Prop where
  /-- The move over the next character hands the inside back. -/
  | descend {c : Char} {rest inside : List Char} {behind : Cursor}
      (hrest : r.cursor.rest = c :: rest) (hstep : r.step c rest = .descend inside behind) :
      Enters r inside

/-- The states that the reader of a body comes through, those in the insides of composites
included. -/
inductive Visits (body : List Char) : Reading → Prop where
  /-- The reading starts. -/
  | start : Visits body (start body)
  /-- The reader goes on. -/
  | goes {r s : Reading} (h : Visits body r) (hgoes : Goes r s) : Visits body s
  /-- The inside of a composite is read as a body of its own. -/
  | enters {r : Reading} {inside : List Char} (h : Visits body r) (henters : Enters r inside) :
      Visits body (Reading.start inside)

variable {r s : Reading} {body inside rest : List Char} {c : Char}

/-- What a move goes over is a token. -/
theorem advance_of_step (hrest : r.cursor.rest = c :: rest) (hstep : r.step c rest = .proceed s) :
    Advance r s := by
  rcases step_comes hrest with ⟨s', hs', hadvance⟩ | ⟨e, he, -⟩ | ⟨inside, back, -, -, hdescend⟩
  · rw [hstep] at hs'
    cases hs'
    exact hadvance
  · rw [hstep] at he
    cases he
  · rw [hstep] at hdescend
    cases hdescend

/-- The composite whose inside a move hands back. -/
theorem composite_of_step {behind : Cursor} (hrest : r.cursor.rest = c :: rest)
    (hstep : r.step c rest = .descend inside behind) :
    ∃ back, r.cursor.rest = '{' :: (inside ++ '}' :: back) ∧ Pass.Balanced {} inside ∧
      behind = ⟨'}' :: (inside.reverse ++ '{' :: r.cursor.past), back⟩ := by
  obtain ⟨rfl, cut, back, hclose, rfl, rfl⟩ := of_step_eq_descend hstep
  obtain ⟨text, rfl, rfl, htext⟩ := (closeBrace_eq_some_iff (p := {})).1 hclose
  rw [List.append_nil, List.reverse_reverse]
  exact ⟨back, hrest, htext, rfl⟩

/-- A composite that is taken is a token with the blank characters behind it. -/
theorem advance_of_take {behind : Cursor} {v : Value} (hrest : r.cursor.rest = c :: rest)
    (hstep : r.step c rest = .descend inside behind) (hvalue : parseBody inside = .ok v)
    (hbehind : behind.skipBlank.separatorError? = none) :
    Advance r (r.take v behind.skipBlank) := by
  obtain ⟨back, hcomposite, hinside, rfl⟩ := composite_of_step hrest hstep
  obtain ⟨gap, behind, rfl, hgap, -, hskip⟩ :=
    Cursor.exists_skipBlank ('}' :: (inside.reverse ++ '{' :: r.cursor.past)) back
  rw [hskip] at hbehind ⊢
  exact .composite hcomposite hinside hvalue hgap (Cursor.separatorError?_eq_none_iff.1 hbehind)

/-- The rounds of the loop are the advances over tokens. -/
theorem goes_iff_advance : Goes r s ↔ Advance r s := by
  constructor
  · intro h
    cases h with
    | proceed hrest hstep => exact advance_of_step hrest hstep
    | take hrest hstep hvalue hbehind => exact advance_of_take hrest hstep hvalue hbehind
  · intro h
    cases h with
    | @string inside back hrest hescaped hinside hback =>
      have hstep := step_quote hescaped (closeQuote_of_quotable hinside)
        (Cursor.separatorError?_eq_none_iff.2 hback)
      rw [List.reverse_reverse] at hstep
      exact .proceed hrest hstep
    | equals hrest hside => exact .proceed hrest (step_equals hside)
    | comma hrest => exact .proceed hrest step_comma
    | @composite inside gap back v hrest hinside hvalue hgap hback =>
      have hskip : (Cursor.mk ('}' :: (inside.reverse ++ '{' :: r.cursor.past))
          (gap ++ back)).skipBlank = _ := Cursor.skipBlank_append hgap hback.not_blank
      rw [← hskip]
      refine .take hrest (step_brace (closeBrace_of_balanced hinside)) ?_ ?_
      · rwa [List.reverse_reverse]
      · rw [hskip]
        exact Cursor.separatorError?_eq_none_iff.2 hback
    | stray hrest => exact .proceed hrest step_stray
    | text hrest hmark hequals hcomma hopen hclose =>
      exact .proceed hrest (step_text hmark hequals hcomma hopen hclose)

/-- The inside of a composite stands in what is still to be read. -/
theorem Enters.exists_rest (h : Enters r inside) :
    ∃ back, r.cursor.rest = '{' :: (inside ++ '}' :: back) := by
  obtain ⟨hrest, hstep⟩ := h
  obtain ⟨back, hcomposite, -, -⟩ := composite_of_step hrest hstep
  exact ⟨back, hcomposite⟩

/-- The rounds of the loop make the run. -/
theorem parseBody_eq_ok_iff_goes {v : Value} : parseBody body = .ok v ↔
    ∃ r, ReflTransGen Goes (start body) r ∧ r.cursor.rest = [] ∧ r.result = v := by
  have hgoes : (Goes : Reading → Reading → Prop) = Advance := by
    funext r s
    exact propext goes_iff_advance
  rw [hgoes]
  exact run_eq_ok_iff

/-! ## What every state keeps -/

/-- The invariant of the reader. -/
structure Orderly (r : Reading) : Prop where
  /-- Behind a string or a composite stands a comma or nothing. -/
  closed : r.draft.IsClosed → MayFollow 0 r.cursor.rest
  /-- Nothing has been read of a value in front of the equals sign. -/
  unvalued : r.draft.Unvalued
  /-- A composite is not quoted. -/
  unquoted : ∀ v, r.draft.current = .composite v → r.draft.quoted = false
  /-- Behind the equals sign of an entry, an equals sign has been crossed. -/
  keyed_draft : r.draft.side = .value → r.keyed = true
  /-- With a named entry, an equals sign has been crossed. -/
  keyed_entries : ∀ key v, Entry.named key v ∈ r.entries → r.keyed = true

theorem orderly_start (body : List Char) : (start body).Orderly := by
  refine ⟨fun h => absurd h ?_, fun _ => rfl, nofun, nofun, nofun⟩
  exact Draft.not_isClosed_of_text rfl rfl

/-- In front of anything but a comma the draft is not closed. -/
theorem Orderly.not_isClosed (h : r.Orderly) (hrest : r.cursor.rest = c :: rest) (hc : c ≠ ',') :
    ¬ r.draft.IsClosed := by
  intro hclosed
  rcases (h.closed hclosed).eq_nil_or_comma with hnil | ⟨back, hback⟩
  · rw [hrest] at hnil
    cases hnil
  · rw [hrest] at hback
    exact hc (List.cons.inj hback).1

/-- An entry that is finished is named only if an equals sign has been crossed. -/
theorem Orderly.keyed_flush (h : r.Orderly) {key : String} {v : Value}
    (hmem : Entry.named key v ∈ r.flush) : r.keyed = true := by
  rw [flush] at hmem
  split at hmem
  · exact h.keyed_entries key v hmem
  · rcases List.mem_cons.1 hmem with hfinish | hmem
    · exact h.keyed_draft (Draft.exists_named_iff.1 ⟨key, v, hfinish.symm⟩)
    · exact h.keyed_entries key v hmem

/-- An advance keeps the invariant. -/
theorem Advance.orderly (h : Advance r s) (hr : r.Orderly) : s.Orderly := by
  have hunvalued := h.unvalued hr.unvalued
  cases h with
  | string hrest hescaped hinside hback =>
    refine ⟨fun _ => hback, hunvalued, fun v hv => ?_, ?_, hr.keyed_entries⟩
    · rw [Draft.current_quote] at hv
      cases hv
    · intro hside
      exact hr.keyed_draft ((Draft.side_setCurrent _).symm.trans hside)
  | equals hrest hside =>
    refine ⟨fun hclosed => absurd hclosed ?_, hunvalued, fun _ _ => rfl, fun _ => rfl,
      fun _ _ _ => rfl⟩
    exact Draft.not_isClosed_of_text rfl (hr.unvalued hside)
  | comma hrest =>
    refine ⟨fun hclosed => absurd hclosed ?_, hunvalued, nofun, nofun, ?_⟩
    · exact Draft.not_isClosed_of_text rfl rfl
    · exact fun _ _ hmem => hr.keyed_flush hmem
  | composite hrest hinside hvalue hgap hback =>
    refine ⟨fun _ => hback, hunvalued, fun v hv => ?_, ?_, hr.keyed_entries⟩
    · have hopen := hr.not_isClosed hrest (by decide)
      exact (Draft.quoted_setCurrent _).trans (Draft.unquoted_of_not_isClosed hopen)
    · intro hside
      exact hr.keyed_draft ((Draft.side_setCurrent _).symm.trans hside)
  | stray hrest =>
    have hopen := hr.not_isClosed hrest (by decide)
    exact ⟨fun hclosed => absurd hclosed hopen, hunvalued, hr.unquoted, hr.keyed_draft,
      hr.keyed_entries⟩
  | @text c back hrest hmark hequals hcomma hopen hclose =>
    have hpush := Draft.not_isClosed_push (hr.not_isClosed hrest hcomma) c
    refine ⟨fun hclosed => absurd hclosed hpush, hunvalued, ?_, ?_, hr.keyed_entries⟩
    · exact fun _ _ => Draft.unquoted_of_not_isClosed hpush
    · intro hside
      exact hr.keyed_draft ((Draft.side_setCurrent _).symm.trans hside)

theorem Visits.orderly (h : Visits body r) : r.Orderly := by
  induction h with
  | start => exact orderly_start body
  | goes _ hgoes ih => exact (goes_iff_advance.1 hgoes).orderly ih
  | enters _ _ _ => exact orderly_start _

/-! ## The name of an entry -/

/-- The equals sign of the entry that is read was crossed in an earlier state of the same reading,
in which the name was text outside quotation marks. -/
structure CrossedFrom (r before : Reading) : Prop where
  /-- The reader has gone on from the earlier state. -/
  goes : ReflTransGen Goes before r
  /-- The equals sign came next, and it was the first of its entry. -/
  equals : ∃ rest, before.cursor.rest = '=' :: rest
  /-- The reader was in front of it. -/
  side : before.draft.side = .name
  /-- No string had been read as the name. -/
  unquoted : before.draft.quoted = false
  /-- No composite had been read as the name. -/
  text : ∃ t, before.draft.name = .text t
  /-- The name has not changed since. -/
  name_eq : r.draft.name = before.draft.name
  /-- No entry has been finished since. -/
  entries_eq : r.entries = before.entries

/-- A draft gets to its value over an equals sign, and stays there with its name. -/
theorem Advance.name_eq (h : Advance r s) (hside : s.draft.side = .value) :
    s.draft.name = r.draft.name ∧ s.entries = r.entries ∧
      (r.draft.side = .value ∨
        r.draft.side = .name ∧ ∃ rest, r.cursor.rest = '=' :: rest) := by
  have hwritten {token : Token} (hs : (r.draft.setCurrent token).side = .value) :
      (r.draft.setCurrent token).name = r.draft.name ∧ r.draft.side = .value := by
    rw [Draft.side_setCurrent] at hs
    refine ⟨?_, hs⟩
    rw [Draft.setCurrent, hs]
  cases h with
  | string _ _ _ _ => exact ⟨(hwritten hside).1, rfl, .inl (hwritten hside).2⟩
  | equals hrest hname => exact ⟨rfl, rfl, .inr ⟨hname, _, hrest⟩⟩
  | comma _ => cases hside
  | composite _ _ _ _ _ => exact ⟨(hwritten hside).1, rfl, .inl (hwritten hside).2⟩
  | stray _ => exact ⟨rfl, rfl, .inl hside⟩
  | text _ _ _ _ _ _ => exact ⟨(hwritten hside).1, rfl, .inl (hwritten hside).2⟩

theorem Visits.exists_crossedFrom (h : Visits body r) (hside : r.draft.side = .value) :
    ∃ before, Visits body before ∧ r.CrossedFrom before := by
  induction h with
  | start => cases hside
  | @goes r s hr hgoes ih =>
    obtain ⟨hname, hentries, hvalue | ⟨hfront, hrest⟩⟩ :=
      (goes_iff_advance.1 hgoes).name_eq hside
    · obtain ⟨before, hbefore, hcrossed⟩ := ih hvalue
      exact ⟨before, hbefore, { hcrossed with
        goes := hcrossed.goes.tail hgoes
        name_eq := hname.trans hcrossed.name_eq
        entries_eq := hentries.trans hcrossed.entries_eq }⟩
    · obtain ⟨rest, hequals⟩ := hrest
      have hopen := hr.orderly.not_isClosed hequals (by decide)
      obtain ⟨t, ht⟩ := Draft.exists_text_of_not_isClosed hopen
      rw [Draft.current, hfront] at ht
      exact ⟨r, hr, .single hgoes, ⟨rest, hequals⟩, hfront,
        Draft.unquoted_of_not_isClosed hopen, ⟨t, ht⟩, hname, hentries⟩
  | enters _ _ _ => cases hside

/-! ## States that never come up -/

/-- What is true of a state that the reader of a body comes through. -/
structure Regular (body : List Char) (r : Reading) : Prop where
  /-- Behind a string or a composite the entry is finished: a comma comes next, or nothing. -/
  closed : r.draft.IsClosed → r.cursor.rest = [] ∨ ∃ rest, r.cursor.rest = ',' :: rest
  /-- A character is added to text, and never to a composite. -/
  push : ∀ c rest, r.cursor.rest = c :: rest →
    r.step c rest = .proceed { r with
      cursor := ⟨c :: r.cursor.past, rest⟩, draft := r.draft.push c } →
    ∃ t, r.draft.current = .text t
  /-- The name of an entry whose value is read is text that was outside quotation marks. -/
  name : r.draft.side = .value → ∃ before, Visits body before ∧ r.CrossedFrom before
  /-- A composite comes up only where no string has been read. -/
  composite : ∀ inside, Enters r inside → r.draft.quoted = false
  /-- A draft with a composite is not marked as a string. -/
  unquoted : ∀ v, r.draft.current = .composite v → r.draft.quoted = false
  /-- A finished entry is named only if an equals sign has been crossed, so the entries of a list
  have no names. -/
  keyed : ∀ key v, Entry.named key v ∈ r.flush → r.keyed = true
  /-- A round goes over at least one character. -/
  goes : ∀ s, Goes r s → ∃ token, token ≠ [] ∧ r.cursor.rest = token ++ s.cursor.rest ∧
    s.cursor.past = token.reverse ++ r.cursor.past
  /-- The inside of a composite is a slice of what is to be read, and shorter. -/
  enters : ∀ inside, Enters r inside → (∃ back, r.cursor.rest = '{' :: (inside ++ '}' :: back)) ∧
    inside.length < r.whole.length

theorem Visits.push_text (h : Visits body r) (hrest : r.cursor.rest = c :: rest)
    (hstep : r.step c rest = .proceed { r with
      cursor := ⟨c :: r.cursor.past, rest⟩, draft := r.draft.push c }) :
    ∃ t, r.draft.current = .text t := by
  cases hcurrent : r.draft.current with
  | text t => exact ⟨t, rfl⟩
  | composite v =>
    -- Only the comma is passed behind a composite, and it leaves an empty draft.
    rcases (h.orderly.closed (.inr ⟨v, hcurrent⟩)).eq_nil_or_comma with hnil | ⟨back, hback⟩
    · rw [hrest] at hnil
      cases hnil
    · obtain rfl : c = ',' := (List.cons.inj (hrest.symm.trans hback)).1
      rw [step_comma] at hstep
      have hdraft := congrArg (fun r => r.draft.current) (Move.proceed.inj hstep)
      rw [Draft.push, Draft.current_setCurrent, hcurrent] at hdraft
      cases hdraft

theorem Goes.exists_token (h : Goes r s) : ∃ token, token ≠ [] ∧
    r.cursor.rest = token ++ s.cursor.rest ∧ s.cursor.past = token.reverse ++ r.cursor.past := by
  have hadvance := goes_iff_advance.1 h
  obtain ⟨token, hrest, hpast, -⟩ := hadvance.exists_token
  refine ⟨token, ?_, hrest, hpast⟩
  rintro rfl
  have hlength := hadvance.length_lt
  rw [hrest] at hlength
  exact absurd hlength (Nat.lt_irrefl _)

theorem Visits.regular (h : Visits body r) : r.Regular body where
  closed hclosed := (h.orderly.closed hclosed).eq_nil_or_comma
  push _ _ hrest hstep := h.push_text hrest hstep
  name hside := h.exists_crossedFrom hside
  composite inside henters := by
    obtain ⟨back, hrest⟩ := henters.exists_rest
    exact Draft.unquoted_of_not_isClosed (h.orderly.not_isClosed hrest (by decide))
  unquoted := h.orderly.unquoted
  keyed _ _ hmem := h.orderly.keyed_flush hmem
  goes _ hgoes := hgoes.exists_token
  enters inside henters := by
    obtain ⟨back, hrest⟩ := henters.exists_rest
    refine ⟨⟨back, hrest⟩, ?_⟩
    rw [whole, hrest]
    simp only [List.length_append, List.length_cons]
    omega

end Reading

/-! ## The depth of a composite -/

/-- The search for the end of a composite with a counter that cannot be lowered below zero: a
closing brace at depth zero has no answer. -/
def closeBraceCounted (depth : Nat) (inQuote : Bool) (inside : List Char) :
    List Char → Option (Option (List Char × List Char))
  | [] => some none
  | c :: rest =>
    if c = '"' ∧ Text.isEscaped inside = false then
      closeBraceCounted depth (!inQuote) (c :: inside) rest
    else if inQuote then closeBraceCounted depth inQuote (c :: inside) rest
    else if c = '{' then closeBraceCounted (depth + 1) inQuote (c :: inside) rest
    else if c = '}' then
      if depth = 0 then none
      else if depth - 1 = 0 then some (some (inside, rest))
      else closeBraceCounted (depth - 1) inQuote (c :: inside) rest
    else closeBraceCounted depth inQuote (c :: inside) rest

/-- The search starts above zero and stops when it comes to zero. -/
theorem closeBraceCounted_eq {depth : Nat} (hdepth : 0 < depth) (inQuote : Bool)
    (inside text : List Char) :
    closeBraceCounted depth inQuote inside text = some (closeBrace depth inQuote inside text) := by
  induction text generalizing depth inQuote inside with
  | nil => rfl
  | cons c text ih =>
    rw [closeBraceCounted]
    by_cases hmark : c = '"' ∧ Text.isEscaped inside = false
    · rw [if_pos hmark, ih hdepth, closeBrace_mark hmark]
    · rw [if_neg hmark]
      cases inQuote with
      | true => rw [if_pos rfl, ih hdepth, closeBrace_inQuote hmark]
      | false =>
        rw [if_neg Bool.false_ne_true]
        by_cases hopen : c = '{'
        · subst hopen
          rw [if_pos rfl, ih (Nat.succ_pos depth), closeBrace_open]
        · rw [if_neg hopen]
          by_cases hclose : c = '}'
          · subst hclose
            rw [if_pos rfl, if_neg (Nat.ne_of_gt hdepth)]
            by_cases hlast : depth - 1 = 0
            · rw [if_pos hlast, closeBrace_last hlast]
            · rw [if_neg hlast, ih (Nat.pos_of_ne_zero hlast), closeBrace_close hlast]
          · rw [if_neg hclose, ih hdepth, closeBrace_plain hmark hopen hclose]

namespace Reading

/-- **The reader comes through regular states only.**  Every state is regular that the reader of a
body or of a composite in it comes through, and the value of a body is what the last of the states
makes of it.  In the search for the end of a composite the depth is above zero whenever it is
lowered. -/
theorem visits_regular (body : List Char) :
    (∀ r, Visits body r → r.Regular body) ∧
    (∀ v, parseBody body = .ok v ↔
      ∃ r, ReflTransGen Goes (start body) r ∧ r.cursor.rest = [] ∧ r.result = v) ∧
    ∀ text, closeBraceCounted 1 false [] text = some (closeBrace 1 false [] text) :=
  ⟨fun _ h => h.regular, fun _ => parseBody_eq_ok_iff_goes,
    closeBraceCounted_eq Nat.one_pos false []⟩

/-- A body with a named composite and another entry. -/
def compositeBody : List Char := ['a', '=', '{', '"', 'x', '"', '}', ' ', ',', 'b']

/-- The state behind the composite of that body. -/
def behindComposite : Reading where
  cursor := ⟨[' ', '}', '"', 'x', '"', '{', '=', 'a'], [',', 'b']⟩
  draft := { side := .value, name := .text "a", value := .composite (.string "x") }
  keyed := true

/-- The state behind the composite is visited and regular. -/
theorem regular_behindComposite :
    Visits compositeBody behindComposite ∧ behindComposite.Regular compositeBody := by
  have hname : Visits compositeBody { start compositeBody with
      cursor := ⟨['a'], compositeBody.tail⟩, draft := { name := .text "a" } } :=
    .goes .start (.proceed rfl (by decide +kernel))
  have hequals : Visits compositeBody { start compositeBody with
      cursor := ⟨['=', 'a'], compositeBody.tail.tail⟩
      draft := { side := .value, name := .text "a" }
      keyed := true } := .goes hname (.proceed rfl (by decide +kernel))
  have hstring : Goes (start ['"', 'x', '"']) { start ['"', 'x', '"'] with
      cursor := ⟨['"', 'x', '"'], []⟩, draft := { name := .text "x", quoted := true } } :=
    .proceed rfl (by decide +kernel)
  have hinside : parseBody ['"', 'x', '"'] = .ok (.string "x") :=
    parseBody_eq_ok_iff_goes.2 ⟨_, .single hstring, rfl, by decide +kernel⟩
  have hstep : Reading.step { start compositeBody with
      cursor := ⟨['=', 'a'], compositeBody.tail.tail⟩
      draft := { side := .value, name := .text "a" }
      keyed := true } '{' compositeBody.tail.tail.tail =
        .descend ['"', 'x', '"'] ⟨['}', '"', 'x', '"', '{', '=', 'a'], [' ', ',', 'b']⟩ := by
    decide +kernel
  have hvisits : Visits compositeBody behindComposite := .goes hequals (.take rfl hstep hinside rfl)
  exact ⟨hvisits, (visits_regular compositeBody).1 _ hvisits⟩

end Reading

end DocFacts
