import DocFacts.Proofs.Arguments.EntryTexts

/-!
# The outline of a body

A flat pass cannot tell an equals sign that separates a name from its value from one inside a
value.  The *outline* of a body can.  It goes over the body as the pass does and keeps which side
of its equals sign an entry is on, for the entry that is being read and, as a stack, for the
entries around it whose composites are open.

The inside of a composite has the same outline on its own and in the whole body, except that the
stack goes deeper in the whole body (`Outline.Within`).  So an advance of the reader leads from the
outline of one state to that of the next (`Reading.Advance.exists_outline`).
-/

namespace DocFacts

/-- Where a flat pass stands among the entries of a body. -/
structure Outline where
  /-- The flat pass. -/
  pass : Pass := {}
  /-- The side of the innermost entry. -/
  side : Side := .name
  /-- The sides of the entries around it, from the inside to the outside. -/
  outer : List Side := []
deriving DecidableEq, Repr

namespace Outline

/-- The outline goes over a character. -/
def step (o : Outline) (c : Char) : Outline :=
  let o' : Outline := { o with pass := o.pass.step c }
  if o.pass.inQuote ∨ o.pass.IsMark c then o'
  else if c = '{' then { o' with side := .name, outer := o.side :: o.outer }
  else if c = '}' then
    match o.outer with
    | [] => o'
    | side :: outer => { o' with side := side, outer := outer }
  else if c = ',' then { o' with side := .name }
  else if c = '=' then { o' with side := .value }
  else o'

/-- The outline goes over a text. -/
def through (o : Outline) (text : List Char) : Outline := text.foldl step o

/-- A line may be broken behind the character: a comma, an opening brace, or the equals sign
behind a name. -/
def Breaks (o : Outline) (c : Char) : Prop :=
  o.pass.inQuote = false ∧ (c = ',' ∨ c = '{' ∨ (c = '=' ∧ o.side = .name))

instance (o : Outline) (c : Char) : Decidable (o.Breaks c) :=
  inferInstanceAs (Decidable (_ ∧ _))

@[simp] theorem through_nil (o : Outline) : o.through [] = o := rfl

@[simp] theorem through_cons (o : Outline) (c : Char) (text : List Char) :
    o.through (c :: text) = (o.step c).through text := rfl

theorem through_append (o : Outline) (front back : List Char) :
    o.through (front ++ back) = (o.through front).through back := List.foldl_append

variable {o o' : Outline} {c : Char}

@[simp] theorem pass_step (o : Outline) (c : Char) : (o.step c).pass = o.pass.step c := by
  simp only [step]
  repeat' split
  all_goals rfl

@[simp] theorem pass_through (o : Outline) (text : List Char) :
    (o.through text).pass = o.pass.through text := by
  induction text generalizing o with
  | nil => rfl
  | cons c text ih => rw [through_cons, ih, pass_step, Pass.through_cons]

/-! ## One step, by the kind of the character -/

/-- In a string and at its marks only the pass goes on. -/
theorem step_quoted (h : o.pass.inQuote = true ∨ o.pass.IsMark c) :
    o.step c = { o with pass := o.pass.step c } := if_pos h

theorem step_open (hq : o.pass.inQuote = false) :
    o.step '{' = ⟨o.pass.step '{', .name, o.side :: o.outer⟩ := by
  simp [step, hq, Pass.IsMark]

theorem step_close (hq : o.pass.inQuote = false) {side : Side} {outer : List Side}
    (houter : o.outer = side :: outer) : o.step '}' = ⟨o.pass.step '}', side, outer⟩ := by
  simp [step, hq, Pass.IsMark, houter]

theorem step_stray (houter : o.outer = []) : o.step '}' = { o with pass := o.pass.step '}' } := by
  simp [step, houter]

theorem step_comma (hq : o.pass.inQuote = false) :
    o.step ',' = { o with pass := o.pass.step ',', side := .name } := by
  simp [step, hq, Pass.IsMark]

theorem step_equals (hq : o.pass.inQuote = false) :
    o.step '=' = { o with pass := o.pass.step '=', side := .value } := by
  simp [step, hq, Pass.IsMark]

/-- At any other character only the pass goes on. -/
theorem step_text (hopen : c ≠ '{') (hclose : c ≠ '}') (hcomma : c ≠ ',') (hequals : c ≠ '=') :
    o.step c = { o with pass := o.pass.step c } := by
  simp [step, hopen, hclose, hcomma, hequals]

/-! ## Outlines of the same text -/

/-- Both outlines are over the same text, the first one over the inside of composites on its own,
and the second one in the whole body, where those composites are values of entries on the given
sides. -/
structure Within (o o' : Outline) (around : List Side) : Prop where
  /-- The passes differ by the braces around the inside. -/
  pass : o.pass.Inside o'.pass around.length
  /-- The innermost entry is the same. -/
  side : o'.side = o.side
  /-- The stack goes deeper in the whole body. -/
  outer : o'.outer = o.outer ++ around
  /-- The stack is as high as braces are open. -/
  depth : o.outer.length = o.pass.depth

variable {around : List Side}

/-- Outlines of the same text step alike, if both passes do. -/
theorem Within.step_of_inside (h : o.Within o' around)
    (hpass : (o.pass.step c).Inside (o'.pass.step c) around.length)
    (hstray : o.pass.Strays c → around = []) : (o.step c).Within (o'.step c) around := by
  have hkept (hstep : o.step c = { o with pass := o.pass.step c })
      (hstep' : o'.step c = { o' with pass := o'.pass.step c })
      (hdepth : (o.pass.step c).depth = o.pass.depth) : (o.step c).Within (o'.step c) around := by
    rw [hstep, hstep']
    exact ⟨hpass, h.side, h.outer, h.depth.trans hdepth.symm⟩
  by_cases hmark : o.pass.IsMark c
  · have hmark' := h.pass.isMark_iff.2 hmark
    exact hkept (step_quoted (.inr hmark)) (step_quoted (.inr hmark'))
      (by rw [Pass.step_mark hmark])
  · cases hq : o.pass.inQuote with
    | true =>
      have hq' : o'.pass.inQuote = true := h.pass.inQuote.trans hq
      exact hkept (step_quoted (.inl hq)) (step_quoted (.inl hq'))
        (by rw [Pass.step_inQuote hmark hq])
    | false =>
      have hq' : o'.pass.inQuote = false := h.pass.inQuote.trans hq
      by_cases hopen : c = '{'
      · subst hopen
        rw [step_open hq, step_open hq']
        refine ⟨hpass, rfl, by rw [h.side, h.outer, List.cons_append], ?_⟩
        rw [Pass.step_open hq, List.length_cons, h.depth]
      · by_cases hclose : c = '}'
        · subst hclose
          have hdepth : (o.pass.step '}').depth = o.pass.depth - 1 := by rw [Pass.step_close hq]
          cases houter : o.outer with
          | nil =>
            have hzero : o.pass.depth = 0 := by rw [← h.depth, houter, List.length_nil]
            obtain rfl := hstray ⟨hq, rfl, hzero⟩
            refine hkept (step_stray houter) (step_stray ?_) (by rw [hdepth, hzero])
            rw [h.outer, houter, List.append_nil]
          | cons side outer =>
            have houter' : o'.outer = side :: (outer ++ around) := by
              rw [h.outer, houter, List.cons_append]
            rw [step_close hq houter, step_close hq' houter']
            refine ⟨hpass, rfl, rfl, ?_⟩
            rw [hdepth, ← h.depth, houter, List.length_cons, Nat.add_sub_cancel]
        · have hdepth : (o.pass.step c).depth = o.pass.depth := by
            rw [Pass.step_plain hq hmark hopen hclose]
          by_cases hcomma : c = ','
          · subst hcomma
            rw [step_comma hq, step_comma hq']
            exact ⟨hpass, rfl, h.outer, h.depth.trans hdepth.symm⟩
          · by_cases hequals : c = '='
            · subst hequals
              rw [step_equals hq, step_equals hq']
              exact ⟨hpass, rfl, h.outer, h.depth.trans hdepth.symm⟩
            · exact hkept (step_text hopen hclose hcomma hequals)
                (step_text hopen hclose hcomma hequals) hdepth

theorem Within.step (h : o.Within o' around) (hstray : ¬ o.pass.Strays c) :
    (o.step c).Within (o'.step c) around :=
  h.step_of_inside (h.pass.step hstray) fun hs => absurd hs hstray

/-- A text without stray braces has the same outline on its own. -/
theorem Within.through {text : List Char} (h : o.Within o' around)
    (hstray : o.pass.NoStray text) : (o.through text).Within (o'.through text) around := by
  induction text generalizing o o' with
  | nil => exact h
  | cons c text ih =>
    obtain ⟨hc, htext⟩ := Pass.noStray_cons.1 hstray
    exact ih (h.step hc) (by rwa [pass_step])

/-- With no entry around it, any text has the same outline. -/
theorem Within.step_same (h : o.Within o' []) (c : Char) : (o.step c).Within (o'.step c) [] :=
  h.step_of_inside (Pass.Inside.step_same h.pass c) fun _ => rfl

theorem Within.breaks_iff (h : o.Within o' around) : o'.Breaks c ↔ o.Breaks c := by
  rw [Breaks, Breaks, h.pass.inQuote, h.side]

/-! ## Strings, composites and blank characters -/

theorem through_quoted {body : List Char} (hq : o.pass.inQuote = true)
    (h : Quotable o.pass.past body) :
    o.through body = { o with pass := o.pass.through body } := by
  induction body generalizing o with
  | nil => rfl
  | cons c body ih =>
    have hpass := Pass.step_inQuote h.1 hq
    rw [through_cons, step_quoted (.inl hq), ih]
    · rfl
    · rw [hpass]
    · rw [Pass.past_step]
      exact h.2

/-- A string leaves the entries as they are. -/
theorem through_string {inside : List Char} (hq : o.pass.inQuote = false)
    (hescaped : Text.isEscaped o.pass.past = false) (hinside : Quotable [] inside) :
    o.through ('"' :: (inside ++ ['"'])) =
      { o with pass := o.pass.through ('"' :: (inside ++ ['"'])) } := by
  have hmark : o.pass.IsMark '"' := ⟨rfl, hescaped⟩
  have hstep : o.step '"' = { o with pass := o.pass.step '"' } := step_quoted (.inr hmark)
  have hinQuote : (o.pass.step '"').inQuote = true := by
    rw [Pass.step_mark hmark, hq]
    rfl
  have hbody : Quotable (o.pass.step '"').past inside := by
    rw [Pass.past_step]
    exact hinside.congr (Text.isEscaped_cons_of_ne (by decide) _)
  have hend : ((o.pass.step '"').through inside).inQuote = true := by
    rw [Pass.through_quotable hinQuote hbody]
  have hthrough : ({ o with pass := o.pass.step '"' } : Outline).through inside =
      { o with pass := (o.pass.step '"').through inside } := through_quoted hinQuote hbody
  rw [through_cons, hstep, through_append, hthrough, through_cons, step_quoted (.inl hend),
    through_nil, Pass.through_cons, Pass.through_append]
  rfl

/-- Behind an opening brace the outline goes on as over a body of its own. -/
theorem within_open (hq : o.pass.inQuote = false) (hdepth : o.outer.length = o.pass.depth) :
    Within {} (o.step '{') (o.side :: o.outer) := by
  have hpass := Pass.inside_step_open hq
  rw [step_open hq]
  refine ⟨?_, rfl, rfl, rfl⟩
  rwa [List.length_cons, hdepth]

/-- A composite leaves the entries as they are. -/
theorem through_composite {inside : List Char} (hq : o.pass.inQuote = false)
    (hdepth : o.outer.length = o.pass.depth) (hinside : Pass.Balanced {} inside) :
    o.through ('{' :: (inside ++ ['}'])) =
      { o with pass := o.pass.through ('{' :: (inside ++ ['}'])) } := by
  have hend := (within_open hq hdepth).through hinside.noStray
  have hnone : (Outline.through {} inside).outer = [] := by
    rw [← List.length_eq_zero_iff, hend.depth, pass_through]
    exact hinside.closed
  have houter : ((o.step '{').through inside).outer = o.side :: o.outer := by
    rw [hend.outer, hnone, List.nil_append]
  have hquoted : ((o.step '{').through inside).pass.inQuote = false := by
    rw [hend.pass.inQuote, pass_through]
    exact hinside.outside
  rw [through_cons, through_append, through_cons, through_nil, step_close hquoted houter]
  simp [Pass.through_append]

theorem step_blank (hc : Text.isBlank c = true) :
    o.step c = { o with pass := o.pass.step c } := by
  have hne {d : Char} (hd : Text.isBlank d = false) : c ≠ d := Text.ne_of_class hc hd
  exact step_text (hne (by decide)) (hne (by decide)) (hne (by decide)) (hne (by decide))

theorem through_blanks {blanks : List Char} (hblanks : ∀ c ∈ blanks, Text.isBlank c = true) :
    o.through blanks = { o with pass := o.pass.through blanks } := by
  induction blanks generalizing o with
  | nil => rfl
  | cons c blanks ih =>
    obtain ⟨hc, hblanks⟩ := List.forall_mem_cons.1 hblanks
    rw [through_cons, step_blank hc, ih hblanks]
    rfl

end Outline

/-! ## The reader -/

namespace Reading

variable {r s : Reading}

/-- The outline at the place of the reader. -/
def outline (r : Reading) : Outline := ⟨r.pass, r.draft.side, []⟩

/-- An advance leads from the outline in front of a token to the outline behind it. -/
theorem Advance.outline_eq (h : Advance r s) {token : List Char}
    (htoken : r.cursor.rest = token ++ s.cursor.rest) : r.outline.through token = s.outline := by
  have hpass : r.pass.through token = s.pass := by
    obtain ⟨token', hrest, -, hpass⟩ := h.exists_token
    rwa [List.append_cancel_right (htoken.symm.trans hrest)]
  have hsame (hthrough : r.outline.through token = { r.outline with
      pass := r.outline.pass.through token }) (hside : s.draft.side = r.draft.side) :
      r.outline.through token = s.outline := by
    rw [hthrough, outline, outline, hside, hpass]
  cases h with
  | @string inside back hrest hescaped hinside hback =>
    obtain rfl : '"' :: (inside ++ ['"']) = token :=
      List.append_cancel_right (Eq.trans (by simp) (hrest.symm.trans htoken))
    exact hsame (Outline.through_string rfl hescaped hinside) (Draft.side_setCurrent _)
  | @equals back hrest hside =>
    obtain rfl : ['='] = token := List.append_cancel_right (hrest.symm.trans htoken)
    rw [Outline.through_cons, Outline.step_equals rfl]
    exact congrArg (Outline.mk · .value []) hpass
  | @comma back hrest =>
    obtain rfl : [','] = token := List.append_cancel_right (hrest.symm.trans htoken)
    rw [Outline.through_cons, Outline.step_comma rfl]
    exact congrArg (Outline.mk · .name []) hpass
  | @composite inside gap back v hrest hinside hvalue hgap hback =>
    obtain rfl : '{' :: (inside ++ ['}']) ++ gap = token :=
      List.append_cancel_right (Eq.trans (by simp [take]) (hrest.symm.trans htoken))
    refine hsame ?_ (Draft.side_setCurrent _)
    rw [Outline.through_append, Outline.through_composite rfl rfl hinside,
      Outline.through_blanks hgap, Pass.through_append]
  | @stray back hrest =>
    obtain rfl : ['}'] = token := List.append_cancel_right (hrest.symm.trans htoken)
    have hstep : r.outline.step '}' = { r.outline with pass := r.pass.step '}' } :=
      Outline.step_stray rfl
    exact hsame hstep rfl
  | @text c back hrest hmark hequals hcomma hopen hclose =>
    obtain rfl : [c] = token := List.append_cancel_right (hrest.symm.trans htoken)
    have hstep : r.outline.step c = { r.outline with pass := r.pass.step c } := by
      by_cases hc : c = '='
      · subst hc
        have hside : r.draft.side = .value := by
          cases hside : r.draft.side with
          | name => exact absurd ⟨rfl, hside⟩ hequals
          | value => rfl
        rw [Outline.step_equals rfl, outline, hside]
      · exact Outline.step_text hopen hclose hcomma hc
    exact hsame hstep (Draft.side_setCurrent _)

end Reading

end DocFacts
