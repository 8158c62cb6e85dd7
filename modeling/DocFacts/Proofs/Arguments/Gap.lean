import DocFacts.Proofs.Arguments.Echo
import DocFacts.Proofs.Arguments.Outline

/-!
# Blank characters behind a separator

Behind a comma, behind an opening brace, and behind the equals sign that follows a name a token
starts, and the blank characters in front of a token are trimmed.  So blank characters can be put
at such a place, at any depth, and the body is read as before (`parseBody_gap`).

`Reading.run_gap` follows the reader up to the place.  It is by induction on what is left to read,
which covers the inside of a composite, too: the place is behind the next token, or inside it.  In
the latter case the token is the separator itself, or a composite.
-/

namespace DocFacts

/-- What stands far behind makes no difference to what may follow. -/
theorem MayFollow.append_cons {depth : Nat} {front back back' : List Char} {c : Char}
    (h : MayFollow depth (front ++ c :: back)) : MayFollow depth (front ++ c :: back') := by
  cases front with
  | nil => exact h
  | cons d front => exact h

namespace Outline.Breaks

variable {o : Outline} {c : Char}

theorem mem (h : o.Breaks c) : c ∈ [',', '{', '='] := by
  obtain ⟨-, rfl | rfl | ⟨rfl, -⟩⟩ := h
  all_goals decide

theorem ne (h : o.Breaks c) {d : Char} (hd : d ∉ [',', '{', '=']) : c ≠ d := by
  rintro rfl
  exact hd h.mem

theorem not_blank (h : o.Breaks c) : Text.isBlank c = false := by
  obtain ⟨-, rfl | rfl | ⟨rfl, -⟩⟩ := h
  all_goals decide

end Outline.Breaks

namespace Pass

variable {p q : Pass} {c : Char} {text blanks : List Char}

/-! ## Blank characters in front of a text -/

/-- Passes at the same level find the same texts balanced. -/
theorem Inside.balanced_iff (h : p.Inside q 0) : q.Balanced text ↔ p.Balanced text := by
  induction text generalizing p q with
  | nil => rw [balanced_nil, balanced_nil, h.inQuote, h.depth, Nat.add_zero]
  | cons c text ih =>
    rw [balanced_cons, balanced_cons, ih (h.step_same c), Strays, Strays, h.inQuote, h.depth,
      Nat.add_zero]

theorem inside_blank (hc : Text.isBlank c = true) (hq : p.inQuote = false)
    (hescaped : Text.isEscaped p.past = false) : p.Inside (p.step c) 0 := by
  have hne {d : Char} (hd : Text.isBlank d = false) : c ≠ d := Text.ne_of_class hc hd
  rw [step_plain hq (fun hm => hne (by decide) hm.1) (hne (by decide)) (hne (by decide))]
  refine ⟨?_, hq.symm, rfl⟩
  rw [hescaped, Text.isEscaped_cons_of_ne (hne (by decide))]

theorem balanced_blanks_iff (hblanks : ∀ c ∈ blanks, Text.isBlank c = true)
    (hq : p.inQuote = false) (hescaped : Text.isEscaped p.past = false) :
    p.Balanced (blanks ++ text) ↔ p.Balanced text := by
  induction blanks generalizing p with
  | nil => rfl
  | cons c blanks ih =>
    obtain ⟨hc, hblanks⟩ := List.forall_mem_cons.1 hblanks
    have hsame := inside_blank hc hq hescaped
    have hstray : ¬ p.Strays c := by
      rintro ⟨-, rfl, -⟩
      cases hc
    rw [List.cons_append, balanced_cons, and_iff_right hstray,
      ih hblanks (hsame.inQuote.trans hq) (hsame.escaped.trans hescaped), hsame.balanced_iff]

theorem accepts_blanks_iff (hblanks : ∀ c ∈ blanks, Text.isBlank c = true)
    (hq : p.inQuote = false) (hescaped : Text.isEscaped p.past = false) :
    p.Accepts (blanks ++ text) ↔ p.Accepts text := by
  induction blanks generalizing p with
  | nil => rfl
  | cons c blanks ih =>
    obtain ⟨hc, hblanks⟩ := List.forall_mem_cons.1 hblanks
    have hsame := inside_blank hc hq hescaped
    have hallows : p.Allows c (blanks ++ text) := by
      refine ⟨fun hquote => ?_, fun hbrace => ?_⟩
      · rw [hquote.2.1] at hc
        cases hc
      · rw [hbrace.2.1] at hc
        cases hc
    rw [List.cons_append, accepts_cons, and_iff_right hallows,
      ih hblanks (hsame.inQuote.trans hq) (hsame.escaped.trans hescaped), hsame.accepts_iff]

/-! ## Blank characters in a text -/

theorem balanced_append {front back : List Char} :
    p.Balanced (front ++ back) ↔ p.NoStray front ∧ (p.through front).Balanced back := by
  induction front generalizing p with
  | nil => exact (and_iff_right trivial).symm
  | cons c front ih =>
    rw [List.cons_append, balanced_cons, ih, noStray_cons, through_cons, and_assoc]

/-- Whether a text is accepted up to a character that is not blank does not depend on what stands
behind it. -/
theorem accepts_append_cons_congr {front back back' : List Char} (hc : Text.isBlank c = false)
    (h : (p.through front).Accepts (c :: back) ↔ (p.through front).Accepts (c :: back')) :
    p.Accepts (front ++ c :: back) ↔ p.Accepts (front ++ c :: back') := by
  induction front generalizing p with
  | nil => exact h
  | cons d front ih =>
    have hdrop (rest : List Char) : Text.dropBlank (front ++ c :: rest) =
        Text.dropBlank front ++ c :: rest := List.dropWhile_append_cons hc front rest
    have hallows : p.Allows d (front ++ c :: back) ↔ p.Allows d (front ++ c :: back') := by
      rw [Allows, Allows, hdrop, hdrop]
      exact and_congr
        (imp_congr_right fun _ => ⟨MayFollow.append_cons, MayFollow.append_cons⟩)
        (imp_congr_right fun _ => ⟨MayFollow.append_cons, MayFollow.append_cons⟩)
    rw [List.cons_append, List.cons_append, accepts_cons, accepts_cons, hallows]
    exact and_congr_right fun _ => ih h

section

variable {o : Outline}

/-- Behind a place for blank characters a pass is outside quotation marks. -/
theorem inQuote_step_breaks (h : o.Breaks c) : (o.pass.step c).inQuote = false := by
  obtain ⟨hq, rfl | rfl | ⟨rfl, -⟩⟩ := h
  · rw [step_plain hq (fun hm => by cases hm.1) (by decide) (by decide)]
  · rw [step_open hq]
  · rw [step_plain hq (fun hm => by cases hm.1) (by decide) (by decide)]

theorem isEscaped_step_breaks (h : o.Breaks c) :
    Text.isEscaped (o.pass.step c).past = false := by
  rw [past_step]
  exact Text.isEscaped_cons_of_ne (h.ne (by decide)) _

/-- Blank characters at such a place leave a text balanced. -/
theorem balanced_gap_iff (hblanks : ∀ c ∈ blanks, Text.isBlank c = true) {front back : List Char}
    (h : (o.through front).Breaks c) :
    o.pass.Balanced (front ++ c :: (blanks ++ back)) ↔ o.pass.Balanced (front ++ c :: back) := by
  have hquote := inQuote_step_breaks h
  have hescaped := isEscaped_step_breaks h
  rw [Outline.pass_through] at hquote hescaped
  rw [balanced_append, balanced_append, balanced_cons, balanced_cons,
    balanced_blanks_iff hblanks hquote hescaped]

/-- Blank characters at such a place make no difference to whether a text is accepted. -/
theorem accepts_gap_iff (hblanks : ∀ c ∈ blanks, Text.isBlank c = true) {front back : List Char}
    (h : (o.through front).Breaks c) :
    o.pass.Accepts (front ++ c :: (blanks ++ back)) ↔ o.pass.Accepts (front ++ c :: back) := by
  have hquote := inQuote_step_breaks h
  have hescaped := isEscaped_step_breaks h
  rw [Outline.pass_through] at hquote hescaped
  have hallows (rest : List Char) : (o.pass.through front).Allows c rest :=
    ⟨fun hc => absurd hc.2.1 (h.ne (by decide)), fun hc => absurd hc.2.1 (h.ne (by decide))⟩
  refine accepts_append_cons_congr h.not_blank ?_
  rw [accepts_cons, accepts_cons, and_iff_right (hallows _), and_iff_right (hallows _),
    accepts_blanks_iff hblanks hquote hescaped]

end

end Pass

/-! ## The reader -/

namespace Reading

variable {r s : Reading} {v : Value} {c : Char} {blanks : List Char}

/-- In front of a token blank characters make no difference. -/
theorem run_blanks_front (hblanks : ∀ c ∈ blanks, Text.isBlank c = true) (hdraft : s.draft.Fresh)
    (hescaped : Text.isEscaped s.cursor.past = false) (hv : s.run = .ok v) :
    (s.onto (blanks ++ s.cursor.rest)).run = .ok v := by
  have hcurrent : (s.onto (blanks ++ s.cursor.rest)).draft.current =
      .text (String.ofList []) := hdraft.empty
  have hreads := reads_blanks hblanks rfl hcurrent
  have hindents : s.draft.Indents (s.draft.setCurrent (.text (String.ofList ([] ++ blanks)))) := by
    have htoken : Token.Indents (.text "") (.text (String.ofList ([] ++ blanks))) :=
      .text hblanks (by simp)
    have hset := (Draft.Indents.refl s.draft).setCurrent htoken fun hquoted => by
      rw [hdraft.unquoted] at hquoted
      cases hquoted
    rwa [← hdraft.empty, Draft.setCurrent_current] at hset
  have hsame : Text.isEscaped (blanks.reverse ++ s.cursor.past) =
      Text.isEscaped s.cursor.past := by
    rw [Text.isEscaped_append hescaped, hescaped]
    exact Text.isEscaped_blanks fun c hc => hblanks c (List.mem_reverse.1 hc)
  exact hreads.run_eq.trans ((echoes_of_indents s hsame hindents).run_eq_ok hv)

theorem parseBody_blanks_front {body : List Char}
    (hblanks : ∀ c ∈ blanks, Text.isBlank c = true) (hv : parseBody body = .ok v) :
    parseBody (blanks ++ body) = .ok v :=
  run_blanks_front hblanks (s := .start body) Draft.fresh_empty rfl hv

/-- A composite may be exchanged for one with the same value. -/
theorem run_exchange {inside inside' gap back : List Char} {u : Value}
    (hinside' : Pass.Balanced {} inside') (hvalue' : parseBody inside' = .ok u)
    (hgap : ∀ c ∈ gap, Text.isBlank c = true) (hback : MayFollow 0 back)
    (hv : (r.take u ⟨gap.reverse ++ '}' :: (inside.reverse ++ '{' :: r.cursor.past),
      back⟩).run = .ok v) :
    (r.onto ('{' :: (inside' ++ '}' :: (gap ++ back)))).run = .ok v := by
  have hadvance : Advance (r.onto ('{' :: (inside' ++ '}' :: (gap ++ back)))) _ :=
    .composite rfl hinside' hvalue' hgap hback
  have hbrace := Text.isEscaped_append_cons (show '}' ≠ '\\' by decide) gap.reverse
  rw [hadvance.run_eq]
  exact (echoes_of_indents r ((hbrace _).trans (hbrace _).symm) (.refl _)).run_eq_ok hv

/-- The place is at the opening brace of a composite or inside it. -/
theorem run_gap_composite {inside gap front more back : List Char} {u : Value}
    (hblanks : ∀ c ∈ blanks, Text.isBlank c = true) (hinside : Pass.Balanced {} inside)
    (hvalue : parseBody inside = .ok u) (hgap : ∀ c ∈ gap, Text.isBlank c = true)
    (hback : MayFollow 0 back)
    (hv : (r.take u ⟨gap.reverse ++ '}' :: (inside.reverse ++ '{' :: r.cursor.past),
      back⟩).run = .ok v)
    (htoken : '{' :: (inside ++ '}' :: gap) = front ++ c :: more)
    (hbreaks : (r.outline.through front).Breaks c)
    (ih : ∀ {front more : List Char}, inside = front ++ c :: more →
      (Outline.through {} front).Breaks c → parseBody (front ++ c :: (blanks ++ more)) = .ok u) :
    (r.onto (front ++ c :: (blanks ++ (more ++ back)))).run = .ok v := by
  cases front with
  | nil =>
    obtain ⟨rfl, rfl⟩ := List.cons.inj htoken
    have hbalanced : Pass.Balanced {} (blanks ++ inside) :=
      (Pass.balanced_blanks_iff hblanks rfl rfl).2 hinside
    have hrun := run_exchange hbalanced (parseBody_blanks_front hblanks hvalue) hgap hback hv
    simpa using hrun
  | cons d front =>
    obtain ⟨rfl, hsplit⟩ := List.cons.inj htoken
    rcases List.append_eq_append_cons_cases hsplit with ⟨behind, rfl, hbehind⟩ | ⟨behind, rfl, rfl⟩
    · -- Behind the inside there is no such character.
      have hmem : c ∈ '}' :: gap := hbehind ▸ List.mem_append_right behind List.mem_cons_self
      rcases List.mem_cons.1 hmem with hclose | hblank
      · exact absurd hclose (hbreaks.ne (by decide))
      · have hnot := hbreaks.not_blank
        rw [hgap c hblank] at hnot
        cases hnot
    · have hwithin :=
        (r.outline.within_open rfl rfl).through (Pass.noStray_append.1 hinside.noStray).1
      have hbreaks' : (Outline.through {} front).Breaks c := hwithin.breaks_iff.1 hbreaks
      have hbalanced := (Pass.balanced_gap_iff hblanks hbreaks').2 hinside
      have hrun := run_exchange hbalanced (ih rfl hbreaks') hgap hback hv
      simpa using hrun

/-- **Blank characters at a place in front of a token.** -/
theorem run_gap (hblanks : ∀ c ∈ blanks, Text.isBlank c = true) {front back : List Char}
    (hdraft : r.draft.Unvalued) (hrest : r.cursor.rest = front ++ c :: back)
    (hbreaks : (r.outline.through front).Breaks c) (hv : r.run = .ok v) :
    (r.onto (front ++ c :: (blanks ++ back))).run = .ok v := by
  induction hk : r.cursor.rest.length using Nat.strongRecOn
    generalizing r front back v with
  | _ k ih =>
    obtain ⟨d, rest, hcons⟩ := List.exists_cons_of_ne_nil
      (List.append_ne_nil_of_right_ne_nil front (List.cons_ne_nil c back))
    obtain ⟨s, hadvance, hs⟩ := exists_advance (hrest.trans hcons) hv
    obtain ⟨token, htoken, -, -⟩ := hadvance.exists_token
    rcases List.append_eq_append_cons_cases (htoken.symm.trans hrest) with
      ⟨more, rfl, hmore⟩ | ⟨more, hmore, rfl⟩
    · -- The place is behind the token.
      have houtline : (s.outline.through more).Breaks c := by
        rwa [← hadvance.outline_eq htoken, ← Outline.through_append]
      have hnext := ih _ (hk ▸ hadvance.length_lt) (hadvance.unvalued hdraft) hmore houtline hs rfl
      have hfollow : MayFollow 0 s.cursor.rest → MayFollow 0 (more ++ c :: (blanks ++ back)) := by
        rw [hmore]
        exact MayFollow.append_cons
      rw [List.append_assoc, (hadvance.onto htoken fun _ => hfollow).run_eq, hnext]
    · -- The place is in the token.
      have hplace : r.cursor.rest = front ++ c :: (more ++ s.cursor.rest) := hrest
      cases hadvance with
      | @string inside back hrest' hescaped hinside hback =>
        obtain rfl : '"' :: (inside ++ ['"']) = token :=
          List.append_cancel_right (Eq.trans (by simp) (hrest'.symm.trans htoken))
        have hquoted := Pass.not_meets_string (p := r.pass) (hbreaks.ne (by decide)) hescaped rfl
          hinside
        refine absurd ⟨front, c, more, hmore, rfl, ?_⟩ hquoted
        have hq := hbreaks.1
        rwa [Outline.pass_through] at hq
      | @equals back hrest' hside =>
        obtain rfl : ['='] = token := List.append_cancel_right (hrest'.symm.trans htoken)
        obtain ⟨rfl, rfl, rfl⟩ := List.eq_of_singleton_eq_append_cons hmore
        have hfresh : r.draft.crossEquals.Fresh := ⟨hdraft hside, rfl⟩
        have hcross : Advance (r.onto ('=' :: (blanks ++ back))) _ := .equals rfl hside
        have hescaped : Text.isEscaped ('=' :: r.cursor.past) = false :=
          Text.isEscaped_cons_of_ne (by decide) _
        exact hcross.run_eq.trans (run_blanks_front hblanks hfresh hescaped hs)
      | @comma back hrest' =>
        obtain rfl : [','] = token := List.append_cancel_right (hrest'.symm.trans htoken)
        obtain ⟨rfl, rfl, rfl⟩ := List.eq_of_singleton_eq_append_cons hmore
        have hcomma : Advance (r.onto (',' :: (blanks ++ back))) _ := .comma rfl
        have hescaped : Text.isEscaped (',' :: r.cursor.past) = false :=
          Text.isEscaped_cons_of_ne (by decide) _
        exact hcomma.run_eq.trans (run_blanks_front hblanks Draft.fresh_empty hescaped hs)
      | @composite inside gap back u hrest' hinside hvalue hgap hback =>
        obtain rfl : '{' :: (inside ++ '}' :: gap) = token :=
          List.append_cancel_right (Eq.trans (by simp [take]) (hrest'.symm.trans htoken))
        refine run_gap_composite hblanks hinside hvalue hgap hback hs hmore hbreaks ?_
        intro front' more' hinside' hbreaks'
        refine ih inside.length ?_ (r := .start inside) (fun _ => rfl) hinside' hbreaks' hvalue rfl
        rw [← hk, hrest', List.length_cons, List.length_append]
        exact Nat.lt_succ_of_le (Nat.le_add_right _ _)
      | @stray back hrest' =>
        obtain rfl : ['}'] = token := List.append_cancel_right (hrest'.symm.trans htoken)
        obtain ⟨-, hclose, -⟩ := List.eq_of_singleton_eq_append_cons hmore
        exact absurd hclose (hbreaks.ne (by decide))
      | @text d back hrest' hmark hequals hcomma hopen hclose =>
        obtain rfl : [d] = token := List.append_cancel_right (hrest'.symm.trans htoken)
        obtain ⟨rfl, rfl, -⟩ := List.eq_of_singleton_eq_append_cons hmore
        obtain ⟨-, hc | hc | hc⟩ := hbreaks
        · exact absurd hc hcomma
        · exact absurd hc hopen
        · exact absurd hc hequals

end Reading

/-! ## Bodies -/

/-- **Blank characters behind a separator.**  Behind a comma, behind an opening brace and behind
the equals sign that follows a name, blank characters make no difference to the value of a body or
to whether it has one. -/
theorem parseBody_gap {front blanks back : List Char} {c : Char}
    (hbreaks : (Outline.through {} front).Breaks c)
    (hblanks : ∀ d ∈ blanks, Text.isBlank d = true) :
    (parseBody (front ++ c :: (blanks ++ back))).toOption =
      (parseBody (front ++ c :: back)).toOption := by
  have hgap {v : Value} (hv : parseBody (front ++ c :: back) = .ok v) :
      parseBody (front ++ c :: (blanks ++ back)) = .ok v :=
    Reading.run_gap (r := .start (front ++ c :: back)) hblanks (fun _ => rfl) rfl hbreaks hv
  cases hbody : parseBody (front ++ c :: back) with
  | ok v => rw [hgap hbody]
  | error e =>
    cases hbroken : parseBody (front ++ c :: (blanks ++ back)) with
    | error e' => rfl
    | ok v =>
      have haccepts := (Reading.exists_run_eq_ok_iff (.start _)).1 ⟨v, hbroken⟩
      have haccepts' := (Pass.accepts_gap_iff (o := {}) hblanks hbreaks).1 haccepts
      obtain ⟨u, hu⟩ := (Reading.exists_run_eq_ok_iff (.start (front ++ c :: back))).2 haccepts'
      rw [parseBody, hu] at hbody
      cases hbody

end DocFacts
