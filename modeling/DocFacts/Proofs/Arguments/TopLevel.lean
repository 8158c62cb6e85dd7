import DocFacts.Proofs.Arguments.Advance
import DocFacts.Proofs.Text.Guarded

/-!
# The top level of a body

A flat pass is at the top level when it is outside quotation marks and no brace is open.  Strings
and composites lie below it: a pass goes down at their first character, comes back with their last
(`through_string`, `through_composite`), and is never at the top level in between.

The reader of a body only stops at the top level of what it reads.  `Advance.exists_token` says so
for one advance, and `Reads.onTop` for a chain of them.
-/

namespace DocFacts

/-- Strings are the same behind texts that escape alike. -/
theorem Quotable.congr {past past' body : List Char} (h : Quotable past body)
    (hpast : Text.isEscaped past' = Text.isEscaped past) : Quotable past' body := by
  induction body generalizing past past' with
  | nil => exact hpast.trans h
  | cons c body ih =>
    refine ⟨fun hc => h.1 ⟨hc.1, hpast ▸ hc.2⟩, ih h.2 (Text.isEscaped_cons_congr hpast c)⟩

namespace Pass

variable {p q : Pass} {d : Char}

/-- The pass is outside quotation marks and outside every composite. -/
def AtTop (p : Pass) : Prop := p.inQuote = false ∧ p.depth = 0

instance (p : Pass) : Decidable p.AtTop := inferInstanceAs (Decidable (_ ∧ _))

/-- The character is the given one, at the top level. -/
def TopLevel (d : Char) (p : Pass) (c : Char) : Prop := c = d ∧ p.AtTop

instance (d : Char) (p : Pass) (c : Char) : Decidable (TopLevel d p c) :=
  inferInstanceAs (Decidable (_ ∧ _))

/-- The character is the given one, outside quotation marks. -/
def Unquoted (d : Char) (p : Pass) (c : Char) : Prop := c = d ∧ p.inQuote = false

/-- The character opens a string or a composite. -/
def Opens (p : Pass) (c : Char) : Prop := p.IsMark c ∨ c = '{'

instance (p : Pass) (c : Char) : Decidable (p.Opens c) := inferInstanceAs (Decidable (_ ∨ _))

/-! ## Texts with a character of a kind -/

section Meets

variable {kind : Pass → Char → Prop}

/-- The pass meets a character of the kind in the text. -/
def Meets (p : Pass) (kind : Pass → Char → Prop) (text : List Char) : Prop :=
  ∃ front c back, text = front ++ c :: back ∧ kind (p.through front) c

theorem not_meets_nil : ¬ p.Meets kind [] := by
  rintro ⟨front, c, back, htext, -⟩
  simp at htext

theorem meets_cons {c : Char} {text : List Char} :
    p.Meets kind (c :: text) ↔ kind p c ∨ (p.step c).Meets kind text := by
  constructor
  · rintro ⟨front, e, back, htext, he⟩
    cases front with
    | nil =>
      obtain ⟨rfl, -⟩ := List.cons.inj htext
      exact .inl he
    | cons f front =>
      obtain ⟨rfl, hrest⟩ := List.cons.inj htext
      exact .inr ⟨front, e, back, hrest, he⟩
  · rintro (hc | ⟨front, e, back, rfl, he⟩)
    · exact ⟨[], c, text, rfl, hc⟩
    · exact ⟨c :: front, e, back, rfl, he⟩

theorem meets_append {front back : List Char} :
    p.Meets kind (front ++ back) ↔ p.Meets kind front ∨ (p.through front).Meets kind back := by
  induction front generalizing p with
  | nil => simp [not_meets_nil]
  | cons c front ih => rw [List.cons_append, meets_cons, meets_cons, ih, or_assoc, through_cons]

theorem Meets.imp {kind' : Pass → Char → Prop} {text : List Char} (h : p.Meets kind text)
    (himp : ∀ q c, kind q c → kind' q c) : p.Meets kind' text := by
  obtain ⟨front, c, back, rfl, hc⟩ := h
  exact ⟨front, c, back, rfl, himp _ c hc⟩

theorem meets_singleton {c : Char} : p.Meets kind [c] ↔ kind p c := by
  rw [meets_cons, or_iff_left not_meets_nil]

instance decidableMeets (p : Pass) (kind : Pass → Char → Prop)
    [∀ (q : Pass) (c : Char), Decidable (kind q c)] :
    (text : List Char) → Decidable (p.Meets kind text)
  | [] => isFalse not_meets_nil
  | c :: text =>
    have := decidableMeets (p.step c) kind text
    decidable_of_iff _ meets_cons.symm

end Meets

theorem TopLevel.unquoted (d : Char) (q : Pass) (c : Char) (h : TopLevel d q c) :
    Unquoted d q c :=
  ⟨h.1, h.2.1⟩

/-! ## Strings -/

/-- Between quotation marks a pass stays there over what can stand there. -/
theorem through_quotable {body : List Char} (hq : p.inQuote = true) (h : Quotable p.past body) :
    p.through body = ⟨body.reverse ++ p.past, true, p.depth⟩ := by
  induction body generalizing p with
  | nil =>
    obtain ⟨past, inQuote, depth⟩ := p
    cases hq
    rfl
  | cons c body ih =>
    rw [through_cons, step_inQuote h.1 hq, ih rfl h.2]
    simp

/-- In front of the last mark of a string a pass is between quotation marks. -/
theorem through_mark_quotable {inside : List Char} (hq : p.inQuote = false)
    (hescaped : Text.isEscaped p.past = false) (hinside : Quotable [] inside) :
    p.through ('"' :: inside) = ⟨inside.reverse ++ '"' :: p.past, true, p.depth⟩ := by
  have hbody : Quotable ('"' :: p.past) inside :=
    hinside.congr (Text.isEscaped_cons_of_ne (by decide) _)
  rw [through_cons, step_mark ⟨rfl, hescaped⟩, hq, Bool.not_false, through_quotable rfl hbody]

/-- The last mark of a string closes it. -/
theorem closesQuote_through {inside : List Char} (hq : p.inQuote = false)
    (hescaped : Text.isEscaped p.past = false) (hinside : Quotable [] inside) :
    (p.through ('"' :: inside)).ClosesQuote '"' := by
  rw [through_mark_quotable hq hescaped hinside]
  exact ⟨rfl, rfl, isEscaped_of_quotable hinside (Text.isEscaped_cons_of_ne (by decide) _)⟩

/-- A pass goes over a string. -/
theorem through_string {inside : List Char} (hq : p.inQuote = false)
    (hescaped : Text.isEscaped p.past = false) (hinside : Quotable [] inside) :
    p.through ('"' :: (inside ++ ['"'])) =
      ⟨'"' :: (inside.reverse ++ '"' :: p.past), false, p.depth⟩ := by
  have hmark := (closesQuote_through hq hescaped hinside).2
  rw [← List.cons_append, through_append, through_cons, through_nil, step_mark hmark,
    through_mark_quotable hq hescaped hinside]
  rfl

/-- Between quotation marks nothing is unquoted. -/
theorem not_meets_quotable {body : List Char} (hq : p.inQuote = true)
    (h : Quotable p.past body) : ¬ p.Meets (Unquoted d) (body ++ ['"']) := by
  have hquoted {q : Pass} {c : Char} (hq : q.inQuote = true) : ¬ Unquoted d q c := by
    rintro ⟨-, hnot⟩
    rw [hq] at hnot
    cases hnot
  induction body generalizing p with
  | nil =>
    rw [List.nil_append, meets_singleton]
    exact hquoted hq
  | cons c body ih =>
    rw [List.cons_append, meets_cons, step_inQuote h.1 hq]
    exact not_or.2 ⟨hquoted hq, ih rfl h.2⟩

/-- A string has nothing unquoted but its first mark. -/
theorem not_meets_string {inside : List Char} (hd : d ≠ '"')
    (hescaped : Text.isEscaped p.past = false) (hq : p.inQuote = false)
    (hinside : Quotable [] inside) : ¬ p.Meets (Unquoted d) ('"' :: (inside ++ ['"'])) := by
  have hbody : Quotable ('"' :: p.past) inside :=
    hinside.congr (Text.isEscaped_cons_of_ne (by decide) _)
  rw [meets_cons, step_mark ⟨rfl, hescaped⟩, hq]
  rintro (⟨rfl, -⟩ | hmeets)
  · exact hd rfl
  · exact not_meets_quotable rfl hbody hmeets

/-! ## Composites -/

theorem Inside.through {surplus : Nat} {text : List Char} (h : p.Inside q surplus)
    (hstray : p.NoStray text) : (p.through text).Inside (q.through text) surplus := by
  induction text generalizing p q with
  | nil => exact h
  | cons c text ih => exact ih (h.step hstray.1) hstray.2

/-- With more braces open around it a text has no stray braces, either. -/
theorem Inside.noStray {surplus : Nat} {text : List Char} (h : p.Inside q surplus)
    (hstray : p.NoStray text) : q.NoStray text := by
  induction text generalizing p q with
  | nil => trivial
  | cons c text ih =>
    obtain ⟨hc, htext⟩ := noStray_cons.1 hstray
    refine noStray_cons.2 ⟨?_, ih (h.step hc) htext⟩
    rintro ⟨hq, hclose, hd⟩
    have hdepth := h.depth
    exact hc ⟨h.inQuote.symm.trans hq, hclose, by omega⟩

@[simp] theorem past_through (text : List Char) :
    (p.through text).past = text.reverse ++ p.past := by
  induction text generalizing p with
  | nil => rfl
  | cons c text ih => rw [through_cons, ih, past_step, List.reverse_cons, List.append_assoc]; rfl

/-- Behind an opening brace a pass reads on as a pass over a body of its own does. -/
theorem inside_step_open (hq : p.inQuote = false) : Inside {} (p.step '{') (p.depth + 1) := by
  rw [step_open hq]
  exact ⟨Text.isEscaped_cons_of_ne (by decide) _, rfl, by simp⟩

theorem eq_mk {past : List Char} {inQuote : Bool} {depth : Nat} (hpast : p.past = past)
    (hinQuote : p.inQuote = inQuote) (hdepth : p.depth = depth) : p = ⟨past, inQuote, depth⟩ := by
  cases p
  cases hpast
  cases hinQuote
  cases hdepth
  rfl

/-- In front of the last brace of a composite a pass is one brace deep. -/
theorem through_open_balanced {inside : List Char} (hq : p.inQuote = false)
    (hinside : Balanced {} inside) :
    p.through ('{' :: inside) = ⟨inside.reverse ++ '{' :: p.past, false, p.depth + 1⟩ := by
  have hend := (inside_step_open hq).through hinside.noStray
  have hinQuote := hend.inQuote.trans hinside.outside
  have hdepth := hend.depth
  rw [hinside.closed, Nat.zero_add] at hdepth
  have hpast := past_through (p := p) ('{' :: inside)
  rw [List.reverse_cons, List.append_assoc] at hpast
  rw [← through_cons] at hinQuote hdepth
  exact eq_mk hpast hinQuote hdepth

/-- A pass goes over a composite. -/
theorem through_composite {inside : List Char} (hq : p.inQuote = false)
    (hinside : Balanced {} inside) :
    p.through ('{' :: (inside ++ ['}'])) =
      ⟨'}' :: (inside.reverse ++ '{' :: p.past), false, p.depth⟩ := by
  rw [← List.cons_append, through_append, through_open_balanced hq hinside, through_cons,
    through_nil, step_close rfl]
  rfl

/-- A text without stray braces stays below the braces that are open around it. -/
theorem not_meets_inside {surplus : Nat} {text : List Char} (h : p.Inside q (surplus + 1))
    (hstray : p.NoStray text) : ¬ q.Meets (TopLevel d) text := by
  rintro ⟨front, c, back, rfl, -, htop⟩
  have hdepth := (h.through (noStray_append.1 hstray).1).depth
  rw [htop.2] at hdepth
  omega

/-- A composite has nothing at the top level but its first brace. -/
theorem not_meets_composite {inside : List Char} (hopen : d ≠ '{')
    (hinside : Balanced {} inside) (hq : p.inQuote = false) :
    ¬ p.Meets (TopLevel d) ('{' :: (inside ++ ['}'])) := by
  have hbelow := inside_step_open hq
  rw [meets_cons, meets_append, meets_cons]
  rintro (⟨rfl, -⟩ | hmeets | ⟨-, htop⟩ | hmeets)
  · exact hopen rfl
  · exact not_meets_inside hbelow hinside.noStray hmeets
  · have hdepth := (hbelow.through hinside.noStray).depth
    rw [htop.2] at hdepth
    omega
  · exact not_meets_nil hmeets

/-! ## Plain text -/

/-- At the top level a character that opens nothing leaves the pass there. -/
theorem step_atTop {c : Char} (htop : p.AtTop) (h : ¬ p.Opens c) :
    p.step c = ⟨c :: p.past, false, 0⟩ := by
  obtain ⟨hq, hd⟩ := htop
  by_cases hclose : c = '}'
  · subst hclose
    rw [step_close hq, hd]
  · rw [step_plain hq (fun hm => h (.inl hm)) (fun ho => h (.inr ho)) hclose, hd]

theorem not_opens {c : Char} (hmark : c ≠ '"') (hopen : c ≠ '{') : ¬ p.Opens c :=
  fun h => h.elim (fun hm => hmark hm.1) hopen

/-- A pass goes over text that opens nothing and stays at the top level. -/
theorem through_plain {text : List Char} (htop : p.AtTop) (hopens : ¬ p.Meets Opens text) :
    p.through text = ⟨text.reverse ++ p.past, false, 0⟩ := by
  induction text generalizing p with
  | nil => exact eq_mk rfl htop.1 htop.2
  | cons c text ih =>
    obtain ⟨hc, htext⟩ := not_or.1 (fun hor => hopens (meets_cons.2 hor))
    rw [step_atTop htop hc] at htext
    rw [through_cons, step_atTop htop hc, ih ⟨rfl, rfl⟩ htext]
    simp

/-- Blank characters open nothing. -/
theorem not_opens_of_isBlank {c : Char} (hc : Text.isBlank c = true) : ¬ p.Opens c := by
  rintro (⟨rfl, -⟩ | rfl)
  · cases hc
  · cases hc

theorem not_meets_opens_blanks {blanks : List Char}
    (hblanks : ∀ c ∈ blanks, Text.isBlank c = true) : ¬ p.Meets Opens blanks := by
  rintro ⟨front, c, back, rfl, hc⟩
  exact not_opens_of_isBlank (hblanks c (List.mem_append_right _ List.mem_cons_self)) hc

theorem through_blanks {blanks : List Char} (hblanks : ∀ c ∈ blanks, Text.isBlank c = true)
    (htop : p.AtTop) : p.through blanks = ⟨blanks.reverse ++ p.past, false, 0⟩ :=
  through_plain htop (not_meets_opens_blanks hblanks)

end Pass

/-! ## The reader -/

namespace Reading

variable {r s : Reading}

/-- The body that is being read. -/
def whole (r : Reading) : List Char := r.cursor.past.reverse ++ r.cursor.rest

/-- The place of the reader as a flat pass. -/
def pass (r : Reading) : Pass := ⟨r.cursor.past, false, 0⟩

/-- A pass over what has been read is at the top level. -/
def OnTop (r : Reading) : Prop := Pass.through {} r.cursor.past.reverse = r.pass

theorem through_pass {c : Char} (h : ¬ r.pass.Opens c) :
    r.pass.through [c] = ⟨c :: r.cursor.past, false, 0⟩ :=
  Pass.step_atTop ⟨rfl, rfl⟩ h

/-- An advance is over a token, and a pass over the token comes back to the top level. -/
theorem Advance.exists_token (h : Advance r s) :
    ∃ token, r.cursor.rest = token ++ s.cursor.rest ∧
      s.cursor.past = token.reverse ++ r.cursor.past ∧ r.pass.through token = s.pass := by
  cases h with
  | @string inside back hrest hescaped hinside hback =>
    refine ⟨'"' :: (inside ++ ['"']), by simp [hrest], by simp, ?_⟩
    exact Pass.through_string rfl hescaped hinside
  | equals hrest hside =>
    exact ⟨['='], hrest, rfl, through_pass (Pass.not_opens (by decide) (by decide))⟩
  | comma hrest =>
    exact ⟨[','], hrest, rfl, through_pass (Pass.not_opens (by decide) (by decide))⟩
  | @composite inside gap back v hrest hinside hvalue hgap hback =>
    refine ⟨'{' :: (inside ++ ['}']) ++ gap, by simp [hrest, take], by simp [take], ?_⟩
    rw [Pass.through_append, Pass.through_composite rfl hinside,
      Pass.through_blanks hgap ⟨rfl, rfl⟩]
    rfl
  | stray hrest =>
    exact ⟨['}'], hrest, rfl, through_pass (Pass.not_opens (by decide) (by decide))⟩
  | @text c back hrest hmark hequals hcomma hopen hclose =>
    have hopens : ¬ r.pass.Opens c := fun h => h.elim hmark hopen
    exact ⟨[c], hrest, rfl, through_pass hopens⟩

/-- An advance stays in the body. -/
theorem Advance.whole_eq (h : Advance r s) : s.whole = r.whole := by
  obtain ⟨token, hrest, hpast, -⟩ := h.exists_token
  rw [whole, whole, hrest, hpast]
  simp

/-- An advance leads from the top level to the top level. -/
theorem Advance.onTop (h : Advance r s) (hr : r.OnTop) : s.OnTop := by
  obtain ⟨token, -, hpast, htoken⟩ := h.exists_token
  rw [OnTop, hpast, List.reverse_append, List.reverse_reverse, Pass.through_append, hr, htoken]

theorem Reads.whole_eq (h : Reads r s) : s.whole = r.whole := by
  induction h with
  | refl => rfl
  | tail _ hlast ih => exact hlast.whole_eq.trans ih

theorem Reads.onTop (h : Reads r s) (hr : r.OnTop) : s.OnTop := by
  induction h with
  | refl => exact hr
  | tail _ hlast ih => exact hlast.onTop ih

theorem onTop_start (body : List Char) : (start body).OnTop := rfl

/-! ## Text without strings and composites -/

/-- The reader goes over text that opens and separates nothing, and keeps it without its stray
braces. -/
theorem reads_plain {text back seen : List Char} (hopens : ¬ r.pass.Meets Pass.Opens text)
    (hcomma : ',' ∉ text) (hequals : r.draft.side = .name → '=' ∉ text)
    (hrest : r.cursor.rest = text ++ back)
    (hcurrent : r.draft.current = .text (String.ofList seen)) :
    Reads r { r with
      cursor := ⟨text.reverse ++ r.cursor.past, back⟩
      draft := r.draft.setCurrent (.text (String.ofList (seen ++ text.filter (· ≠ '}')))) } := by
  induction text generalizing r seen with
  | nil =>
    obtain ⟨⟨past, rest⟩, entries, draft, keyed, separated⟩ := r
    obtain rfl : rest = back := hrest
    rw [List.filter_nil, List.append_nil, ← hcurrent, Draft.setCurrent_current]
    exact .refl
  | cons c text ih =>
    obtain ⟨hc, htext⟩ := not_or.1 (fun hor => hopens (Pass.meets_cons.2 hor))
    obtain ⟨hne, hmem⟩ := List.ne_and_not_mem_of_not_mem_cons hcomma
    rw [Pass.step_atTop ⟨rfl, rfl⟩ hc] at htext
    rw [List.reverse_cons, List.append_assoc, List.singleton_append]
    by_cases hclose : c = '}'
    · subst hclose
      have hfilter : ('}' :: text).filter (· ≠ '}') = text.filter (· ≠ '}') := by simp
      rw [hfilter]
      exact .head (.stray hrest) (ih
        (r := { r with cursor := ⟨'}' :: r.cursor.past, text ++ back⟩ }) htext hmem
        (fun hside h => hequals hside (List.mem_cons_of_mem _ h)) rfl hcurrent)
    · have hpush := Draft.push_eq hcurrent c
      have hstep : Advance r { r with
          cursor := ⟨c :: r.cursor.past, text ++ back⟩, draft := r.draft.push c } := by
        refine .text hrest (fun h => hc (.inl h)) ?_ hne.symm (fun h => hc (.inr h)) hclose
        rintro ⟨rfl, hside⟩
        exact hequals hside List.mem_cons_self
      have hcurrent' : (r.draft.push c).current = .text (String.ofList (seen ++ [c])) := by
        rw [hpush, Draft.current_setCurrent]
      have hside : (r.draft.push c).side = r.draft.side := Draft.side_setCurrent _
      have hreads : Reads _ _ := ih (r := { r with
        cursor := ⟨c :: r.cursor.past, text ++ back⟩, draft := r.draft.push c }) htext hmem
        (fun h h' => hequals (hside.symm.trans h) (List.mem_cons_of_mem _ h')) rfl hcurrent'
      have hfilter : seen ++ (c :: text).filter (· ≠ '}') =
          seen ++ [c] ++ text.filter (· ≠ '}') := by simp [hclose]
      rw [hpush] at hstep hreads
      rw [Draft.setCurrent_setCurrent] at hreads
      rw [hfilter]
      exact .head hstep hreads

/-- The reader goes over characters of a class that opens, closes and separates nothing. -/
theorem reads_class {p : Char → Bool} {text back seen : List Char}
    (hp : ['"', '{', '}', ',', '='].all (fun d => !p d) = true) (htext : ∀ c ∈ text, p c = true)
    (hrest : r.cursor.rest = text ++ back)
    (hcurrent : r.draft.current = .text (String.ofList seen)) :
    Reads r { r with
      cursor := ⟨text.reverse ++ r.cursor.past, back⟩
      draft := r.draft.setCurrent (.text (String.ofList (seen ++ text))) } := by
  have hne {c d : Char} (hc : c ∈ text) (hd : d ∈ ['"', '{', '}', ',', '=']) : c ≠ d := by
    rintro rfl
    exact Text.not_mem_of_class (htext c hc) hp hd
  have hopens : ¬ r.pass.Meets Pass.Opens text := by
    rintro ⟨front, c, back, rfl, hc⟩
    have hmem : c ∈ front ++ c :: back := List.mem_append_right _ List.mem_cons_self
    exact Pass.not_opens (hne hmem (by decide)) (hne hmem (by decide)) hc
  have hfilter : text.filter (· ≠ '}') = text :=
    List.filter_eq_self.2 fun c hc => by simpa using hne hc (by decide)
  have hreads := reads_plain hopens (fun hmem => hne hmem (by decide) rfl)
    (fun _ hmem => hne hmem (by decide) rfl) hrest hcurrent
  rwa [hfilter] at hreads

end Reading

end DocFacts
