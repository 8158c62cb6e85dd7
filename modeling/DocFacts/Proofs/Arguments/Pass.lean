import DocFacts.Arguments.Parser
import DocFacts.Proofs.Text.Backslash

/-!
# A flat pass over a body

A flat pass goes over a body once, from left to right, and never into a part of it.  It keeps
whether it is between quotation marks and how many braces are open.  A quotation mark that is
not escaped changes the first.  Outside quotation marks an opening brace raises the depth, and
a closing brace lowers it unless it is zero already.  Such a closing brace is stray.

A text is *balanced* from a pass when the pass meets no stray brace in it and ends outside
quotation marks at depth zero.  It is *quotable* when it can stand between quotation marks.
`closeBrace_eq_some_iff` and `closeQuote_eq_some_iff` say that the two readers of the parser,
which look for the end of a composite and of a string, find exactly the texts of these kinds.
-/

namespace DocFacts

/-- Where a flat pass stands. -/
structure Pass where
  /-- What has been passed, the last character first. -/
  past : List Char := []
  /-- The pass is between quotation marks. -/
  inQuote : Bool := false
  /-- The number of open braces. -/
  depth : Nat := 0
deriving DecidableEq, Repr

namespace Pass

/-- The character is a quotation mark that is not escaped. -/
def IsMark (p : Pass) (c : Char) : Prop := c = '"' ∧ Text.isEscaped p.past = false

instance (p : Pass) (c : Char) : Decidable (p.IsMark c) :=
  inferInstanceAs (Decidable (_ ∧ _))

/-- The pass goes over a character. -/
def step (p : Pass) (c : Char) : Pass :=
  if p.IsMark c then ⟨c :: p.past, !p.inQuote, p.depth⟩
  else if p.inQuote then ⟨c :: p.past, true, p.depth⟩
  else if c = '{' then ⟨c :: p.past, false, p.depth + 1⟩
  else if c = '}' then ⟨c :: p.past, false, p.depth - 1⟩
  else ⟨c :: p.past, false, p.depth⟩

/-- The pass goes over a text. -/
def through (p : Pass) (text : List Char) : Pass := text.foldl step p

@[simp] theorem through_nil (p : Pass) : p.through [] = p := rfl

@[simp] theorem through_cons (p : Pass) (c : Char) (text : List Char) :
    p.through (c :: text) = (p.step c).through text := rfl

theorem through_append (p : Pass) (front back : List Char) :
    p.through (front ++ back) = (p.through front).through back := List.foldl_append

@[simp] theorem past_step (p : Pass) (c : Char) : (p.step c).past = c :: p.past := by
  unfold step
  repeat' split
  all_goals rfl

/-! ## One step, by the kind of the character -/

theorem step_mark {p : Pass} {c : Char} (h : p.IsMark c) :
    p.step c = ⟨c :: p.past, !p.inQuote, p.depth⟩ := by
  simp [step, h]

theorem step_inQuote {p : Pass} {c : Char} (h : ¬ p.IsMark c) (hq : p.inQuote = true) :
    p.step c = ⟨c :: p.past, true, p.depth⟩ := by
  simp [step, h, hq]

theorem step_open {p : Pass} (hq : p.inQuote = false) :
    p.step '{' = ⟨'{' :: p.past, false, p.depth + 1⟩ := by
  simp [step, IsMark, hq]

theorem step_close {p : Pass} (hq : p.inQuote = false) :
    p.step '}' = ⟨'}' :: p.past, false, p.depth - 1⟩ := by
  simp [step, IsMark, hq]

/-- A character without a meaning outside quotation marks is passed and changes nothing. -/
theorem step_plain {p : Pass} {c : Char} (hq : p.inQuote = false) (hm : ¬ p.IsMark c)
    (ho : c ≠ '{') (hc : c ≠ '}') : p.step c = ⟨c :: p.past, false, p.depth⟩ := by
  simp [step, hm, hq, ho, hc]

/-! ## Texts without stray braces -/

/-- The character is a closing brace that closes nothing. -/
def Strays (p : Pass) (c : Char) : Prop := p.inQuote = false ∧ c = '}' ∧ p.depth = 0

instance (p : Pass) (c : Char) : Decidable (p.Strays c) :=
  inferInstanceAs (Decidable (_ ∧ _ ∧ _))

/-- The pass meets no stray brace in the text. -/
def NoStray (p : Pass) : List Char → Prop
  | [] => True
  | c :: text => ¬ p.Strays c ∧ NoStray (p.step c) text

instance decidableNoStray (p : Pass) : (text : List Char) → Decidable (p.NoStray text)
  | [] => inferInstanceAs (Decidable True)
  | c :: text =>
    have := decidableNoStray (p.step c) text
    inferInstanceAs (Decidable (_ ∧ _))

@[simp] theorem noStray_nil (p : Pass) : p.NoStray [] := trivial

theorem noStray_cons {p : Pass} {c : Char} {text : List Char} :
    p.NoStray (c :: text) ↔ ¬ p.Strays c ∧ (p.step c).NoStray text := Iff.rfl

theorem noStray_append {p : Pass} {front back : List Char} :
    p.NoStray (front ++ back) ↔ p.NoStray front ∧ (p.through front).NoStray back := by
  induction front generalizing p with
  | nil => simp
  | cons c front ih => simp [noStray_cons, ih, and_assoc]

/-- The text opens and closes as many braces as there are open, and no quotation mark is left
open. -/
structure Balanced (p : Pass) (text : List Char) : Prop where
  /-- No brace of the text is stray. -/
  noStray : p.NoStray text
  /-- The pass ends outside quotation marks. -/
  outside : (p.through text).inQuote = false
  /-- The pass ends at depth zero. -/
  closed : (p.through text).depth = 0

theorem balanced_nil {p : Pass} : p.Balanced [] ↔ p.inQuote = false ∧ p.depth = 0 :=
  ⟨fun h => ⟨h.outside, h.closed⟩, fun h => ⟨trivial, h.1, h.2⟩⟩

theorem balanced_cons {p : Pass} {c : Char} {text : List Char} :
    p.Balanced (c :: text) ↔ ¬ p.Strays c ∧ (p.step c).Balanced text :=
  ⟨fun h => ⟨h.noStray.1, h.noStray.2, h.outside, h.closed⟩,
    fun h => ⟨⟨h.1, h.2.noStray⟩, h.2.outside, h.2.closed⟩⟩

end Pass

/-! ## The end of a composite -/

/-- The reader of composites stops at a stray brace and otherwise goes over the text as a pass
does. -/
theorem closeBrace_cons (p : Pass) (c : Char) (text : List Char) :
    closeBrace (p.depth + 1) p.inQuote p.past (c :: text) =
      if p.Strays c then some (p.past, text)
      else closeBrace ((p.step c).depth + 1) (p.step c).inQuote (p.step c).past text := by
  obtain ⟨past, inQuote, depth⟩ := p
  by_cases hmark : Pass.IsMark ⟨past, inQuote, depth⟩ c
  · have hstray : ¬ Pass.Strays ⟨past, inQuote, depth⟩ c := by
      rintro ⟨-, rfl, -⟩
      exact absurd hmark.1 (by decide)
    rw [if_neg hstray, Pass.step_mark hmark, closeBrace_mark hmark]
  · cases inQuote with
    | true => rw [if_neg nofun, Pass.step_inQuote hmark rfl, closeBrace_inQuote hmark]
    | false =>
      by_cases hopen : c = '{'
      · subst hopen
        have hstray : ¬ Pass.Strays ⟨past, false, depth⟩ '{' := nofun
        rw [if_neg hstray, Pass.step_open rfl, closeBrace_open]
      · by_cases hclose : c = '}'
        · subst hclose
          cases depth with
          | zero => rw [if_pos ⟨rfl, rfl, rfl⟩, closeBrace_last rfl]
          | succ depth =>
            have hstray : ¬ Pass.Strays ⟨past, false, depth + 1⟩ '}' := nofun
            rw [if_neg hstray, Pass.step_close rfl, closeBrace_close (Nat.succ_ne_zero depth)]
            rfl
        · have hstray : ¬ Pass.Strays ⟨past, false, depth⟩ c := fun h => hclose h.2.1
          rw [if_neg hstray, Pass.step_plain rfl hmark hopen hclose,
            closeBrace_plain hmark hopen hclose]

/-- The reader of composites cuts a text behind the brace in front of which the text is
balanced. -/
theorem closeBrace_eq_some_iff {p : Pass} {text inside rest : List Char} :
    closeBrace (p.depth + 1) p.inQuote p.past text = some (inside, rest) ↔
      ∃ body, text = body ++ '}' :: rest ∧ inside = body.reverse ++ p.past ∧ p.Balanced body := by
  induction text generalizing p with
  | nil => simp [closeBrace]
  | cons c text ih =>
    rw [closeBrace_cons]
    constructor
    · intro h
      split at h
      · rename_i hs
        simp only [Option.some.injEq, Prod.mk.injEq] at h
        obtain ⟨rfl, rfl⟩ := h
        exact ⟨[], by simp [hs.2.1], rfl, Pass.balanced_nil.2 ⟨hs.1, hs.2.2⟩⟩
      · rename_i hs
        obtain ⟨body, rfl, rfl, hb⟩ := ih.1 h
        exact ⟨c :: body, rfl, by simp, Pass.balanced_cons.2 ⟨hs, hb⟩⟩
    · rintro ⟨body, htext, rfl, hb⟩
      cases body with
      | nil =>
        obtain ⟨rfl, rfl⟩ := List.cons.inj htext
        obtain ⟨hq, hd⟩ := Pass.balanced_nil.1 hb
        rw [if_pos ⟨hq, rfl, hd⟩]
        rfl
      | cons d body =>
        obtain ⟨rfl, hrest⟩ := List.cons.inj htext
        obtain ⟨hs, hb⟩ := Pass.balanced_cons.1 hb
        rw [if_neg hs]
        exact ih.2 ⟨body, hrest, by simp, hb⟩

theorem closeBrace_append {text inside behind : List Char}
    (h : closeBrace 1 false [] text = some (inside, behind)) (more : List Char) :
    closeBrace 1 false [] (text ++ more) = some (inside, behind ++ more) := by
  obtain ⟨body, rfl, hinside, hbody⟩ := (closeBrace_eq_some_iff (p := {})).1 h
  exact (closeBrace_eq_some_iff (p := {})).2 ⟨body, by simp, hinside, hbody⟩

/-! ## The end of a string -/

/-- The text can stand between quotation marks: each mark in it is escaped, and the one behind
it is not.  `past` is what stands in front of the text, the last character first. -/
def Quotable (past : List Char) : List Char → Prop
  | [] => Text.isEscaped past = false
  | c :: text => ¬ (c = '"' ∧ Text.isEscaped past = false) ∧ Quotable (c :: past) text

/-- The reader of strings cuts a text behind the first quotation mark that is not escaped. -/
theorem closeQuote_eq_some_iff {past text inside rest : List Char} :
    closeQuote past text = some (inside, rest) ↔
      ∃ body, text = body ++ '"' :: rest ∧ inside = body.reverse ++ past ∧ Quotable past body := by
  induction text generalizing past with
  | nil => simp [closeQuote]
  | cons c text ih =>
    rw [closeQuote]
    constructor
    · intro h
      split at h
      · rename_i hm
        simp only [Option.some.injEq, Prod.mk.injEq] at h
        obtain ⟨rfl, rfl⟩ := h
        exact ⟨[], by simp [hm.1], rfl, hm.2⟩
      · rename_i hm
        obtain ⟨body, rfl, rfl, hb⟩ := ih.1 h
        exact ⟨c :: body, rfl, by simp, hm, hb⟩
    · rintro ⟨body, htext, rfl, hb⟩
      cases body with
      | nil =>
        obtain ⟨rfl, rfl⟩ := List.cons.inj htext
        rw [if_pos ⟨rfl, hb⟩]
        rfl
      | cons d body =>
        obtain ⟨rfl, hrest⟩ := List.cons.inj htext
        rw [if_neg hb.1]
        exact ih.2 ⟨body, hrest, by simp, hb.2⟩

/-- The mark that closes a string is not escaped, whatever stands in front of the string. -/
theorem isEscaped_of_quotable {past past' body : List Char} (h : Quotable past body)
    (hpast : Text.isEscaped past' = Text.isEscaped past) :
    Text.isEscaped (body.reverse ++ past') = false := by
  induction body generalizing past past' with
  | nil => exact hpast.trans h
  | cons c body ih => simpa using ih h.2 (Text.isEscaped_cons_congr hpast c)

end DocFacts
