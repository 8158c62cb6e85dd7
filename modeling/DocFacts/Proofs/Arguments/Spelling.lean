import DocFacts.Proofs.Arguments.EntryTexts

/-!
# How a value is spelled

A value is spelled in one of three ways: as plain text, as a string, or as a composite, with plain
text in front of the latter two that does not count (`SpelledAs`).  The way can be told from the
text alone, and there is only one for a text (`SpelledAs.unique`).  So a text stands for one value
and for one key.
-/

namespace DocFacts

/-- A character that opens nothing is added to text that opens nothing. -/
theorem Pass.not_opens_append {done : List Char} {c : Char} (h : ¬ Pass.Meets {} Pass.Opens done)
    (hc : ¬ (Pass.through {} done).Opens c) : ¬ Pass.Meets {} Pass.Opens (done ++ [c]) := by
  rw [Pass.meets_append, Pass.meets_singleton]
  exact not_or.2 ⟨h, hc⟩

/-- What a value is spelled as. -/
inductive Spelling where
  /-- A text, and whether it stands between quotation marks. -/
  | text (raw : List Char) (quoted : Bool)
  /-- The inside of a composite. -/
  | braces (inside : List Char)

/-- The value that a spelling stands for. -/
def Spelling.value : Spelling → Except ParseError Value
  | .text raw quoted => .ok (Value.cast (String.ofList raw) quoted)
  | .braces inside => parseBody inside

/-- The key that a spelling stands for. -/
def Spelling.key : Spelling → Except ParseError String
  | .text raw _ => .ok (String.ofList (Text.trim raw))
  | .braces inside => Value.display <$> parseBody inside

/-- What is spelled by a part of a value with `rest` behind it. -/
inductive SpelledAs : (done rest : List Char) → Spelling → Prop where
  /-- Plain text counts without its stray braces. -/
  | plain {done rest : List Char} (hopens : ¬ Pass.Meets {} Pass.Opens done) :
      SpelledAs done rest (.text (done.filter (· ≠ '}')) false)
  /-- A string ends the value. -/
  | string {front inside : List Char} (hopens : ¬ Pass.Meets {} Pass.Opens front)
      (hmark : (Pass.through {} front).IsMark '"') (hinside : Quotable [] inside) :
      SpelledAs (front ++ '"' :: (inside ++ ['"'])) [] (.text inside true)
  /-- A composite ends the value, but for blank characters. -/
  | composite {front inside gap : List Char} (hopens : ¬ Pass.Meets {} Pass.Opens front)
      (hinside : Pass.Balanced {} inside) (hgap : ∀ c ∈ gap, Text.isBlank c = true) :
      SpelledAs (front ++ '{' :: (inside ++ '}' :: gap)) [] (.braces inside)

namespace SpelledAs

variable {w w' done rest rest' inside : List Char} {c : Char} {spelling spelling' : Spelling}

theorem composite_unique {inside' gap gap' : List Char} (hinside : Pass.Balanced {} inside)
    (hinside' : Pass.Balanced {} inside')
    (h : inside ++ '}' :: gap = inside' ++ '}' :: gap') : inside = inside' := by
  have hclose : closeBrace 1 false [] (inside ++ '}' :: gap) = some (inside.reverse, gap) :=
    Reading.closeBrace_of_balanced hinside
  rw [h, Reading.closeBrace_of_balanced hinside'] at hclose
  exact (List.reverse_inj.1 (Prod.mk.inj (Option.some.inj hclose)).1).symm

/-- A value is spelled in one way only. -/
theorem unique (h : SpelledAs w rest spelling) (h' : SpelledAs w rest' spelling') :
    spelling = spelling' := by
  have hopens {front back : List Char} {c : Char} (hc : (Pass.through {} front).Opens c) :
      Pass.Meets {} Pass.Opens (front ++ c :: back) := ⟨front, c, back, rfl, hc⟩
  generalize hw : w = w' at h'
  cases h with
  | plain hplain =>
    subst hw
    cases h' with
    | plain _ => rfl
    | string _ hmark _ => exact absurd (hopens (.inl hmark)) hplain
    | composite _ _ _ => exact absurd (hopens (.inr rfl)) hplain
  | string hfront hmark hinside =>
    cases h' with
    | plain hplain =>
      subst hw
      exact absurd (hopens (.inl hmark)) hplain
    | string hfront' hmark' hinside' =>
      obtain ⟨-, -, heq⟩ := Pass.first_unique hw (.inl hmark) hfront (.inl hmark') hfront'
      rw [List.append_inj_left' heq rfl]
    | composite hfront' _ _ =>
      obtain ⟨-, hc, -⟩ := Pass.first_unique hw (.inl hmark) hfront (.inr rfl) hfront'
      cases hc
  | composite hfront hinside hgap =>
    cases h' with
    | plain hplain =>
      subst hw
      exact absurd (hopens (.inr rfl)) hplain
    | string hfront' hmark' _ =>
      obtain ⟨-, hc, -⟩ := Pass.first_unique hw (.inr rfl) hfront (.inl hmark') hfront'
      cases hc
    | composite hfront' hinside' hgap' =>
      obtain ⟨-, -, heq⟩ := Pass.first_unique hw (.inr rfl) hfront (.inr rfl) hfront'
      rw [composite_unique hinside hinside' heq]

/-- The inside of a composite is shorter than the value. -/
theorem length_lt (h : SpelledAs w rest (.braces inside)) : inside.length < w.length := by
  cases h with
  | composite _ _ _ =>
    simp only [List.length_append, List.length_cons]
    omega

/-- A character of text is added to plain text. -/
theorem push (h : SpelledAs done (c :: rest) spelling) (hc : ¬ (Pass.through {} done).Opens c)
    (hclose : c ≠ '}') : ∃ seen quoted, spelling = .text seen quoted ∧
      SpelledAs (done ++ [c]) rest' (.text (seen ++ [c]) quoted) := by
  cases h with
  | plain hopens =>
    have hfilter : (done ++ [c]).filter (· ≠ '}') = done.filter (· ≠ '}') ++ [c] := by
      simp [hclose]
    refine ⟨_, _, rfl, ?_⟩
    rw [← hfilter]
    exact .plain (Pass.not_opens_append hopens hc)

/-- A stray brace does not count. -/
theorem stray (h : SpelledAs done ('}' :: rest) spelling) :
    SpelledAs (done ++ ['}']) rest' spelling := by
  cases h with
  | plain hopens =>
    have hfilter : (done ++ ['}']).filter (· ≠ '}') = done.filter (· ≠ '}') := by simp
    rw [← hfilter]
    exact .plain (Pass.not_opens_append hopens (Pass.not_opens (by decide) (by decide)))

/-- In front of anything else there is plain text. -/
theorem not_meets (h : SpelledAs done (c :: rest) spelling) :
    ¬ Pass.Meets {} Pass.Opens done := by
  cases h with
  | plain hopens => exact hopens

end SpelledAs

end DocFacts
