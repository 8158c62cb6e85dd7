import DocFacts.Proofs.Arguments.Gap
import DocFacts.Proofs.Arguments.LastStar

/-!
# Bodies broken over comment lines

A body may be broken behind a comma, behind an opening brace and behind the equals sign that
follows a name, at any depth, and the next line may start with a star
(`parseArguments_lineBreak`).  The star is dropped, and no other one is touched
(`dropStars_append_cons`).  What is left of the break is a line feed in front of a token.

Where the break may be is said of the body as it is written.  Dropping stars leaves the outline as
it is (`Outline.Within.dropStars`), so the place is the same in the body that is read.
-/

namespace DocFacts

/-! ## Stars in front of a place within a line -/

/-- A character that is neither blank nor a star has no say in whether a star leads the line. -/
theorem behindStar?_append_of_ne {c : Char} (hc : Text.isBlank c = false) (hstar : c ≠ '*')
    (front rest : List Char) :
    behindStar? (front ++ c :: rest) = (behindStar? front).map (· ++ c :: rest) := by
  have hdrop : Text.dropBlank (front ++ c :: rest) = Text.dropBlank front ++ c :: rest :=
    List.dropWhile_append_cons hc front rest
  rw [behindStar?, behindStar?, hdrop]
  cases Text.dropBlank front with
  | nil => simp [hstar]
  | cons d tail =>
    by_cases hd : d = '*'
    · subst hd
      rfl
    · simp [hd]

/-- Stars are dropped on both sides of a character within a line on their own. -/
theorem dropStars_append_cons {c : Char} (hc : Text.isBlank c = false) (hstar : c ≠ '*')
    (atLineStart : Bool) (front rest : List Char) :
    dropStars atLineStart (front ++ c :: rest) =
      dropStars atLineStart front ++ c :: dropStars false rest := by
  have hline : (c == '\n') = false := by
    simpa using Text.ne_of_class (p := (!Text.isBlank ·)) (by simp [hc]) (d := '\n') (by decide)
  fun_induction dropStars atLineStart front with
  | case1 atLineStart =>
    have hnone : atLineStart = true → behindStar? (c :: rest) = none := fun _ =>
      behindStar?_append_of_ne hc hstar [] rest
    rw [List.nil_append, dropStars_cons_of_none hnone, hline, List.nil_append]
  | case2 atLineStart d front behind h ih =>
    split at h
    · rename_i hstart
      have hsome : behindStar? (d :: (front ++ c :: rest)) = some (behind ++ c :: rest) :=
        (behindStar?_append_of_ne hc hstar (d :: front) rest).trans (by rw [h]; rfl)
      rw [hstart, List.cons_append, dropStars_cons_of_some hsome, ih]
    · cases h
  | case3 atLineStart d front h ih =>
    have hnone : atLineStart = true → behindStar? (d :: (front ++ c :: rest)) = none := by
      intro hstart
      rw [dif_pos hstart] at h
      have hmap := behindStar?_append_of_ne hc hstar (d :: front) rest
      rw [h] at hmap
      exact hmap
    rw [List.cons_append, dropStars_cons_of_none hnone, ih, List.cons_append]

/-! ## The outline without the stars -/

/-- The character is one of those that are dropped at the start of a line. -/
def LeadsLine (c : Char) : Prop := Text.isBlank c = true ∨ c = '*'

theorem LeadsLine.ne {c d : Char} (h : LeadsLine c) (hd : ¬ LeadsLine d) : c ≠ d := by
  rintro rfl
  exact hd h

namespace Outline

variable {o o' : Outline} {c : Char}

/-- Over such a character the outline is as before. -/
theorem Within.skip (h : o.Within o' []) (hescaped : Text.isEscaped o.pass.past = false)
    (hc : LeadsLine c) : o.Within (o'.step c) [] := by
  have hne {d : Char} (hblank : Text.isBlank d = false) (hstar : d ≠ '*') : c ≠ d :=
    hc.ne (not_or.2 ⟨by simp [hblank], hstar⟩)
  have hstep : o'.step c = { o' with pass := o'.pass.step c } :=
    step_text (hne (by decide) (by decide)) (hne (by decide) (by decide))
      (hne (by decide) (by decide)) (hne (by decide) (by decide))
  have hmark : ¬ o'.pass.IsMark c := fun hm => hne (by decide) (by decide) hm.1
  have hpass : o'.pass.step c = ⟨c :: o'.pass.past, o'.pass.inQuote, o'.pass.depth⟩ := by
    cases hq : o'.pass.inQuote with
    | true => exact Pass.step_inQuote hmark hq
    | false =>
      exact Pass.step_plain hq hmark (hne (by decide) (by decide)) (hne (by decide) (by decide))
  rw [hstep, hpass]
  refine ⟨⟨?_, h.pass.inQuote, h.pass.depth⟩, h.side, h.outer, h.depth⟩
  rw [hescaped]
  exact Text.isEscaped_cons_of_ne (hne (by decide) (by decide)) _

theorem Within.skips {text : List Char} (h : o.Within o' [])
    (hescaped : Text.isEscaped o.pass.past = false) (htext : ∀ c ∈ text, LeadsLine c) :
    o.Within (o'.through text) [] := by
  induction text generalizing o' with
  | nil => exact h
  | cons c text ih =>
    obtain ⟨hc, htext⟩ := List.forall_mem_cons.1 htext
    exact ih (h.skip hescaped hc) htext

/-- Stars of lines are no part of the outline. -/
theorem Within.dropStars {atLineStart : Bool} {text : List Char} (h : o.Within o' [])
    (hstart : atLineStart = true → Text.isEscaped o.pass.past = false) :
    (o.through (dropStars atLineStart text)).Within (o'.through text) [] := by
  fun_induction DocFacts.dropStars atLineStart text generalizing o o' with
  | case1 => exact h
  | case2 atLineStart c rest behind hbehind ih =>
    split at hbehind
    · rename_i hline
      obtain ⟨blanks, hblanks, htext⟩ := behindStar?_eq_some_iff.1 hbehind
      have hleads : ∀ c ∈ blanks ++ ['*'], LeadsLine c :=
        List.forall_mem_append.2 ⟨fun c hc => .inl (hblanks c hc),
          List.forall_mem_singleton.2 (.inr rfl)⟩
      rw [htext, List.append_cons, through_append]
      exact ih (h.skips (hstart hline) hleads) fun hfalse => by cases hfalse
    · cases hbehind
  | case3 atLineStart c rest hnone ih =>
    refine ih (h.step_same c) fun hline => ?_
    rw [pass_step, Pass.past_step, eq_of_beq hline]
    exact Text.isEscaped_cons_of_ne (by decide) _

theorem within_start : Within {} {} [] := ⟨⟨rfl, rfl, rfl⟩, rfl, rfl, rfl⟩

end Outline

/-! ## The break -/

/-- **A body may be broken over comment lines.**  Behind a comma, behind an opening brace and
behind the equals sign that follows a name, a line feed, blank characters and a star make no
difference to the value of a body or to whether it has one. -/
theorem parseArguments_lineBreak {front gap back : List Char} {c : Char}
    (hbreaks : (Outline.through {} front).Breaks c)
    (hgap : ∀ d ∈ gap, Text.isBlank d = true) :
    (parseArguments (String.ofList (front ++ c :: '\n' :: (gap ++ '*' :: back)))).toOption =
      (parseArguments (String.ofList (front ++ c :: back))).toOption := by
  have hkept : (Outline.through {} (dropStars true front)).Breaks c :=
    (Outline.within_start.dropStars fun _ => rfl).breaks_iff.1 hbreaks
  have hbreak : dropStars false ('\n' :: (gap ++ '*' :: back)) =
      ['\n'] ++ dropStars false back := by
    rw [dropStars_false_cons, beq_self_eq_true, dropStars_true_star hgap]
    rfl
  have hstar : c ≠ '*' := hbreaks.ne (by decide)
  rw [parseArguments, parseArguments, String.toList_ofList, String.toList_ofList,
    dropStars_append_cons hbreaks.not_blank hstar, dropStars_append_cons hbreaks.not_blank hstar,
    hbreak]
  exact parseBody_gap hkept (List.forall_mem_singleton.2 rfl)

/-- The value of a row in a composite on a line of its own. -/
theorem lineBreak_sample :
    (parseArguments (String.ofList
      (r"a={b".toList ++ '=' :: '\n' :: (['\t', ' '] ++ '*' :: r"1}".toList)))).toOption =
    (parseArguments (String.ofList (r"a={b".toList ++ '=' :: r"1}".toList))).toOption :=
  parseArguments_lineBreak (by decide +kernel) (List.all_eq_true.1 rfl)

end DocFacts
