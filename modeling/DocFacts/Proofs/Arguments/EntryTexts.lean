import DocFacts.Proofs.Arguments.TopLevel

/-!
# The texts of the entries

The commas at the top level of a body cut it into the texts of its entries.  `entryTexts` makes
the cut, and `Cuts` says what it comes to: texts without such a comma, each but the last one with
a comma behind it.

Behind a comma at the top level a pass reads on as at the start of a body.  So the texts can be
looked at one by one, and a body is accepted only if each of them is (`Accepts.of_cuts`).
-/

namespace DocFacts

namespace Pass

variable {p q : Pass} {c : Char} {front back text : List Char}

/-! ## Passes at the same level -/

/-- Passes at the same level stay at the same level. -/
theorem Inside.step_same (h : p.Inside q 0) (c : Char) : (p.step c).Inside (q.step c) 0 := by
  have hdepth : q.depth = p.depth := h.depth
  refine ⟨?_, ?_, ?_⟩
  · rw [past_step, past_step, Text.isEscaped_cons_congr h.escaped]
  · simp only [Pass.step, h.isMark_iff, h.inQuote, hdepth]
    repeat' split
    all_goals rfl
  · simp only [Pass.step, h.isMark_iff, h.inQuote, hdepth]
    repeat' split
    all_goals rfl

theorem Inside.through_same (h : p.Inside q 0) (text : List Char) :
    (p.through text).Inside (q.through text) 0 := by
  induction text generalizing p q with
  | nil => exact h
  | cons c text ih => exact ih (h.step_same c)

theorem Inside.topLevel_iff (h : p.Inside q 0) {d : Char} : TopLevel d q c ↔ TopLevel d p c := by
  rw [TopLevel, TopLevel, AtTop, AtTop, h.inQuote, h.depth, Nat.add_zero]

/-- Passes at the same level meet the same strings and composites. -/
theorem Inside.meets_opens_iff (h : p.Inside q 0) : q.Meets Opens text ↔ p.Meets Opens text := by
  induction text generalizing p q with
  | nil => exact iff_of_false not_meets_nil not_meets_nil
  | cons c text ih => rw [meets_cons, meets_cons, ih (h.step_same c), Opens, Opens, h.isMark_iff]

/-- Passes at the same level ask for the same. -/
theorem Inside.accepts_iff (h : p.Inside q 0) : q.Accepts text ↔ p.Accepts text := by
  induction text generalizing p q with
  | nil => rw [accepts_nil, accepts_nil, h.inQuote, h.depth, Nat.add_zero]
  | cons c text ih =>
    have hallows : q.Allows c text ↔ p.Allows c text := by
      rw [Allows, Allows, ClosesQuote, ClosesQuote, ClosesBrace, ClosesBrace, h.isMark_iff,
        h.inQuote, h.depth, Nat.add_zero]
    rw [accepts_cons, accepts_cons, ih (h.step_same c), hallows]

/-- Behind a character that is no backslash, at the top level, a pass reads on as at the start. -/
theorem inside_cons {past : List Char} (hc : c ≠ '\\') : Inside {} ⟨c :: past, false, 0⟩ 0 :=
  ⟨Text.isEscaped_cons_of_ne hc _, rfl, rfl⟩

theorem inside_step_plain (htop : p.AtTop) (hopens : ¬ p.Opens c) (hc : c ≠ '\\') :
    Inside {} (p.step c) 0 := by
  rw [step_atTop htop hopens]
  exact inside_cons hc

theorem inside_step_comma (htop : p.AtTop) : Inside {} (p.step ',') 0 :=
  inside_step_plain htop (not_opens (by decide) (by decide)) (by decide)

/-! ## The cut -/

/-- The first character of a kind that a pass meets. -/
theorem Meets.exists_first {kind : Pass → Char → Prop} (h : p.Meets kind text) :
    ∃ front c back, text = front ++ c :: back ∧ kind (p.through front) c ∧
      ¬ p.Meets kind front := by
  induction text generalizing p with
  | nil => exact absurd h not_meets_nil
  | cons d text ih =>
    by_cases hd : kind p d
    · exact ⟨[], d, text, rfl, hd, not_meets_nil⟩
    · obtain ⟨front, c, back, rfl, hc, hfront⟩ := ih ((meets_cons.1 h).resolve_left hd)
      exact ⟨d :: front, c, back, rfl, hc, fun hmeets =>
        (meets_cons.1 hmeets).elim hd hfront⟩

/-- There is only one first character of a kind. -/
theorem first_unique {kind : Pass → Char → Prop} {front' back' : List Char} {c' : Char}
    (h : front ++ c :: back = front' ++ c' :: back') (hc : kind (p.through front) c)
    (hfront : ¬ p.Meets kind front) (hc' : kind (p.through front') c')
    (hfront' : ¬ p.Meets kind front') : front = front' ∧ c = c' ∧ back = back' := by
  induction front generalizing p front' with
  | nil =>
    cases front' with
    | nil => exact ⟨rfl, List.cons.inj h⟩
    | cons d front' =>
      obtain ⟨rfl, -⟩ := List.cons.inj h
      exact absurd (meets_cons.2 (.inl hc)) hfront'
  | cons d front ih =>
    cases front' with
    | nil =>
      obtain ⟨rfl, -⟩ := List.cons.inj h
      exact absurd (meets_cons.2 (.inl hc')) hfront
    | cons d' front' =>
      obtain ⟨rfl, htail⟩ := List.cons.inj h
      obtain ⟨rfl, heq⟩ := ih htail hc (fun hmeets => hfront (meets_cons.2 (.inr hmeets))) hc'
        (fun hmeets => hfront' (meets_cons.2 (.inr hmeets)))
      exact ⟨rfl, heq⟩

/-- The texts between the commas at the top level. -/
def cut (p : Pass) : List Char → List (List Char)
  | [] => [[]]
  | c :: text =>
    if TopLevel ',' p c then [] :: (p.step c).cut text
    else ((p.step c).cut text).modifyHead (c :: ·)

/-- Passes at the same level cut alike. -/
theorem Inside.cut_eq (h : p.Inside q 0) : q.cut text = p.cut text := by
  induction text generalizing p q with
  | nil => rfl
  | cons c text ih => simp only [cut, ih (h.step_same c), h.topLevel_iff]

theorem cut_of_not_meets (h : ¬ p.Meets (TopLevel ',') text) : p.cut text = [text] := by
  induction text generalizing p with
  | nil => rfl
  | cons c text ih =>
    obtain ⟨hc, htext⟩ := not_or.1 (fun hor => h (meets_cons.2 hor))
    rw [cut, if_neg hc, ih htext]
    rfl

theorem cut_append_comma (hfront : ¬ p.Meets (TopLevel ',') front)
    (htop : (p.through front).AtTop) : p.cut (front ++ ',' :: back) =
      front :: ((p.through front).step ',').cut back := by
  induction front generalizing p with
  | nil => rw [List.nil_append, cut, if_pos ⟨rfl, htop⟩]; rfl
  | cons c front ih =>
    obtain ⟨hc, hfront⟩ := not_or.1 (fun hor => hfront (meets_cons.2 hor))
    rw [List.cons_append, cut, if_neg hc, ih hfront htop]
    rfl

end Pass

/-- The texts of the entries of a body. -/
def entryTexts (body : List Char) : List (List Char) := Pass.cut {} body

/-- The texts are what the commas at the top level cut a body into. -/
inductive Cuts : List Char → List (List Char) → Prop where
  /-- A body without such a comma. -/
  | last {text : List Char} (hcomma : ¬ Pass.Meets {} (Pass.TopLevel ',') text) :
      Cuts text [text]
  /-- A text without such a comma, a comma at the top level, and the rest of the body. -/
  | comma {text back : List Char} {texts : List (List Char)}
      (hcomma : ¬ Pass.Meets {} (Pass.TopLevel ',') text) (htop : (Pass.through {} text).AtTop)
      (hback : Cuts back texts) : Cuts (text ++ ',' :: back) (text :: texts)

theorem cuts_entryTexts (body : List Char) : Cuts body (entryTexts body) := by
  induction hk : body.length using Nat.strongRecOn generalizing body with
  | _ k ih =>
    by_cases hcomma : Pass.Meets {} (Pass.TopLevel ',') body
    · obtain ⟨front, c, back, rfl, ⟨rfl, htop⟩, hfront⟩ := hcomma.exists_first
      rw [entryTexts, Pass.cut_append_comma hfront htop,
        (Pass.inside_step_comma htop).cut_eq]
      refine .comma hfront htop (ih _ ?_ back rfl)
      rw [← hk, List.length_append, List.length_cons]
      omega
    · rw [entryTexts, Pass.cut_of_not_meets hcomma]
      exact .last hcomma

namespace Cuts

variable {body : List Char} {texts : List (List Char)}

/-- With commas between them the texts are the body. -/
theorem intercalate_eq (h : Cuts body texts) : [','].intercalate texts = body := by
  induction h with
  | last hcomma => simp
  | @comma text back texts hcomma htop hback ih =>
    have hne : texts ≠ [] := by
      intro hnil
      cases hback <;> cases hnil
    rw [List.intercalate_cons_of_ne_nil hne, ih, List.append_assoc, List.singleton_append]

/-- No text has a comma at its top level. -/
theorem not_meets (h : Cuts body texts) :
    ∀ text ∈ texts, ¬ Pass.Meets {} (Pass.TopLevel ',') text := by
  induction h with
  | last hcomma => exact List.forall_mem_singleton.2 hcomma
  | comma hcomma htop hback ih => exact List.forall_mem_cons.2 ⟨hcomma, ih⟩

/-- No text is longer than the body. -/
theorem length_le (h : Cuts body texts) : ∀ text ∈ texts, text.length ≤ body.length := by
  induction h with
  | last hcomma => exact List.forall_mem_singleton.2 (Nat.le_refl _)
  | @comma text back texts hcomma htop hback ih =>
    have hlength : (text ++ ',' :: back).length = text.length + back.length + 1 := by
      rw [List.length_append, List.length_cons, Nat.add_assoc]
    refine List.forall_mem_cons.2 ⟨by omega, ?_⟩
    intro text' htext'
    have hle := ih text' htext'
    omega

end Cuts

/-- With commas between them the texts of the entries are the body. -/
theorem intercalate_entryTexts (body : List Char) : [','].intercalate (entryTexts body) = body :=
  (cuts_entryTexts body).intercalate_eq

example : entryTexts "a={b,c}, d".toList = ["a={b,c}".toList, " d".toList] := by
  decide +kernel

/-- The text of an entry has no comma at its top level. -/
theorem not_meets_of_mem_entryTexts {body text : List Char} (h : text ∈ entryTexts body) :
    ¬ Pass.Meets {} (Pass.TopLevel ',') text :=
  (cuts_entryTexts body).not_meets text h

theorem length_le_of_mem_entryTexts {body text : List Char} (h : text ∈ entryTexts body) :
    text.length ≤ body.length :=
  (cuts_entryTexts body).length_le text h

/-! ## Acceptance -/

/-- If a body is accepted, then so is the text of each entry. -/
theorem Pass.Accepts.of_cuts {body : List Char} {texts : List (List Char)} (h : Cuts body texts)
    (haccepts : Pass.Accepts {} body) : ∀ text ∈ texts, Pass.Accepts {} text := by
  induction h with
  | last hcomma => exact List.forall_mem_singleton.2 haccepts
  | comma hcomma htop hback ih =>
    refine List.forall_mem_cons.2 ⟨haccepts.front htop.1 htop.2, ih ?_⟩
    exact (Pass.inside_step_comma htop).accepts_iff.1 (accepts_cons.1 haccepts.back).2

end DocFacts
