import DocFacts.Proofs.Arguments.Entries

/-!
# The value of an entry

The text of an entry is a value, or a name, an equals sign and a value.  `ValueOf` tells the value
from the text, and there is only one (`ValueOf.unique`).

The reader keeps to it.  At any time what it has read of a value is spelled as the token of its
draft (`Reading.Valued`), which one advance after the other preserves.  So at the end of a text the
entry has the value that the text spells (`EntryText.exists_spelled`).
-/

namespace DocFacts

variable {text w w' done : List Char}

/-! ## The value of an entry -/

/-- The part of the text of an entry that is read as its value. -/
inductive ValueOf (text : List Char) : List Char → Prop where
  /-- Without an equals sign it is the whole text. -/
  | whole (hkeyed : ¬ Keyed text) : ValueOf text text
  /-- With one it is what stands behind the first of them. -/
  | behind {name w : List Char} (htext : text = name ++ '=' :: w) (hname : ¬ Keyed name)
      (htop : (Pass.through {} name).AtTop) : ValueOf text w

theorem keyed_equals {name : List Char} (htop : (Pass.through {} name).AtTop) :
    Keyed (name ++ '=' :: w) :=
  ⟨name, '=', w, rfl, rfl, htop⟩

/-- An entry has one value only. -/
theorem ValueOf.unique (h : ValueOf text w) (h' : ValueOf text w') : w = w' := by
  cases h with
  | whole hkeyed =>
    cases h' with
    | whole _ => rfl
    | behind htext _ htop =>
      subst htext
      exact absurd (keyed_equals htop) hkeyed
  | behind htext hname htop =>
    subst htext
    cases h' with
    | whole hkeyed => exact absurd (keyed_equals htop) hkeyed
    | behind htext hname' htop' =>
      obtain ⟨-, -, heq⟩ := Pass.first_unique htext ⟨rfl, htop⟩ hname ⟨rfl, htop'⟩ hname'
      exact heq

theorem ValueOf.length_le (h : ValueOf text w) : w.length ≤ text.length := by
  cases h with
  | whole _ => exact Nat.le_refl _
  | behind htext _ _ =>
    subst htext
    rw [List.length_append, List.length_cons]
    omega

/-- What is read behind a part of a value is read of the value. -/
theorem ValueOf.append {token : List Char} (h : ValueOf done w)
    (hkeyed : Keyed (done ++ token) → Keyed done) : ValueOf (done ++ token) (w ++ token) := by
  cases h with
  | whole hnot => exact .whole (mt hkeyed hnot)
  | behind htext hname htop =>
    subst htext
    exact .behind (List.append_assoc ..) hname htop

/-- A pass reads on in a value as at the start of a body. -/
theorem ValueOf.inside (h : ValueOf done w) :
    (Pass.through {} w).Inside (Pass.through {} done) 0 := by
  cases h with
  | whole _ => exact ⟨rfl, rfl, rfl⟩
  | behind htext hname htop =>
    subst htext
    rw [Pass.through_append, Pass.through_cons]
    exact (Pass.inside_step_plain htop (Pass.not_opens (by decide) (by decide))
      (by decide)).through_same w

/-! ## The reader -/

/-- The draft holds what a spelling stands for. -/
inductive Spelling.Held : Spelling → Token → Bool → Prop where
  /-- A text. -/
  | text {raw : List Char} {quoted : Bool} :
      Held (.text raw quoted) (.text (String.ofList raw)) quoted
  /-- A composite that has been read. -/
  | braces {inside : List Char} {v : Value} {quoted : Bool} (hvalue : parseBody inside = .ok v) :
      Held (.braces inside) (.composite v) quoted

theorem Spelling.Held.text_eq {raw : List Char} {quoted quoted' : Bool} {token : Token}
    (h : Held (.text raw quoted) token quoted') :
    token = .text (String.ofList raw) ∧ quoted' = quoted := by
  cases h with
  | text => exact ⟨rfl, rfl⟩

theorem Spelling.Held.value_eq {spelling : Spelling} {token : Token} {quoted : Bool}
    (h : spelling.Held token quoted) : spelling.value = .ok (token.value quoted) := by
  cases h with
  | text => rfl
  | braces hvalue => exact hvalue

namespace Reading

variable {r s : Reading}

/-- What has been read of a value is spelled as the token of the draft. -/
def Valued (r : Reading) : Prop :=
  ∃ w spelling, ValueOf r.cursor.past.reverse w ∧ SpelledAs w r.cursor.rest spelling ∧
    spelling.Held r.draft.current r.draft.quoted

theorem valued_start (text : List Char) : (start text).Valued :=
  ⟨[], .text [] false, .whole Pass.not_meets_nil, .plain Pass.not_meets_nil, .text⟩

/-- An advance in a text without commas reads of the value what the draft takes. -/
theorem Advance.valued (h : Advance r s) (hr : r.Alone) (hunvalued : r.draft.Unvalued)
    (hv : r.Valued) : s.Valued := by
  obtain ⟨w, spelling, hw, hspelled, hheld⟩ := hv
  have halone := h.alone hr
  have hkeyed (hside : s.draft.side = r.draft.side) :
      Keyed s.cursor.past.reverse → Keyed r.cursor.past.reverse := by
    rw [← halone.drafted.side_eq_value_iff, ← hr.drafted.side_eq_value_iff, hside]
    exact id
  have hpass : Pass.through {} r.cursor.past.reverse = r.pass := hr.onTop
  have hinside : (Pass.through {} w).Inside r.pass 0 := hpass ▸ hw.inside
  have hopens (c : Char) : (Pass.through {} w).Opens c ↔ r.pass.Opens c := by
    rw [Pass.Opens, Pass.Opens, hinside.isMark_iff]
  cases h with
  | @string inside back hrest hescaped hquotable hback =>
    -- Only a separator may follow, and there is no comma: the string ends the text.
    obtain rfl : back = [] := halone.onTop.rest_eq_nil halone.comma hback
    rw [hrest] at hspelled
    have hvalue : ValueOf (r.cursor.past.reverse ++ '"' :: (inside ++ ['"'])) _ :=
      hw.append (by simpa using hkeyed (Draft.side_setCurrent _))
    have hmark : (Pass.through {} w).IsMark '"' := hinside.isMark_iff.1 ⟨rfl, hescaped⟩
    refine ⟨_, _, by simpa using hvalue, .string hspelled.not_meets hmark hquotable, ?_⟩
    rw [Draft.current_quote]
    exact .text
  | equals hrest hside =>
    -- What stood before was the name, so the value starts here, and nothing of it has been read.
    have hname : ¬ Keyed r.cursor.past.reverse := by
      rw [← hr.drafted.side_eq_value_iff, hside]
      intro hvalue
      cases hvalue
    have hvalue : ValueOf (r.cursor.past.reverse ++ ['=']) [] :=
      .behind rfl hname (hpass ▸ ⟨rfl, rfl⟩)
    refine ⟨[], .text [] false, by simpa using hvalue, .plain Pass.not_meets_nil, ?_⟩
    have hcurrent : r.draft.crossEquals.current = .text (String.ofList []) := hunvalued hside
    rw [hcurrent]
    exact .text
  | comma hrest => exact absurd hrest (hr.onTop.not_comma hr.comma)
  | @composite inside gap back v hrest hbalanced hparsed hgap hback =>
    obtain rfl : back = [] := halone.onTop.rest_eq_nil halone.comma hback
    rw [hrest] at hspelled
    have hvalue : ValueOf (r.cursor.past.reverse ++ '{' :: (inside ++ '}' :: gap)) _ :=
      hw.append (by simpa [take] using hkeyed (Draft.side_setCurrent _))
    refine ⟨_, _, by simpa [take] using hvalue, .composite hspelled.not_meets hbalanced hgap, ?_⟩
    have hcurrent : (r.draft.compose v).current = .composite v := Draft.current_setCurrent _
    simp only [take, hcurrent]
    exact .braces hparsed
  | stray hrest =>
    rw [hrest] at hspelled
    have hvalue : ValueOf (r.cursor.past.reverse ++ ['}']) _ :=
      hw.append (by simpa using hkeyed rfl)
    exact ⟨_, _, by simpa using hvalue, hspelled.stray, hheld⟩
  | @text c back hrest hmark hequals hcomma hopen hclose =>
    rw [hrest] at hspelled
    have hvalue : ValueOf (r.cursor.past.reverse ++ [c]) _ :=
      hw.append (by simpa using hkeyed (Draft.side_setCurrent _))
    -- A pass through the value alone sees the same marks as the pass through the whole text.
    have hc : ¬ (Pass.through {} w).Opens c := mt (hopens c).1 fun h => h.elim hmark hopen
    obtain ⟨seen, quoted, rfl, hspelled⟩ := hspelled.push hc hclose
    refine ⟨_, _, by simpa using hvalue, hspelled, ?_⟩
    obtain ⟨hcurrent, hquoted⟩ := hheld.text_eq
    simp only [Draft.push_eq hcurrent, Draft.current_setCurrent, Draft.quoted_setCurrent, hquoted]
    exact .text

theorem Reads.valued (h : Reads r s) (hr : r.Alone) (hunvalued : r.draft.Unvalued)
    (hv : r.Valued) : s.Valued := by
  induction h with
  | refl => exact hv
  | tail hfirst hlast ih =>
    exact hlast.valued (Reads.alone hfirst hr) (Reads.unvalued hfirst hunvalued) ih

/-- A text that is not blank comes to one draft, which has the value that the text spells. -/
theorem exists_draft {text : List Char} {v : Value} (hblank : ¬ BlankText text)
    (hcomma : ¬ Pass.Meets {} (Pass.TopLevel ',') text) (hv : parseBody text = .ok v) :
    ∃ (d : Draft) (w : List Char) (spelling : Spelling), (d.side = .value ↔ Keyed text) ∧
      v = Entry.assemble [d.finish] (decide (d.side = .value)) false ∧
      ValueOf text w ∧ SpelledAs w [] spelling ∧ spelling.value = .ok d.finish.value := by
  obtain ⟨s, hs, hend, rfl⟩ := run_eq_ok_iff.1 hv
  have halone := hs.alone (alone_start hcomma)
  obtain ⟨w, spelling, hw, hspelled, hheld⟩ :=
    hs.valued (alone_start hcomma) (fun _ => rfl) (valued_start text)
  have htext : s.cursor.past.reverse = text := by
    have hwhole := hs.whole_eq
    rwa [whole, hend, List.append_nil] at hwhole
  have hdrafted := halone.drafted
  rw [htext, hend] at hdrafted
  rw [htext] at hw
  rw [hend] at hspelled
  refine ⟨s.draft, w, spelling, hdrafted.side_eq_value_iff, ?_, hw, hspelled, ?_⟩
  · rw [result, flush, if_neg (mt hdrafted.isEmpty_iff.1 hblank), halone.entries, halone.keyed,
      halone.separated]
    rfl
  · rw [Draft.value_finish]
    exact hheld.value_eq

end Reading

/-- **The value of an entry** is the one that its text spells. -/
theorem EntryText.exists_spelled {entry : Entry} (h : EntryText text entry)
    (hblank : ¬ BlankText text) (hcomma : ¬ Pass.Meets {} (Pass.TopLevel ',') text) :
    ∃ w spelling, ValueOf text w ∧ SpelledAs w [] spelling ∧ spelling.value = .ok entry.value := by
  cases h with
  | @named key v hkeyed hvalue =>
    obtain ⟨d, w, spelling, hside, hv, hw, hspelled, hspelling⟩ :=
      Reading.exists_draft hblank hcomma hvalue
    have hfinish : d.finish = .named d.name.key (d.value.value d.quoted) := by
      rw [Draft.finish, hside.2 hkeyed]
    rw [hside.2 hkeyed, hfinish] at hv
    rw [hfinish] at hspelling
    cases hv
    exact ⟨w, spelling, hw, hspelled, hspelling⟩
  | @unnamed key v hkeyed _ hvalue =>
    obtain ⟨d, w, spelling, hside, hv, hw, hspelled, hspelling⟩ :=
      Reading.exists_draft hblank hcomma hvalue
    have hname : decide (d.side = .value) = false := decide_eq_false (mt hside.1 hkeyed)
    rw [hname] at hv
    rw [← show v = d.finish.value from hv] at hspelling
    exact ⟨w, spelling, hw, hspelled, hspelling⟩

end DocFacts
