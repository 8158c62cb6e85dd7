import DocFacts.Arguments.Parser
import DocFacts.Proofs.Arguments.Pass
import DocFacts.Proofs.Text.Blank

/-!
# Which bodies are accepted

The parser reads the inside of a composite as a body of its own, at any depth.  Which bodies it
accepts can be said without that recursion, by one flat pass over the whole body.
`exists_parseBody_eq_ok_iff` is the statement.  The pass has to end outside quotation marks at
depth zero.  Behind a closed string, and behind a closed composite and blank characters, must
stand a comma, or the end, or inside a composite the brace that closes it.

The passes over a composite's inside and over the same characters in the whole body differ in
the depth only, as `Pass.Inside` says.  For a balanced inside, what the flat pass asks of it in
the whole body is what a pass over the inside alone asks (`Pass.accepts_composite_iff`).
`Reading.accepted_iff` puts this together for one move of the reader.
-/

namespace DocFacts

/-- What may stand behind a string or a composite that has been closed at a depth. -/
def MayFollow (depth : Nat) : List Char → Prop
  | [] => True
  | c :: _ => c = ',' ∨ (0 < depth ∧ c = '}')

instance (depth : Nat) : (text : List Char) → Decidable (MayFollow depth text)
  | [] => inferInstanceAs (Decidable True)
  | _ :: _ => inferInstanceAs (Decidable (_ ∨ _))

theorem mayFollow_nil (depth : Nat) : MayFollow depth [] := trivial

theorem mayFollow_comma (depth : Nat) (rest : List Char) : MayFollow depth (',' :: rest) :=
  Or.inl rfl

/-- Outside composites the end may follow, or a comma. -/
theorem MayFollow.eq_nil_or_comma {back : List Char} (h : MayFollow 0 back) :
    back = [] ∨ ∃ behind, back = ',' :: behind := by
  cases back with
  | nil => exact .inl rfl
  | cons c behind =>
    obtain rfl : c = ',' := by simpa [MayFollow] using h
    exact .inr ⟨behind, rfl⟩

theorem MayFollow.of_append {depth : Nat} {text more : List Char}
    (h : MayFollow depth (text ++ more)) : MayFollow depth text := by
  cases text with
  | nil => exact mayFollow_nil depth
  | cons c text => exact h

theorem MayFollow.of_dropBlank_append {depth : Nat} {text more : List Char}
    (h : MayFollow depth (Text.dropBlank (text ++ more))) :
    MayFollow depth (Text.dropBlank text) := by
  rw [Text.dropBlank, List.dropWhile_append] at h
  split at h
  · rename_i hempty
    rw [Text.dropBlank, List.isEmpty_iff.1 hempty]
    exact mayFollow_nil depth
  · exact h.of_append

namespace Pass

/-- The character is the quotation mark that ends a string. -/
def ClosesQuote (p : Pass) (c : Char) : Prop := p.inQuote = true ∧ p.IsMark c

instance (p : Pass) (c : Char) : Decidable (p.ClosesQuote c) :=
  inferInstanceAs (Decidable (_ ∧ _))

/-- The character is a brace that ends a composite. -/
def ClosesBrace (p : Pass) (c : Char) : Prop := p.inQuote = false ∧ c = '}' ∧ 0 < p.depth

instance (p : Pass) (c : Char) : Decidable (p.ClosesBrace c) :=
  inferInstanceAs (Decidable (_ ∧ _ ∧ _))

/-- What a flat pass asks of a text. -/
structure Accepts (p : Pass) (text : List Char) : Prop where
  /-- The pass ends outside quotation marks. -/
  outside : (p.through text).inQuote = false
  /-- The pass ends at depth zero. -/
  closed : (p.through text).depth = 0
  /-- A string that has been closed is followed by a separator. -/
  afterQuote : ∀ front c rest, text = front ++ c :: rest → (p.through front).ClosesQuote c →
    MayFollow (p.through front).depth rest
  /-- A composite that has been closed is followed by blank characters and a separator. -/
  afterBrace : ∀ front c rest, text = front ++ c :: rest → (p.through front).ClosesBrace c →
    MayFollow ((p.through front).depth - 1) (Text.dropBlank rest)

/-- What a flat pass asks of one character and the text behind it. -/
def Allows (p : Pass) (c : Char) (rest : List Char) : Prop :=
  (p.ClosesQuote c → MayFollow p.depth rest) ∧
    (p.ClosesBrace c → MayFollow (p.depth - 1) (Text.dropBlank rest))

instance (p : Pass) (c : Char) (rest : List Char) : Decidable (p.Allows c rest) :=
  inferInstanceAs (Decidable (_ ∧ _))

theorem accepts_nil {p : Pass} : p.Accepts [] ↔ p.inQuote = false ∧ p.depth = 0 :=
  ⟨fun h => ⟨h.outside, h.closed⟩, fun h => ⟨h.1, h.2, by simp, by simp⟩⟩

theorem accepts_cons {p : Pass} {c : Char} {text : List Char} :
    p.Accepts (c :: text) ↔ p.Allows c text ∧ (p.step c).Accepts text := by
  constructor
  · intro h
    refine ⟨⟨h.afterQuote [] c text rfl, h.afterBrace [] c text rfl⟩, h.outside, h.closed, ?_, ?_⟩
    · intro front d rest htext
      exact h.afterQuote (c :: front) d rest (by rw [htext]; rfl)
    · intro front d rest htext
      exact h.afterBrace (c :: front) d rest (by rw [htext]; rfl)
  · rintro ⟨hc, h⟩
    refine ⟨h.outside, h.closed, ?_, ?_⟩
    · intro front d rest htext
      cases front with
      | nil =>
        obtain ⟨rfl, rfl⟩ := List.cons.inj htext
        exact hc.1
      | cons e front =>
        obtain ⟨rfl, hrest⟩ := List.cons.inj htext
        exact h.afterQuote front d rest hrest
    · intro front d rest htext
      cases front with
      | nil =>
        obtain ⟨rfl, rfl⟩ := List.cons.inj htext
        exact hc.2
      | cons e front =>
        obtain ⟨rfl, hrest⟩ := List.cons.inj htext
        exact h.afterBrace front d rest hrest

instance decidableAccepts (p : Pass) : (text : List Char) → Decidable (p.Accepts text)
  | [] => decidable_of_iff _ accepts_nil.symm
  | c :: text =>
    have := decidableAccepts (p.step c) text
    decidable_of_iff _ accepts_cons.symm

/-- What is accepted is accepted up to each place outside strings and composites. -/
theorem Accepts.front {p : Pass} {front back : List Char} (h : p.Accepts (front ++ back))
    (hq : (p.through front).inQuote = false) (hd : (p.through front).depth = 0) :
    p.Accepts front := by
  refine ⟨hq, hd, ?_, ?_⟩
  · rintro text c rest rfl hc
    exact (h.afterQuote text c (rest ++ back) (by simp) hc).of_append
  · rintro text c rest rfl hc
    exact (h.afterBrace text c (rest ++ back) (by simp) hc).of_dropBlank_append

/-- What is accepted is accepted from each place on. -/
theorem Accepts.back {p : Pass} {front back : List Char} (h : p.Accepts (front ++ back)) :
    (p.through front).Accepts back := by
  induction front generalizing p with
  | nil => exact h
  | cons c front ih => exact ih (accepts_cons.1 h).2

/-- A character without a meaning outside quotation marks asks for nothing. -/
theorem accepts_plain {past rest : List Char} {depth : Nat} {c : Char}
    (hm : ¬ IsMark ⟨past, false, depth⟩ c) (ho : c ≠ '{') (hc : c ≠ '}') :
    Accepts ⟨past, false, depth⟩ (c :: rest) ↔ Accepts ⟨c :: past, false, depth⟩ rest := by
  rw [accepts_cons, step_plain rfl hm ho hc]
  simp [Allows, ClosesQuote, ClosesBrace, hc]

/-! ## Inside a composite -/

/-- The pass `p` goes over the inside of a composite on its own and the pass `q` goes over it
in the whole body, where `surplus` more braces are open. -/
structure Inside (p q : Pass) (surplus : Nat) : Prop where
  /-- What stands in front makes no difference. -/
  escaped : Text.isEscaped q.past = Text.isEscaped p.past
  /-- Both are between quotation marks or neither is. -/
  inQuote : q.inQuote = p.inQuote
  /-- The depths differ by the surplus. -/
  depth : q.depth = p.depth + surplus

theorem Inside.isMark_iff {p q : Pass} {surplus : Nat} (h : p.Inside q surplus) {c : Char} :
    q.IsMark c ↔ p.IsMark c := by
  rw [IsMark, IsMark, h.escaped]

theorem Inside.step {p q : Pass} {surplus : Nat} (h : p.Inside q surplus) {c : Char}
    (hs : ¬ p.Strays c) : (p.step c).Inside (q.step c) surplus := by
  have hesc : Text.isEscaped (q.step c).past = Text.isEscaped (p.step c).past := by
    rw [past_step, past_step, Text.isEscaped_cons_congr h.escaped]
  by_cases hm : p.IsMark c
  · have hm' := h.isMark_iff.2 hm
    refine ⟨hesc, ?_, ?_⟩
    · rw [step_mark hm, step_mark hm', h.inQuote]
    · rw [step_mark hm, step_mark hm', h.depth]
  · have hm' : ¬ q.IsMark c := fun hq => hm (h.isMark_iff.1 hq)
    cases hq : p.inQuote with
    | true =>
      have hq' : q.inQuote = true := by rw [h.inQuote, hq]
      refine ⟨hesc, ?_, ?_⟩
      · rw [step_inQuote hm hq, step_inQuote hm' hq']
      · rw [step_inQuote hm hq, step_inQuote hm' hq', h.depth]
    | false =>
      have hq' : q.inQuote = false := by rw [h.inQuote, hq]
      by_cases ho : c = '{'
      · subst ho
        refine ⟨hesc, ?_, ?_⟩
        · rw [step_open hq, step_open hq']
        · rw [step_open hq, step_open hq', h.depth]
          simp only
          omega
      · by_cases hcl : c = '}'
        · subst hcl
          have hd : p.depth ≠ 0 := fun hd => hs ⟨hq, rfl, hd⟩
          refine ⟨hesc, ?_, ?_⟩
          · rw [step_close hq, step_close hq']
          · rw [step_close hq, step_close hq', h.depth]
            simp only
            omega
        · refine ⟨hesc, ?_, ?_⟩
          · rw [step_plain hq hm ho hcl, step_plain hq' hm' ho hcl]
          · rw [step_plain hq hm ho hcl, step_plain hq' hm' ho hcl, h.depth]

/-- The brace that closes a composite may follow in the whole body where the end may follow in
the inside alone. -/
theorem mayFollow_composite_iff {p : Pass} {body rest : List Char} {surplus : Nat}
    (hb : p.Balanced body) (hq : p.inQuote = false) :
    MayFollow (p.depth + (surplus + 1)) (body ++ '}' :: rest) ↔ MayFollow p.depth body := by
  cases body with
  | nil => exact iff_of_true (Or.inr ⟨Nat.succ_pos _, rfl⟩) trivial
  | cons c body =>
    have hs := (balanced_cons.1 hb).1
    simp only [List.cons_append, MayFollow]
    constructor
    · rintro (hc | ⟨-, rfl⟩)
      · exact .inl hc
      · exact .inr ⟨Nat.pos_of_ne_zero fun hd => hs ⟨hq, rfl, hd⟩, rfl⟩
    · rintro (hc | ⟨-, hc⟩)
      · exact .inl hc
      · exact .inr ⟨by omega, hc⟩

/-- The same behind blank characters. -/
theorem mayFollow_dropBlank_composite_iff {p : Pass} {body rest : List Char} {surplus : Nat}
    (hb : p.Balanced body) (hq : p.inQuote = false) :
    MayFollow (p.depth + (surplus + 1)) (Text.dropBlank (body ++ '}' :: rest)) ↔
      MayFollow p.depth (Text.dropBlank body) := by
  induction body generalizing p with
  | nil =>
    rw [List.nil_append, Text.dropBlank_cons_of_not (by decide)]
    exact mayFollow_composite_iff hb hq
  | cons c body ih =>
    cases hc : Text.isBlank c with
    | false =>
      rw [List.cons_append, Text.dropBlank_cons_of_not hc, Text.dropBlank_cons_of_not hc]
      exact mayFollow_composite_iff hb hq
    | true =>
      have hstep : p.step c = ⟨c :: p.past, false, p.depth⟩ := by
        apply step_plain hq
        · rintro ⟨rfl, -⟩
          exact absurd hc (by decide)
        · rintro rfl
          exact absurd hc (by decide)
        · rintro rfl
          exact absurd hc (by decide)
      have hb' := (balanced_cons.1 hb).2
      rw [hstep] at hb'
      rw [List.cons_append, Text.dropBlank_cons_of_isBlank hc, Text.dropBlank_cons_of_isBlank hc]
      exact ih (p := ⟨c :: p.past, false, p.depth⟩) hb' rfl

/-- A character of the inside of a composite asks for the same in both readings. -/
theorem allows_composite_iff {p q : Pass} {c : Char} {body rest : List Char} {surplus : Nat}
    (h : p.Inside q (surplus + 1)) (hb : p.Balanced (c :: body)) :
    q.Allows c (body ++ '}' :: rest) ↔ p.Allows c body := by
  obtain ⟨hs, hb⟩ := balanced_cons.1 hb
  have hquote : q.ClosesQuote c ↔ p.ClosesQuote c := by
    rw [ClosesQuote, ClosesQuote, h.inQuote, h.isMark_iff]
  have hbrace : q.ClosesBrace c ↔ p.ClosesBrace c := by
    rw [ClosesBrace, ClosesBrace, h.inQuote, h.depth]
    constructor
    · rintro ⟨hq, rfl, -⟩
      exact ⟨hq, rfl, Nat.pos_of_ne_zero fun hd => hs ⟨hq, rfl, hd⟩⟩
    · rintro ⟨hq, rfl, hd⟩
      exact ⟨hq, rfl, by omega⟩
  rw [Allows, Allows, hquote, hbrace]
  refine and_congr (forall_congr' fun hc => ?_) (forall_congr' fun hc => ?_)
  · have hstep := step_mark hc.2
    rw [hc.1] at hstep
    rw [hstep] at hb
    rw [h.depth]
    exact mayFollow_composite_iff (p := ⟨c :: p.past, false, p.depth⟩) hb rfl
  · obtain ⟨hq, rfl, hd⟩ := hc
    rw [step_close hq] at hb
    have hdepth : q.depth - 1 = p.depth - 1 + (surplus + 1) := by
      have := h.depth
      omega
    rw [hdepth]
    exact mayFollow_dropBlank_composite_iff (p := ⟨'}' :: p.past, false, p.depth - 1⟩) hb rfl

/-- A flat pass accepts a composite and what stands behind it when it accepts the inside as a
body of its own, and what stands behind may stand there and is accepted. -/
theorem accepts_composite_iff {p q : Pass} {body rest : List Char} {surplus : Nat}
    (h : p.Inside q (surplus + 1)) (hb : p.Balanced body) :
    q.Accepts (body ++ '}' :: rest) ↔
      p.Accepts body ∧ MayFollow surplus (Text.dropBlank rest) ∧
        Accepts ⟨'}' :: (body.reverse ++ q.past), false, surplus⟩ rest := by
  induction body generalizing p q with
  | nil =>
    obtain ⟨hq, hd⟩ := balanced_nil.1 hb
    have hq' : q.inQuote = false := by rw [h.inQuote, hq]
    have hd' : q.depth = surplus + 1 := by rw [h.depth, hd, Nat.zero_add]
    rw [List.nil_append, accepts_cons, step_close hq', accepts_nil]
    simp [Allows, ClosesQuote, ClosesBrace, hq, hq', hd, hd']
  | cons c body ih =>
    obtain ⟨hs, hb'⟩ := balanced_cons.1 hb
    rw [List.cons_append, accepts_cons, accepts_cons, allows_composite_iff h hb,
      ih (h.step hs) hb', past_step]
    simp [and_assoc]

/-- A composite that is never closed leaves the depth above that of its surroundings. -/
theorem depth_through_of_closeBrace_eq_none {p q : Pass} {text : List Char} {surplus : Nat}
    (h : p.Inside q (surplus + 1)) (hn : closeBrace (p.depth + 1) p.inQuote p.past text = none) :
    surplus < (q.through text).depth := by
  induction text generalizing p q with
  | nil =>
    rw [through_nil, h.depth]
    omega
  | cons c text ih =>
    rw [closeBrace_cons] at hn
    split at hn
    · simp at hn
    · rename_i hs
      exact ih (h.step hs) hn

/-! ## Inside a string -/

/-- A flat pass accepts a string and what stands behind it when what stands behind may stand
there and is accepted. -/
theorem accepts_quote_iff {q : Pass} {past body rest : List Char} (hq : q.inQuote = true)
    (he : Text.isEscaped q.past = Text.isEscaped past) (hb : Quotable past body) :
    q.Accepts (body ++ '"' :: rest) ↔
      MayFollow q.depth rest ∧ Accepts ⟨'"' :: (body.reverse ++ q.past), false, q.depth⟩ rest := by
  induction body generalizing q past with
  | nil =>
    have hm : q.IsMark '"' := ⟨rfl, he.trans hb⟩
    rw [List.nil_append, accepts_cons, step_mark hm, hq]
    simp [Allows, ClosesQuote, ClosesBrace, hq, hm]
  | cons c body ih =>
    have hm : ¬ q.IsMark c := fun hm => hb.1 ⟨hm.1, he.symm.trans hm.2⟩
    have he' := Text.isEscaped_cons_congr he c
    rw [List.cons_append, accepts_cons, step_inQuote hm hq, ih rfl he' hb.2]
    simp [Allows, ClosesQuote, ClosesBrace, hq, hm]

/-- A string that is never closed leaves the pass between quotation marks. -/
theorem inQuote_through_of_closeQuote_eq_none {q : Pass} {past text : List Char}
    (hq : q.inQuote = true) (he : Text.isEscaped q.past = Text.isEscaped past)
    (hn : closeQuote past text = none) : (q.through text).inQuote = true := by
  induction text generalizing q past with
  | nil => exact hq
  | cons c text ih =>
    rw [closeQuote] at hn
    split at hn
    · simp at hn
    · rename_i hc
      have hm : ¬ q.IsMark c := fun hm => hc ⟨hm.1, he.symm.trans hm.2⟩
      have he' := Text.isEscaped_cons_congr he c
      rw [through_cons, step_inQuote hm hq]
      exact ih rfl he' hn

end Pass

/-! ## The reader -/

/-- The reader complains about a place exactly when no separator stands there. -/
theorem Cursor.separatorError?_eq_none_iff {p : Cursor} :
    p.separatorError? = none ↔ MayFollow 0 p.rest := by
  obtain ⟨past, rest⟩ := p
  cases rest with
  | nil => simp [separatorError?, MayFollow]
  | cons c rest => simp [separatorError?, MayFollow]

/-- A flat pass accepts what stands behind blank characters as it accepts the whole. -/
theorem Cursor.accepts_skipBlank {p : Cursor} :
    Pass.Accepts ⟨p.skipBlank.past, false, 0⟩ p.skipBlank.rest ↔
      Pass.Accepts ⟨p.past, false, 0⟩ p.rest := by
  obtain ⟨past, rest⟩ := p
  induction rest generalizing past with
  | nil => simp [skipBlank, Text.dropBlank]
  | cons c rest ih =>
    cases hc : Text.isBlank c with
    | false => simp [skipBlank, Text.dropBlank, hc]
    | true =>
      have hskip : (Cursor.mk past (c :: rest)).skipBlank =
          (Cursor.mk (c :: past) rest).skipBlank := by
        simp [skipBlank, Text.dropBlank, hc]
      have hne (d : Char) (hd : Text.isBlank d = false) : c ≠ d := by
        rintro rfl
        simp [hc] at hd
      rw [hskip, ih (c :: past)]
      exact (Pass.accepts_plain (fun hm => hne '"' (by decide) hm.1) (hne '{' (by decide))
        (hne '}' (by decide))).symm

namespace Reading

/-- A flat pass from the place of the reader accepts the rest of the body. -/
def Accepted (r : Reading) : Prop := Pass.Accepts ⟨r.cursor.past, false, 0⟩ r.cursor.rest

/-- One move of the reader and the flat pass: the rest is accepted when the reader does not
refuse, when the composite it meets is accepted as a body of its own with a separator behind
it, and when what is left after the move is accepted. -/
theorem accepted_iff {r : Reading} {c : Char} {rest : List Char} (h : r.cursor.rest = c :: rest) :
    r.Accepted ↔
      match r.step c rest with
      | .refuse _ => False
      | .proceed r' => r'.Accepted
      | .descend body behind =>
        Pass.Accepts {} body ∧ MayFollow 0 (Text.dropBlank behind.rest) ∧
          Pass.Accepts ⟨behind.past, false, 0⟩ behind.rest := by
  rw [Accepted, h, Pass.accepts_cons]
  by_cases hm : Pass.IsMark ⟨r.cursor.past, false, 0⟩ c
  · obtain ⟨rfl, he⟩ := id hm
    have hallows : Pass.Allows ⟨r.cursor.past, false, 0⟩ '"' rest := by
      simp [Pass.Allows, Pass.ClosesQuote, Pass.ClosesBrace]
    have hesc : Text.isEscaped ('"' :: r.cursor.past) = Text.isEscaped [] := by
      simp [Text.isEscaped_cons_of_ne]
    have hstep : Pass.step ⟨r.cursor.past, false, 0⟩ '"' = ⟨'"' :: r.cursor.past, true, 0⟩ :=
      Pass.step_mark hm
    rw [hstep]
    cases hq : closeQuote [] rest with
    | none =>
      rw [step_quote_unclosed he hq, iff_false]
      rintro ⟨-, haccepts⟩
      have hin := Pass.inQuote_through_of_closeQuote_eq_none
        (q := ⟨'"' :: r.cursor.past, true, 0⟩) rfl hesc hq
      exact absurd haccepts.outside (by simp [hin])
    | some cut =>
      obtain ⟨inside, behind⟩ := cut
      obtain ⟨body, rfl, rfl, hbody⟩ := closeQuote_eq_some_iff.1 hq
      rw [Pass.accepts_quote_iff rfl hesc hbody]
      cases hs : (Cursor.mk ('"' :: (body.reverse ++ [] ++ '"' :: r.cursor.past))
          behind).separatorError? with
      | none =>
        rw [step_quote he hq hs]
        have hfollow := Cursor.separatorError?_eq_none_iff.1 hs
        simp [Accepted, hallows, hfollow]
      | some e =>
        rw [step_quote_refused he hq hs, iff_false]
        rintro ⟨-, hfollow, -⟩
        rw [Cursor.separatorError?_eq_none_iff.2 hfollow] at hs
        simp at hs
  · have hallows : Pass.Allows ⟨r.cursor.past, false, 0⟩ c rest := by
      simp [Pass.Allows, Pass.ClosesQuote, Pass.ClosesBrace]
    by_cases ho : c = '{'
    · subst ho
      have hinside : Pass.Inside {} ⟨'{' :: r.cursor.past, false, 1⟩ 1 :=
        ⟨Text.isEscaped_cons_of_ne (by decide) _, rfl, rfl⟩
      rw [Pass.step_open rfl]
      cases hb : closeBrace 1 false [] rest with
      | none =>
        rw [step_brace_unclosed hb, iff_false]
        rintro ⟨-, haccepts⟩
        have hdepth := Pass.depth_through_of_closeBrace_eq_none hinside hb
        exact absurd haccepts.closed (by simp only [Nat.zero_add]; omega)
      | some cut =>
        obtain ⟨inside, behind⟩ := cut
        obtain ⟨body, rfl, rfl, hbody⟩ := (closeBrace_eq_some_iff (p := {})).1 hb
        rw [step_brace hb, Pass.accepts_composite_iff hinside hbody]
        simp [hallows]
    · obtain ⟨r', hr', hcursor⟩ := exists_step_eq_proceed rest hm ho
      rw [hr']
      simp only [Accepted, hcursor]
      by_cases hs : c = '}'
      · subst hs
        rw [Pass.step_close rfl]
        simp [hallows]
      · rw [Pass.step_plain rfl hm ho hs]
        simp [hallows]

/-- A run gives a value exactly when a flat pass accepts what it has to read. -/
theorem exists_run_eq_ok_iff (r : Reading) : (∃ v, r.run = .ok v) ↔ r.Accepted := by
  fun_induction run r with
  | case1 r hr => simp [Accepted, hr, Pass.accepts_nil]
  | case2 r c rest hr e hs => simp [accepted_iff hr, hs]
  | case3 r c rest hr r' hs ih => rw [accepted_iff hr, hs, ih]
  | case4 r c rest hr body behind hs e hbody ih =>
    rw [hbody] at ih
    have hrefused : ¬ Pass.Accepts {} body := fun h => by simpa using ih.2 h
    simp [accepted_iff hr, hs, hrefused]
  | case5 r c rest hr body behind hs v hbody e he ih =>
    have hfollow : ¬ MayFollow 0 behind.skipBlank.rest := fun h => by
      simpa [he] using Cursor.separatorError?_eq_none_iff.2 h
    simp [accepted_iff hr, hs, show ¬ MayFollow 0 (Text.dropBlank behind.rest) from hfollow]
  | case6 r c rest hr body behind hs v hbody he ih ih' =>
    have hinside : Pass.Accepts {} body := ih.1 ⟨v, hbody⟩
    have hfollow : MayFollow 0 (Text.dropBlank behind.rest) :=
      Cursor.separatorError?_eq_none_iff.1 he
    rw [accepted_iff hr, hs, ih']
    simp only [hinside, hfollow, true_and]
    exact Cursor.accepts_skipBlank

end Reading

/-- **The language of bodies.**  A body has a value exactly when a flat pass accepts it. -/
theorem exists_parseBody_eq_ok_iff (body : List Char) :
    (∃ v, parseBody body = .ok v) ↔ Pass.Accepts {} body :=
  Reading.exists_run_eq_ok_iff (.start body)

example : Pass.Accepts {} r#"a={b="}", {1} }, }"#.toList := by decide +kernel
example : ¬ Pass.Accepts {} r#"{"a" }"#.toList := by decide +kernel

end DocFacts
