import DocFacts.Proofs.Arguments.TopLevel

/-!
# Blank characters behind a body

Blank characters behind a body that can be read change nothing, unless the body ends in the
quotation mark of a string: behind a string nothing may stand but a comma or the end.
`Reading.stretches` is the statement about the reader, by induction on what is left to read.  The
reader makes the same advances over the longer body until it comes to the blank characters, which
end up in a draft that trims them.  So it is enough that no draft holds a string there, and that is
what its hypothesis keeps: a string has a comma behind it.
-/

namespace DocFacts

/-! ## Blank characters at the end of a draft -/

namespace Token

variable {c : Char}

theorem key_push (hc : Text.isBlank c = true) (token : Token) : (token.push c).key = token.key := by
  cases token with
  | text t =>
    simp only [push, key, String.toList_push]
    rw [Text.trim_append (by simpa using hc)]
  | composite v => rfl

theorem value_push (hc : Text.isBlank c = true) (token : Token) :
    (token.push c).value false = token.value false := by
  cases token with
  | text t =>
    have htrim := Text.trim_append (List.forall_mem_singleton.2 hc) t.toList
    simp only [push, value, Value.cast, String.toList_push, Bool.false_eq_true, if_false, htrim]
  | composite v => rfl

theorem isBlank_push (hc : Text.isBlank c = true) (token : Token) :
    (token.push c).isBlank = token.isBlank := by
  cases token with
  | text t => simp [push, isBlank, Text.allBlank, hc]
  | composite v => rfl

end Token

namespace Draft

variable {c : Char} {d : Draft}

theorem quoted_push : (d.push c).quoted = d.quoted := quoted_setCurrent _

theorem finish_push (hc : Text.isBlank c = true) (hd : d.quoted = false) :
    (d.push c).finish = d.finish := by
  obtain ⟨side, name, value, quoted⟩ := d
  cases hd
  cases side with
  | name => simp [push, setCurrent, current, finish, Token.key_push hc, Token.value_push hc]
  | value => simp [push, setCurrent, current, finish, Token.value_push hc]

theorem isEmpty_push (hc : Text.isBlank c = true) : (d.push c).isEmpty = d.isEmpty := by
  obtain ⟨side, name, value, quoted⟩ := d
  cases side with
  | name => simp [push, setCurrent, current, isEmpty, Token.isBlank_push hc]
  | value => rfl

end Draft

/-! ## Where a body ends -/

/-- The text ends in a quotation mark that is not escaped.  `past` is what stands in front of the
text, the last character first. -/
def EndsInMark (past text : List Char) : Prop :=
  ∃ front, text = front ++ ['"'] ∧ Text.isEscaped (front.reverse ++ past) = false

theorem not_endsInMark_nil (past : List Char) : ¬ EndsInMark past [] := by
  rintro ⟨front, hfront, -⟩
  simp at hfront

theorem endsInMark_append_singleton {past front : List Char} {c : Char} :
    EndsInMark past (front ++ [c]) ↔ c = '"' ∧ Text.isEscaped (front.reverse ++ past) = false := by
  constructor
  · rintro ⟨front', hfront, hescaped⟩
    obtain ⟨rfl, hc⟩ := List.append_inj' hfront rfl
    exact ⟨(List.cons.inj hc).1, hescaped⟩
  · rintro ⟨rfl, hescaped⟩
    exact ⟨front, rfl, hescaped⟩

/-- What is behind the front of a text decides, unless there is nothing. -/
theorem endsInMark_append_iff {past front rest : List Char} (hrest : rest ≠ []) :
    EndsInMark past (front ++ rest) ↔ EndsInMark (front.reverse ++ past) rest := by
  obtain ⟨rest, c, rfl⟩ := (List.eq_nil_or_concat rest).resolve_left hrest
  rw [List.concat_eq_append, ← List.append_assoc, endsInMark_append_singleton,
    endsInMark_append_singleton]
  simp

theorem endsInMark_cons_iff {past rest : List Char} {c : Char} :
    EndsInMark past (c :: rest) ↔
      (rest = [] ∧ c = '"' ∧ Text.isEscaped past = false) ∨ EndsInMark (c :: past) rest := by
  cases rest with
  | nil =>
    rw [← List.nil_append [c], endsInMark_append_singleton]
    simp [not_endsInMark_nil]
  | cons d rest =>
    have hcons :
        EndsInMark past ([c] ++ d :: rest) ↔ EndsInMark ([c].reverse ++ past) (d :: rest) :=
      endsInMark_append_iff (List.cons_ne_nil d rest)
    simpa using hcons

/-! ## The reader -/

namespace Reading

variable {r r' : Reading} {v : Value} {c : Char} {rest blanks : List Char}

/-- The reader with more to read at the end. -/
def longer (r : Reading) (more : List Char) : Reading :=
  { r with cursor := ⟨r.cursor.past, r.cursor.rest ++ more⟩ }

/-- A string that is being read has a comma behind it. -/
def Settled (r : Reading) : Prop := r.draft.quoted = true → ∃ rest, r.cursor.rest = ',' :: rest

/-- A reader that only has blank characters to read has reached the end. -/
theorem run_blanks (hblanks : ∀ c ∈ blanks, Text.isBlank c = true) (hr : r.cursor.rest = blanks)
    (hd : r.draft.quoted = false) : r.run = .ok r.result := by
  induction blanks generalizing r with
  | nil => exact run_nil hr
  | cons c blanks ih =>
    obtain ⟨hc, hblanks⟩ := List.forall_mem_cons.1 hblanks
    have hne {d : Char} (hd : Text.isBlank d = false) : c ≠ d := Text.ne_of_class hc hd
    have hstep : r.step c blanks = .proceed { r with
        cursor := ⟨c :: r.cursor.past, blanks⟩, draft := r.draft.push c } :=
      step_text (fun h => hne (by decide) h.1) (fun h => hne (by decide) h.1) (hne (by decide))
        (hne (by decide)) (hne (by decide))
    rw [run_proceed hr hstep, ih hblanks rfl (Draft.quoted_push.trans hd)]
    simp only [result, flush, Draft.isEmpty_push hc, Draft.finish_push hc hd]

/-- Blank characters behind what is to be read leave the value as it is, unless it ends in a
string. -/
structure Stretches (r : Reading) (v : Value) (blanks : List Char) : Prop where
  /-- The value is the same behind anything but a string. -/
  same : ¬ EndsInMark r.cursor.past r.cursor.rest → (r.longer blanks).run = .ok v
  /-- Behind a string they are refused. -/
  refused : EndsInMark r.cursor.past r.cursor.rest →
    ∃ near, (r.longer blanks).run = .error (.missingComma near)

/-- It is enough to look at a later state. -/
theorem Stretches.of_run_eq (front : List Char) (h : r'.Stretches v blanks)
    (hrun : (r.longer blanks).run = (r'.longer blanks).run)
    (hrest : r.cursor.rest = front ++ r'.cursor.rest)
    (hpast : r'.cursor.past = front.reverse ++ r.cursor.past)
    (hend : r'.cursor.rest = [] → ¬ EndsInMark r.cursor.past front) : r.Stretches v blanks := by
  have hiff : EndsInMark r.cursor.past r.cursor.rest ↔
      EndsInMark r'.cursor.past r'.cursor.rest := by
    by_cases hnil : r'.cursor.rest = []
    · rw [hrest, hnil, List.append_nil]
      exact iff_of_false (hend hnil) (not_endsInMark_nil _)
    · rw [hrest, hpast, endsInMark_append_iff hnil]
  refine ⟨fun hnot => ?_, fun hmark => ?_⟩
  · rw [hrun]
    exact h.same fun hmark => hnot (hiff.2 hmark)
  · rw [hrun]
    exact h.refused (hiff.1 hmark)

/-- Blank characters behind what is left to read after an advance are behind what was left before
it. -/
theorem Advance.stretches {token : List Char} (h : Advance r r')
    (htoken : r.cursor.rest = token ++ r'.cursor.rest)
    (hfollow : 1 < token.length → MayFollow 0 r'.cursor.rest →
      MayFollow 0 (r'.cursor.rest ++ blanks))
    (hend : r'.cursor.rest = [] → ¬ EndsInMark r.cursor.past token)
    (hr' : r'.Stretches v blanks) : r.Stretches v blanks := by
  have hpast : r'.cursor.past = token.reverse ++ r.cursor.past := by
    obtain ⟨token', hrest, hpast, -⟩ := h.exists_token
    rwa [List.append_cancel_right (htoken.symm.trans hrest)]
  have honto : r.longer blanks = r.onto (token ++ (r'.cursor.rest ++ blanks)) := by
    rw [longer, htoken, List.append_assoc, Reading.onto]
  refine hr'.of_run_eq token ?_ htoken hpast hend
  rw [honto, (h.onto htoken hfollow).run_eq]
  rfl

/-- A token of one character that is no quotation mark ends in none. -/
theorem not_endsInMark_singleton {past : List Char}
    (hmark : ¬ (c = '"' ∧ Text.isEscaped past = false)) : ¬ EndsInMark past [c] := by
  rw [← List.nil_append [c], endsInMark_append_singleton]
  exact hmark

/-- A string at the end is refused with blank characters behind it. -/
theorem stretches_string_at_end {inside : List Char}
    (hblanks : ∀ c ∈ blanks, Text.isBlank c = true) (hne : blanks ≠ [])
    (hrest : r.cursor.rest = '"' :: (inside ++ ['"']))
    (he : Text.isEscaped r.cursor.past = false) (hinside : Quotable [] inside) :
    r.Stretches v blanks := by
  obtain ⟨c, blanks, rfl⟩ := List.exists_cons_of_ne_nil hne
  have hc : c ≠ ',' := Text.ne_of_class (hblanks c List.mem_cons_self) (by decide)
  refine ⟨fun hnot => absurd ?_ hnot, fun _ => ?_⟩
  · rw [hrest, ← List.cons_append, endsInMark_append_singleton]
    refine ⟨rfl, ?_⟩
    rw [List.reverse_cons, List.append_assoc]
    exact isEscaped_of_quotable hinside (Text.isEscaped_cons_of_ne (by decide) _)
  · have hlonger :
        (r.longer (c :: blanks)).cursor.rest = '"' :: (inside ++ '"' :: c :: blanks) := by
      rw [longer, hrest]
      simp
    obtain ⟨near, herror⟩ : ∃ near,
        (Cursor.mk ('"' :: (inside.reverse ++ '"' :: r.cursor.past)) (c :: blanks)).separatorError? =
          some (.missingComma near) := ⟨_, if_neg hc⟩
    exact ⟨near, (Stuck.behindString hlonger he hinside herror).run_eq⟩

/-- A text that ends in a brace and blank characters ends in no quotation mark. -/
theorem not_endsInMark_brace {past front : List Char}
    (hblanks : ∀ c ∈ blanks, Text.isBlank c = true) :
    ¬ EndsInMark past (front ++ '}' :: blanks) := by
  rintro ⟨front', hfront, -⟩
  have hlast := congrArg List.getLast? hfront
  rw [List.getLast?_append, List.getLast?_append] at hlast
  have hmem : '"' ∈ '}' :: blanks := List.mem_of_getLast? (by simpa using hlast)
  rcases List.mem_cons.1 hmem with hbrace | hblank
  · exact absurd hbrace (by decide)
  · exact absurd (hblanks _ hblank) (by decide)

/-- Behind a composite at the end blank characters are passed with those that are there. -/
theorem stretches_composite_at_end {inside gap : List Char} {u : Value}
    (hblanks : ∀ c ∈ blanks, Text.isBlank c = true)
    (hrest : r.cursor.rest = '{' :: (inside ++ '}' :: gap)) (hinside : Pass.Balanced {} inside)
    (hvalue : parseBody inside = .ok u) (hgap : ∀ c ∈ gap, Text.isBlank c = true)
    (hv : (r.take u ⟨[], []⟩).result = v) : r.Stretches v blanks := by
  refine ⟨fun _ => ?_, fun hmark => ?_⟩
  · have hlonger : (r.longer blanks).cursor.rest =
        '{' :: (inside ++ '}' :: ((gap ++ blanks) ++ [])) := by
      rw [longer, hrest]
      simp
    have hadvance := Advance.composite hlonger hinside hvalue
      (List.forall_mem_append.2 ⟨hgap, hblanks⟩) (mayFollow_nil 0)
    rw [hadvance.run_eq, run_nil rfl, ← hv]
    rfl
  · rw [hrest, ← List.cons_append] at hmark
    exact absurd hmark (not_endsInMark_brace hgap)

/-- A reader at the end goes on over the blank characters. -/
theorem stretches_end (hblanks : ∀ c ∈ blanks, Text.isBlank c = true)
    (hrest : r.cursor.rest = []) (hsettled : r.Settled) : r.Stretches r.result blanks := by
  have hquoted : r.draft.quoted = false := by
    refine eq_false_of_ne_true fun hd => ?_
    obtain ⟨behind, hbehind⟩ := hsettled hd
    rw [hrest] at hbehind
    cases hbehind
  refine ⟨fun _ => ?_, fun hmark => ?_⟩
  · exact run_blanks hblanks (by rw [longer, hrest, List.nil_append]) hquoted
  · rw [hrest] at hmark
    exact absurd hmark (not_endsInMark_nil _)

/-- A string is read only in front of a comma or the end. -/
theorem Settled.unquoted (h : r.Settled) (hrest : r.cursor.rest = c :: rest) (hc : c ≠ ',') :
    r.draft.quoted = false := by
  refine eq_false_of_ne_true fun hd => ?_
  obtain ⟨behind, hbehind⟩ := h hd
  rw [hrest] at hbehind
  exact hc (List.cons.inj hbehind).1

theorem settled_of_unquoted (h : r.draft.quoted = false) : r.Settled := by
  intro hd
  rw [h] at hd
  cases hd

/-- **Blank characters behind a body.** -/
theorem stretches (hblanks : ∀ c ∈ blanks, Text.isBlank c = true) (hne : blanks ≠ [])
    (hsettled : r.Settled) (hr : r.run = .ok v) : r.Stretches v blanks := by
  induction hk : r.cursor.rest.length using Nat.strongRecOn generalizing r with
  | _ k ih =>
    cases hrest : r.cursor.rest with
    | nil =>
      obtain rfl : r.result = v := Except.ok.inj ((run_nil hrest).symm.trans hr)
      exact stretches_end hblanks hrest hsettled
    | cons d rest =>
      obtain ⟨s, hadvance, hs⟩ := exists_advance hrest hr
      have hstretches (hsettled' : s.Settled) : s.Stretches v blanks :=
        ih _ (hk ▸ hadvance.length_lt) hsettled' hs rfl
      have hshort {c : Char} {P : Prop} (h : 1 < [c].length) : P := absurd h (by simp)
      cases hadvance with
      | @string inside back hrest' hescaped hinside hback =>
        rcases hback.eq_nil_or_comma with rfl | ⟨behind, rfl⟩
        · exact stretches_string_at_end hblanks hne hrest' hescaped hinside
        · have htoken : r.cursor.rest = '"' :: (inside ++ ['"']) ++ ',' :: behind := by
            rw [hrest']
            simp
          refine (Advance.string hrest' hescaped hinside hback).stretches htoken
            (fun _ _ => mayFollow_comma 0 _) (fun hnil => by cases hnil) (hstretches ?_)
          exact fun _ => ⟨behind, rfl⟩
      | @equals back hrest' hside =>
        exact (Advance.equals hrest' hside).stretches hrest' hshort
          (fun _ => not_endsInMark_singleton fun h => by cases h.1)
          (hstretches (settled_of_unquoted rfl))
      | @comma back hrest' =>
        exact (Advance.comma hrest').stretches hrest' hshort
          (fun _ => not_endsInMark_singleton fun h => by cases h.1)
          (hstretches (settled_of_unquoted rfl))
      | @composite inside gap back u hrest' hinside hvalue hgap hback =>
        rcases hback.eq_nil_or_comma with rfl | ⟨behind, rfl⟩
        · rw [List.append_nil] at hrest'
          have hv : (r.take u _).result = v := Except.ok.inj ((run_nil rfl).symm.trans hs)
          exact stretches_composite_at_end hblanks hrest' hinside hvalue hgap hv
        · have htoken : r.cursor.rest = '{' :: (inside ++ '}' :: gap) ++ ',' :: behind := by
            rw [hrest']
            simp
          refine (Advance.composite hrest' hinside hvalue hgap hback).stretches htoken
            (fun _ _ => mayFollow_comma 0 _) (fun hnil => by cases hnil)
            (hstretches fun _ => ⟨behind, rfl⟩)
      | @stray back hrest' =>
        exact (Advance.stray hrest').stretches hrest' hshort
          (fun _ => not_endsInMark_singleton fun h => by cases h.1)
          (hstretches (settled_of_unquoted (hsettled.unquoted hrest' (by decide))))
      | @text c back hrest' hmark hequals hcomma hopen hclose =>
        exact (Advance.text hrest' hmark hequals hcomma hopen hclose).stretches hrest' hshort
          (fun _ => not_endsInMark_singleton hmark)
          (hstretches (settled_of_unquoted
            (Draft.quoted_push.trans (hsettled.unquoted hrest' hcomma))))

end Reading

/-! ## Bodies that cannot be read -/

namespace Pass

variable {p : Pass} {blanks : List Char}

/-- Blank characters leave the state of a pass as it is. -/
theorem accepts_of_accepts_blanks (hblanks : ∀ c ∈ blanks, Text.isBlank c = true)
    (h : p.Accepts blanks) : p.inQuote = false ∧ p.depth = 0 := by
  induction blanks generalizing p with
  | nil => exact accepts_nil.1 h
  | cons c blanks ih =>
    obtain ⟨hc, hblanks⟩ := List.forall_mem_cons.1 hblanks
    have hne {d : Char} (hd : Text.isBlank d = false) : c ≠ d := Text.ne_of_class hc hd
    have hm : ¬ p.IsMark c := fun hm => hne (by decide) hm.1
    have hstep := ih hblanks (accepts_cons.1 h).2
    cases hq : p.inQuote with
    | true =>
      rw [step_inQuote hm hq] at hstep
      cases hstep.1
    | false =>
      rw [step_plain hq hm (hne (by decide)) (hne (by decide))] at hstep
      exact ⟨rfl, hstep.2⟩

/-- What is accepted with blank characters behind it is accepted without them. -/
theorem Accepts.of_append_blanks {text : List Char}
    (hblanks : ∀ c ∈ blanks, Text.isBlank c = true) (h : p.Accepts (text ++ blanks)) :
    p.Accepts text := by
  obtain ⟨hq, hd⟩ := accepts_of_accepts_blanks hblanks h.back
  exact h.front hq hd

end Pass

/-! ## Bodies -/

/-- **Blank characters behind a body that can be read.** -/
theorem parseBody_append_blanks {body blanks : List Char} {v : Value}
    (hblanks : ∀ c ∈ blanks, Text.isBlank c = true) (hne : blanks ≠ [])
    (h : parseBody body = .ok v) :
    (¬ EndsInMark [] body → parseBody (body ++ blanks) = .ok v) ∧
      (EndsInMark [] body → ∃ near, parseBody (body ++ blanks) = .error (.missingComma near)) := by
  have hsettled : (Reading.start body).Settled := by
    intro hd
    cases hd
  have hstretches := Reading.stretches hblanks hne hsettled h
  exact ⟨hstretches.same, hstretches.refused⟩

/-- A body that cannot be read is refused with blank characters behind it, too. -/
theorem exists_parseBody_append_eq_error {body blanks : List Char} {e : ParseError}
    (hblanks : ∀ c ∈ blanks, Text.isBlank c = true) (h : parseBody body = .error e) :
    ∃ e', parseBody (body ++ blanks) = .error e' := by
  cases happend : parseBody (body ++ blanks) with
  | error e' => exact ⟨e', rfl⟩
  | ok v =>
    have haccepted := (Reading.exists_run_eq_ok_iff (.start (body ++ blanks))).1 ⟨v, happend⟩
    obtain ⟨u, hu⟩ := (Reading.exists_run_eq_ok_iff (.start body)).2
      (Pass.Accepts.of_append_blanks hblanks haccepted)
    rw [parseBody, hu] at h
    cases h

end DocFacts
