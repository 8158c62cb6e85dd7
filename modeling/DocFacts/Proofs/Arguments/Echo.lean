import DocFacts.Proofs.Arguments.TopLevel

/-!
# Readers that go on alike

What a reader does from a place on depends on the text there and on its draft, and on little else.
The entries that are finished, and whether an equals sign or a comma has been passed, are only
carried along.  Blank characters at the start of a token are trimmed from it in the end.  And text
that starts with a comma can be put behind what is to be read, because whatever may end a body may
stand in front of a comma.

`Reading.Echoes` relates two readers that differ in these things only.  When one of them advances
the other can follow (`Echoes.advance`), so where one gets to the end of what it reads, the other
gets to the text behind it, with the same entry in its draft (`Echoes.reads`).
-/

namespace DocFacts

/-! ## Blank characters at the start of a token -/

/-- The second token is the first with blank characters in front of its text. -/
inductive Token.Indents : Token → Token → Prop where
  /-- A text, behind blank characters. -/
  | text {t t' : String} {blanks : List Char} (hblanks : ∀ c ∈ blanks, Text.isBlank c = true)
      (ht : t'.toList = blanks ++ t.toList) : Indents (.text t) (.text t')
  /-- A composite has no blank characters to lose. -/
  | composite (v : Value) : Indents (.composite v) (.composite v)

namespace Token.Indents

variable {token token' : Token}

theorem refl (token : Token) : Indents token token := by
  cases token with
  | text t => exact .text (List.forall_mem_nil _) (List.nil_append _).symm
  | composite v => exact .composite v

theorem push (h : Indents token token') (c : Char) : Indents (token.push c) (token'.push c) := by
  cases h with
  | @text t t' blanks hblanks ht =>
    refine .text hblanks ?_
    rw [String.toList_push, String.toList_push, ht, List.append_assoc]
  | composite v => exact .composite v

theorem key_eq (h : Indents token token') : token'.key = token.key := by
  cases h with
  | text hblanks ht => rw [Token.key, ht, Text.trim_blanks_append hblanks, Token.key]
  | composite v => rfl

theorem value_eq (h : Indents token token') : token'.value false = token.value false := by
  cases h with
  | text hblanks ht =>
    simp only [Token.value, Value.cast, Bool.false_eq_true, if_false, ht,
      Text.trim_blanks_append hblanks]
  | composite v => rfl

theorem isBlank_eq (h : Indents token token') : token'.isBlank = token.isBlank := by
  cases h with
  | text hblanks ht =>
    rw [Token.isBlank, ht, Token.isBlank, Text.allBlank, Text.allBlank, List.all_append,
      List.all_eq_true.2 hblanks, Bool.true_and]
  | composite v => rfl

end Token.Indents

/-- The second draft is the first with blank characters in front of its texts.  A string has none
in front of it. -/
structure Draft.Indents (d d' : Draft) : Prop where
  /-- Both are on the same side. -/
  side : d'.side = d.side
  /-- Both hold a string or neither does. -/
  quoted : d'.quoted = d.quoted
  /-- The names differ by blank characters. -/
  name : d.name.Indents d'.name
  /-- The values differ by blank characters. -/
  value : d.value.Indents d'.value
  /-- A string is the same in both. -/
  same (h : d.quoted = true) : d'.current = d.current

namespace Draft.Indents

variable {d d' : Draft}

theorem refl (d : Draft) : Indents d d :=
  ⟨rfl, rfl, .refl _, .refl _, fun _ => rfl⟩

theorem current (h : Indents d d') : d.current.Indents d'.current := by
  rw [Draft.current, Draft.current, h.side]
  cases d.side with
  | name => exact h.name
  | value => exact h.value

/-- Replacing the token that is being read keeps the relation. -/
theorem setCurrent (h : Indents d d') {token token' : Token} (htoken : token.Indents token')
    (hsame : d.quoted = true → token' = token) :
    Indents (d.setCurrent token) (d'.setCurrent token') := by
  obtain ⟨side, name, value, quoted⟩ := d
  obtain ⟨side', name', value', quoted'⟩ := d'
  obtain rfl : side' = side := h.side
  cases side' with
  | name => exact ⟨rfl, h.quoted, htoken, h.value, hsame⟩
  | value => exact ⟨rfl, h.quoted, h.name, htoken, hsame⟩

theorem push (h : Indents d d') (c : Char) : Indents (d.push c) (d'.push c) :=
  h.setCurrent (h.current.push c) fun hquoted => by rw [h.same hquoted]

theorem compose (h : Indents d d') (v : Value) : Indents (d.compose v) (d'.compose v) :=
  h.setCurrent (.refl _) fun _ => rfl

theorem quote (h : Indents d d') (text : String) : Indents (d.quote text) (d'.quote text) := by
  have hset := h.setCurrent (.refl (.text text)) fun _ => rfl
  refine ⟨hset.side, rfl, hset.name, hset.value, fun _ => ?_⟩
  have hcurrent (e : Draft) : (e.quote text).current = .text text := current_setCurrent _
  rw [hcurrent, hcurrent]

theorem crossEquals (h : Indents d d') : Indents d.crossEquals d'.crossEquals :=
  ⟨rfl, rfl, h.name, h.value, fun hquoted => by cases hquoted⟩

/-- Whether anything has been written does not depend on the blank characters. -/
theorem isEmpty_eq (h : Indents d d') : d'.isEmpty = d.isEmpty := by
  rw [Draft.isEmpty, Draft.isEmpty, h.side, h.quoted, h.name.isBlank_eq]

theorem current_value_eq (h : Indents d d') :
    d'.current.value d'.quoted = d.current.value d.quoted := by
  rw [h.quoted]
  cases hquoted : d.quoted with
  | true => rw [h.same hquoted]
  | false => exact h.current.value_eq

/-- The entry does not depend on the blank characters. -/
theorem finish_eq (h : Indents d d') : d'.finish = d.finish := by
  have hvalue := h.current_value_eq
  have hkey := h.name.key_eq
  obtain ⟨side, name, value, quoted⟩ := d
  obtain ⟨side', name', value', quoted'⟩ := d'
  obtain rfl : side' = side := h.side
  cases side' with
  | name => exact congrArg₂ Entry.unnamed hkey hvalue
  | value => exact congrArg₂ Entry.named hkey hvalue

end Draft.Indents

/-! ## A part of a body and its surroundings -/

theorem MayFollow.append {front back : List Char} (hfront : MayFollow 0 front)
    (hback : MayFollow 0 back) : MayFollow 0 (front ++ back) := by
  cases front with
  | nil => exact hback
  | cons c front => exact hfront

/-- What stands around a part of a body. -/
structure Surroundings where
  /-- The entries that are finished in front of it, the last one first. -/
  entries : List Entry := []
  /-- An equals sign has been crossed in front of it. -/
  keyed : Bool := false
  /-- A comma has been passed in front of it. -/
  separated : Bool := false
  /-- The text behind it. -/
  behind : List Char := []

namespace Reading

/-- The first reader reads a part of a body, and the second one reads it in its surroundings, with
blank characters in front of its token. -/
structure Echoes (w : Surroundings) (r r' : Reading) : Prop where
  /-- More text stands behind what is to be read. -/
  rest : r'.cursor.rest = r.cursor.rest ++ w.behind
  /-- What stands in front makes no difference. -/
  escaped : Text.isEscaped r'.cursor.past = Text.isEscaped r.cursor.past
  /-- The drafts differ by blank characters. -/
  draft : r.draft.Indents r'.draft
  /-- The entries of the surroundings come first. -/
  entries : r'.entries = r.entries ++ w.entries
  /-- An equals sign of the surroundings counts. -/
  keyed : r'.keyed = (r.keyed || w.keyed)
  /-- A comma of the surroundings counts. -/
  separated : r'.separated = (r.separated || w.separated)

variable {w : Surroundings} {r r' s : Reading}

theorem Echoes.flush_eq (h : Echoes w r r') : r'.flush = r.flush ++ w.entries := by
  rw [flush, flush, h.draft.isEmpty_eq, h.draft.finish_eq, h.entries]
  split
  · rfl
  · rfl

theorem Echoes.rest_eq (h : Echoes w r r') {text : List Char} (hrest : r.cursor.rest = text) :
    r'.cursor.rest = text ++ w.behind := by
  rw [h.rest, hrest]

/-- When the reader of a part advances, the reader in the surroundings does so, too. -/
theorem Echoes.advance (h : Echoes w r r') (hbehind : MayFollow 0 w.behind) (hs : Advance r s) :
    ∃ s', Advance r' s' ∧ Echoes w s s' := by
  cases hs with
  | @string inside back hrest hescaped hinside hback =>
    refine ⟨_, @Advance.string _ inside (back ++ w.behind) ?_ (h.escaped.trans hescaped) hinside
      (hback.append hbehind), ?_⟩
    · rw [h.rest_eq hrest]
      simp
    · have hmark (past : List Char) : Text.isEscaped ('"' :: past) = false :=
        Text.isEscaped_cons_of_ne (by decide) past
      exact ⟨rfl, by rw [hmark, hmark], h.draft.quote _, h.entries, h.keyed, h.separated⟩
  | @equals back hrest hside =>
    exact ⟨_, .equals (h.rest_eq hrest) (h.draft.side.trans hside), rfl,
      Text.isEscaped_cons_congr h.escaped _, h.draft.crossEquals, h.entries, rfl, h.separated⟩
  | @comma back hrest =>
    exact ⟨_, .comma (h.rest_eq hrest), rfl, Text.isEscaped_cons_congr h.escaped _, .refl _,
      h.flush_eq, h.keyed, rfl⟩
  | @composite inside gap back v hrest hinside hvalue hgap hback =>
    refine ⟨_, @Advance.composite _ inside gap (back ++ w.behind) v ?_ hinside hvalue hgap
      (hback.append hbehind), ?_⟩
    · rw [h.rest_eq hrest]
      simp
    · have hbrace := Text.isEscaped_append_cons (show '}' ≠ '\\' by decide) gap.reverse
      exact ⟨rfl, (hbrace _).trans (hbrace _).symm, h.draft.compose v, h.entries, h.keyed,
        h.separated⟩
  | @stray back hrest =>
    exact ⟨_, .stray (h.rest_eq hrest), rfl, Text.isEscaped_cons_congr h.escaped _, h.draft,
      h.entries, h.keyed, h.separated⟩
  | @text c back hrest hmark hequals hcomma hopen hclose =>
    refine ⟨_, .text (h.rest_eq hrest) ?_ ?_ hcomma hopen hclose, rfl,
      Text.isEscaped_cons_congr h.escaped _, h.draft.push c, h.entries, h.keyed, h.separated⟩
    · rw [h.escaped]
      exact hmark
    · rw [h.draft.side]
      exact hequals

/-- Where the reader of a part gets, the reader in the surroundings gets, too. -/
theorem Echoes.reads (h : Echoes w r r') (hbehind : MayFollow 0 w.behind) (hs : Reads r s) :
    ∃ s', Reads r' s' ∧ Echoes w s s' := by
  induction hs with
  | refl => exact ⟨r', .refl, h⟩
  | tail _ hlast ih =>
    obtain ⟨t', ht, hecho⟩ := ih
    obtain ⟨s', hs', hecho'⟩ := hecho.advance hbehind hlast
    exact ⟨s', ht.tail hs', hecho'⟩

/-- Without surroundings the value is the same. -/
theorem Echoes.run_eq_ok (h : Echoes {} r r') {v : Value} (hv : r.run = .ok v) :
    r'.run = .ok v := by
  obtain ⟨s, hs, hend, rfl⟩ := run_eq_ok_iff.1 hv
  obtain ⟨s', hs', hecho⟩ := h.reads (mayFollow_nil 0) hs
  have hflush : s'.flush = s.flush := hecho.flush_eq.trans (List.append_nil _)
  have hkeyed : s'.keyed = s.keyed := hecho.keyed.trans (Bool.or_false _)
  have hseparated : s'.separated = s.separated := hecho.separated.trans (Bool.or_false _)
  refine run_eq_ok_iff.2 ⟨s', hs', ?_, ?_⟩
  · rw [hecho.rest, hend]
    rfl
  · rw [result, result, hflush, hkeyed, hseparated]

/-- Of what has been read the reader needs the draft, up to blank characters, and whether it escapes
what comes next. -/
theorem echoes_of_indents (r : Reading) {past past' rest : List Char} {d d' : Draft}
    (hescaped : Text.isEscaped past' = Text.isEscaped past) (hd : d.Indents d') :
    Echoes {} { r with cursor := ⟨past, rest⟩, draft := d }
      { r with cursor := ⟨past', rest⟩, draft := d' } :=
  ⟨(List.append_nil _).symm, hescaped, hd, (List.append_nil _).symm, (Bool.or_false _).symm,
    (Bool.or_false _).symm⟩

/-! ## Blank characters in front of a token -/

/-- The reader goes over blank characters and keeps them as text. -/
theorem reads_blanks {blanks back seen : List Char}
    (hblanks : ∀ c ∈ blanks, Text.isBlank c = true) (hrest : r.cursor.rest = blanks ++ back)
    (hcurrent : r.draft.current = .text (String.ofList seen)) :
    Reads r { r with
      cursor := ⟨blanks.reverse ++ r.cursor.past, back⟩
      draft := r.draft.setCurrent (.text (String.ofList (seen ++ blanks))) } :=
  reads_class rfl hblanks hrest hcurrent

end Reading

end DocFacts
