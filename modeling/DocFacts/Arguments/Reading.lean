import DocFacts.Arguments.Entry
import DocFacts.Arguments.Error

/-!
# The moves of the reader

A body is read from left to right.  A quoted string runs to the next quotation mark that is
not escaped.  A composite runs to the brace that closes it, where braces inside quoted strings
do not count.  Behind a string must come a comma or the end.  A comma finishes an entry, the
first equals sign of an entry separates its name from its value, a stray closing brace is
skipped, and everything else is text.

`Reading.step` is one move of the reader.  A move that meets a composite hands its inside back.
`Reading.Moves` has one case for each kind of character, and `Reading.step_moves` says that every
move is one of them.  Each move leaves less to read, and so does each composite.
-/

namespace DocFacts

/-- A place in a body. -/
structure Cursor where
  /-- What has been read, the last character first. -/
  past : List Char
  /-- What is still to be read. -/
  rest : List Char
deriving DecidableEq, Repr

namespace Cursor

/-- The number of characters in front of the place. -/
def offset (p : Cursor) : Nat := p.past.length

/-- Move over blank characters. -/
def skipBlank (p : Cursor) : Cursor :=
  ⟨(p.rest.takeWhile Text.isBlank).reverse ++ p.past, Text.dropBlank p.rest⟩

/-- The complaint about a place where neither a comma nor the end is.  It shows the last ten
characters up to and with the one at the place. -/
def separatorError? (p : Cursor) : Option ParseError :=
  match p.rest with
  | [] => none
  | c :: _ =>
    if c = ',' then none
    else some (.missingComma (String.ofList ((c :: p.past).take 10).reverse))

end Cursor

/-- Split a text behind its first quotation mark that is not escaped.  `inside` is what has
been passed, the last character first. -/
def closeQuote (inside : List Char) : List Char → Option (List Char × List Char)
  | [] => none
  | c :: rest =>
    if c = '"' ∧ Text.isEscaped inside = false then some (inside, rest)
    else closeQuote (c :: inside) rest

/-- Split a text behind the brace that closes `depth` open ones.  Between quotation marks
braces do not count.  `inside` is what has been passed, the last character first. -/
def closeBrace (depth : Nat) (inQuote : Bool) (inside : List Char) :
    List Char → Option (List Char × List Char)
  | [] => none
  | c :: rest =>
    if c = '"' ∧ Text.isEscaped inside = false then
      closeBrace depth (!inQuote) (c :: inside) rest
    else if inQuote then closeBrace depth inQuote (c :: inside) rest
    else if c = '{' then closeBrace (depth + 1) inQuote (c :: inside) rest
    else if c = '}' then
      if depth - 1 = 0 then some (inside, rest)
      else closeBrace (depth - 1) inQuote (c :: inside) rest
    else closeBrace depth inQuote (c :: inside) rest

/-- The state of the reader between two moves. -/
structure Reading where
  /-- The place. -/
  cursor : Cursor
  /-- The entries finished so far, the last one first. -/
  entries : List Entry := []
  /-- The entry that is being read. -/
  draft : Draft := {}
  /-- An equals sign has been crossed in some entry. -/
  keyed : Bool := false
  /-- A comma has been passed. -/
  separated : Bool := false
deriving DecidableEq, Repr

/-- What a move comes to. -/
inductive Move where
  /-- The body is refused. -/
  | refuse (e : ParseError)
  /-- The reader goes on from a new state. -/
  | proceed (r : Reading)
  /-- A composite: its inside, and the place behind its closing brace. -/
  | descend (body : List Char) (behind : Cursor)
deriving DecidableEq, Repr

namespace Reading

/-- The state in which the reading of a body starts. -/
def start (body : List Char) : Reading := { cursor := ⟨[], body⟩ }

/-- Finish the entry that is being read.  An empty one is dropped. -/
def flush (r : Reading) : List Entry :=
  if r.draft.isEmpty then r.entries else r.draft.finish :: r.entries

/-- The value of the body whose end the reader has reached. -/
def result (r : Reading) : Value := Entry.assemble r.flush.reverse r.keyed r.separated

/-- One move over the character `c`, which stands in front of `rest`. -/
def step (r : Reading) (c : Char) (rest : List Char) : Move :=
  let past := r.cursor.past
  let next : Cursor := ⟨c :: past, rest⟩
  if c = '"' ∧ Text.isEscaped past = false then
    match closeQuote [] rest with
    | none => .refuse (.unterminatedQuote r.cursor.offset)
    | some (inside, rest) =>
      let behind : Cursor := ⟨c :: (inside ++ c :: past), rest⟩
      match behind.separatorError? with
      | some e => .refuse e
      | none =>
        let text := String.ofList inside.reverse
        .proceed { r with cursor := behind, draft := r.draft.quote text }
  else if c = '=' ∧ r.draft.side = .name then
    .proceed { r with cursor := next, draft := r.draft.crossEquals, keyed := true }
  else if c = ',' then
    .proceed { r with cursor := next, entries := r.flush, draft := {}, separated := true }
  else if c = '{' then
    match closeBrace 1 false [] rest with
    | none => .refuse (.unterminatedComposite (String.ofList rest))
    | some (inside, rest) => .descend inside.reverse ⟨'}' :: (inside ++ c :: past), rest⟩
  else if c = '}' then .proceed { r with cursor := next }
  else .proceed { r with cursor := next, draft := r.draft.push c }

end Reading

/-! ## Lengths -/

section

variable {depth : Nat} {inQuote : Bool} {c : Char} {inside text inside' rest : List Char}

theorem closeQuote_length (h : closeQuote inside text = some (inside', rest)) :
    inside'.length + rest.length + 1 = inside.length + text.length := by
  induction text generalizing inside with
  | nil => cases h
  | cons c text ih =>
    rw [closeQuote] at h
    by_cases hmark : c = '"' ∧ Text.isEscaped inside = false
    · rw [if_pos hmark] at h
      cases h
      rfl
    · rw [if_neg hmark] at h
      have hrest := ih h
      simp only [List.length_cons] at hrest ⊢
      omega

theorem closeBrace_mark (hmark : c = '"' ∧ Text.isEscaped inside = false) :
    closeBrace depth inQuote inside (c :: text) =
      closeBrace depth (!inQuote) (c :: inside) text := by
  simp [closeBrace, hmark]

theorem closeBrace_inQuote (hmark : ¬ (c = '"' ∧ Text.isEscaped inside = false)) :
    closeBrace depth true inside (c :: text) = closeBrace depth true (c :: inside) text := by
  simp [closeBrace, hmark]

theorem closeBrace_open : closeBrace depth false inside ('{' :: text) =
    closeBrace (depth + 1) false ('{' :: inside) text := by
  simp [closeBrace]

theorem closeBrace_last (hdepth : depth - 1 = 0) :
    closeBrace depth false inside ('}' :: text) = some (inside, text) := by
  simp [closeBrace, hdepth]

theorem closeBrace_close (hdepth : depth - 1 ≠ 0) :
    closeBrace depth false inside ('}' :: text) =
      closeBrace (depth - 1) false ('}' :: inside) text := by
  simp [closeBrace, hdepth]

theorem closeBrace_plain (hmark : ¬ (c = '"' ∧ Text.isEscaped inside = false)) (hopen : c ≠ '{')
    (hclose : c ≠ '}') :
    closeBrace depth false inside (c :: text) = closeBrace depth false (c :: inside) text := by
  simp [closeBrace, hmark, hopen, hclose]

theorem closeBrace_length (h : closeBrace depth inQuote inside text = some (inside', rest)) :
    inside'.length + rest.length + 1 = inside.length + text.length := by
  induction text generalizing depth inQuote inside with
  | nil => cases h
  | cons c text ih =>
    -- All characters are passed but the brace that closes the composite.
    have hpassed {depth : Nat} {inQuote : Bool}
        (h : closeBrace depth inQuote (c :: inside) text = some (inside', rest)) :
        inside'.length + rest.length + 1 = inside.length + (c :: text).length := by
      have hrest := ih h
      simp only [List.length_cons] at hrest ⊢
      omega
    by_cases hmark : c = '"' ∧ Text.isEscaped inside = false
    · rw [closeBrace_mark hmark] at h
      exact hpassed h
    · cases inQuote with
      | true =>
        rw [closeBrace_inQuote hmark] at h
        exact hpassed h
      | false =>
        by_cases hopen : c = '{'
        · subst hopen
          rw [closeBrace_open] at h
          exact hpassed h
        · by_cases hclose : c = '}'
          · subst hclose
            by_cases hlast : depth - 1 = 0
            · rw [closeBrace_last hlast] at h
              cases h
              rfl
            · rw [closeBrace_close hlast] at h
              exact hpassed h
          · rw [closeBrace_plain hmark hopen hclose] at h
            exact hpassed h

end

theorem Cursor.length_skipBlank_le (p : Cursor) : p.skipBlank.rest.length ≤ p.rest.length :=
  Text.length_dropBlank_le p.rest

namespace Reading

variable {r : Reading} {rest : List Char}

/-! ## One move, by the kind of the character -/

/-- A quotation mark that is never closed is refused, with its place. -/
theorem step_quote_unclosed (he : Text.isEscaped r.cursor.past = false)
    (h : closeQuote [] rest = none) :
    r.step '"' rest = .refuse (.unterminatedQuote r.cursor.offset) := by
  simp [step, he, h]

/-- A quoted string must have a separator behind it. -/
theorem step_quote_refused {inside behind : List Char} {e : ParseError}
    (he : Text.isEscaped r.cursor.past = false) (h : closeQuote [] rest = some (inside, behind))
    (hs : (Cursor.mk ('"' :: (inside ++ '"' :: r.cursor.past)) behind).separatorError? = some e) :
    r.step '"' rest = .refuse e := by
  simp [step, he, h, hs]

/-- A quoted string takes the place of what was read of its token. -/
theorem step_quote {inside behind : List Char} (he : Text.isEscaped r.cursor.past = false)
    (h : closeQuote [] rest = some (inside, behind))
    (hs : (Cursor.mk ('"' :: (inside ++ '"' :: r.cursor.past)) behind).separatorError? = none) :
    r.step '"' rest = .proceed { r with
      cursor := ⟨'"' :: (inside ++ '"' :: r.cursor.past), behind⟩
      draft := r.draft.quote (String.ofList inside.reverse) } := by
  simp [step, he, h, hs]

/-- The first equals sign of an entry leads to its value. -/
theorem step_equals (hs : r.draft.side = .name) :
    r.step '=' rest = .proceed { r with
      cursor := ⟨'=' :: r.cursor.past, rest⟩, draft := r.draft.crossEquals, keyed := true } := by
  simp [step, hs]

/-- A comma finishes an entry. -/
theorem step_comma :
    r.step ',' rest = .proceed { r with
      cursor := ⟨',' :: r.cursor.past, rest⟩, entries := r.flush, draft := {},
      separated := true } := by
  simp [step]

/-- An opening brace that is never closed is refused, with the text behind it. -/
theorem step_brace_unclosed (h : closeBrace 1 false [] rest = none) :
    r.step '{' rest = .refuse (.unterminatedComposite (String.ofList rest)) := by
  simp [step, h]

/-- A composite is handed back to be read. -/
theorem step_brace {inside behind : List Char}
    (h : closeBrace 1 false [] rest = some (inside, behind)) :
    r.step '{' rest =
      .descend inside.reverse ⟨'}' :: (inside ++ '{' :: r.cursor.past), behind⟩ := by
  simp [step, h]

/-- A stray closing brace is skipped. -/
theorem step_stray :
    r.step '}' rest = .proceed { r with cursor := ⟨'}' :: r.cursor.past, rest⟩ } := by
  simp [step]

/-- Everything else is text. -/
theorem step_text {c : Char} (hq : ¬ (c = '"' ∧ Text.isEscaped r.cursor.past = false))
    (he : ¬ (c = '=' ∧ r.draft.side = .name)) (hc : c ≠ ',') (ho : c ≠ '{') (hs : c ≠ '}') :
    r.step c rest = .proceed { r with
      cursor := ⟨c :: r.cursor.past, rest⟩, draft := r.draft.push c } := by
  simp [step, hq, he, hc, ho, hs]

/-- What a move comes to, by the kind of the character. -/
inductive Moves (r : Reading) (rest : List Char) : Char → Move → Prop where
  /-- A quotation mark that is never closed. -/
  | openString (hescaped : Text.isEscaped r.cursor.past = false)
    (hclose : closeQuote [] rest = none) :
    Moves r rest '"' (.refuse (.unterminatedQuote r.cursor.offset))
  /-- A quoted string without a separator behind it. -/
  | behindString {inside back : List Char} {e : ParseError}
    (hescaped : Text.isEscaped r.cursor.past = false)
    (hclose : closeQuote [] rest = some (inside, back))
    (hback : (Cursor.mk ('"' :: (inside ++ '"' :: r.cursor.past)) back).separatorError? = some e) :
    Moves r rest '"' (.refuse e)
  /-- A quoted string. -/
  | string {inside back : List Char} (hescaped : Text.isEscaped r.cursor.past = false)
    (hclose : closeQuote [] rest = some (inside, back))
    (hback : (Cursor.mk ('"' :: (inside ++ '"' :: r.cursor.past)) back).separatorError? = none) :
    Moves r rest '"' (.proceed { r with
      cursor := ⟨'"' :: (inside ++ '"' :: r.cursor.past), back⟩
      draft := r.draft.quote (String.ofList inside.reverse) })
  /-- The first equals sign of an entry. -/
  | equals (hside : r.draft.side = .name) : Moves r rest '=' (.proceed { r with
      cursor := ⟨'=' :: r.cursor.past, rest⟩, draft := r.draft.crossEquals, keyed := true })
  /-- A comma. -/
  | comma : Moves r rest ',' (.proceed { r with
      cursor := ⟨',' :: r.cursor.past, rest⟩, entries := r.flush, draft := {}, separated := true })
  /-- An opening brace that is never closed. -/
  | openComposite (hclose : closeBrace 1 false [] rest = none) :
    Moves r rest '{' (.refuse (.unterminatedComposite (String.ofList rest)))
  /-- A composite. -/
  | composite {inside back : List Char}
    (hclose : closeBrace 1 false [] rest = some (inside, back)) :
    Moves r rest '{' (.descend inside.reverse ⟨'}' :: (inside ++ '{' :: r.cursor.past), back⟩)
  /-- A stray closing brace. -/
  | stray : Moves r rest '}' (.proceed { r with cursor := ⟨'}' :: r.cursor.past, rest⟩ })
  /-- A character of a text. -/
  | text {c : Char} (hmark : ¬ (c = '"' ∧ Text.isEscaped r.cursor.past = false))
    (hequals : ¬ (c = '=' ∧ r.draft.side = .name)) (hcomma : c ≠ ',') (hopen : c ≠ '{')
    (hclose : c ≠ '}') :
    Moves r rest c (.proceed { r with
      cursor := ⟨c :: r.cursor.past, rest⟩, draft := r.draft.push c })

/-- **Every move is one of these.** -/
theorem step_moves (r : Reading) (c : Char) (rest : List Char) :
    r.Moves rest c (r.step c rest) := by
  by_cases hmark : c = '"' ∧ Text.isEscaped r.cursor.past = false
  · obtain ⟨rfl, hescaped⟩ := hmark
    cases hclose : closeQuote [] rest with
    | none =>
      rw [step_quote_unclosed hescaped hclose]
      exact .openString hescaped hclose
    | some cut =>
      cases hback : (Cursor.mk ('"' :: (cut.1 ++ '"' :: r.cursor.past)) cut.2).separatorError? with
      | some e =>
        rw [step_quote_refused hescaped hclose hback]
        exact .behindString hescaped hclose hback
      | none =>
        rw [step_quote hescaped hclose hback]
        exact .string hescaped hclose hback
  · by_cases hequals : c = '=' ∧ r.draft.side = .name
    · obtain ⟨rfl, hside⟩ := hequals
      rw [step_equals hside]
      exact .equals hside
    · by_cases hcomma : c = ','
      · subst hcomma
        rw [step_comma]
        exact .comma
      · by_cases hopen : c = '{'
        · subst hopen
          cases hclose : closeBrace 1 false [] rest with
          | none =>
            rw [step_brace_unclosed hclose]
            exact .openComposite hclose
          | some cut =>
            rw [step_brace hclose]
            exact .composite hclose
        · by_cases hclose : c = '}'
          · subst hclose
            rw [step_stray]
            exact .stray
          · rw [step_text hmark hequals hcomma hopen hclose]
            exact .text hmark hequals hcomma hopen hclose

/-- What opens neither a string nor a composite is passed alone. -/
theorem exists_step_eq_proceed (rest : List Char) {c : Char}
    (hmark : ¬ (c = '"' ∧ Text.isEscaped r.cursor.past = false)) (hopen : c ≠ '{') :
    ∃ r', r.step c rest = .proceed r' ∧ r'.cursor = ⟨c :: r.cursor.past, rest⟩ := by
  have hmoves := r.step_moves c rest
  generalize r.step c rest = move at hmoves ⊢
  cases hmoves with
  | openString hescaped _ => exact absurd ⟨rfl, hescaped⟩ hmark
  | behindString hescaped _ _ => exact absurd ⟨rfl, hescaped⟩ hmark
  | string hescaped _ _ => exact absurd ⟨rfl, hescaped⟩ hmark
  | equals _ => exact ⟨_, rfl, rfl⟩
  | comma => exact ⟨_, rfl, rfl⟩
  | openComposite _ => exact absurd rfl hopen
  | composite _ => exact absurd rfl hopen
  | stray => exact ⟨_, rfl, rfl⟩
  | text _ _ _ _ _ => exact ⟨_, rfl, rfl⟩

/-- Only an opening brace makes the reader descend. -/
theorem of_step_eq_descend {c : Char} {body : List Char} {behind : Cursor}
    (h : r.step c rest = .descend body behind) :
    c = '{' ∧ ∃ inside back, closeBrace 1 false [] rest = some (inside, back) ∧
      body = inside.reverse ∧ behind = ⟨'}' :: (inside ++ '{' :: r.cursor.past), back⟩ := by
  have hmoves := r.step_moves c rest
  rw [h] at hmoves
  cases hmoves with
  | composite hclose => exact ⟨rfl, _, _, hclose, rfl, rfl⟩

/-! ## What a move leaves to read -/

/-- A move that goes on leaves less to read. -/
theorem length_of_step_eq_proceed {r' : Reading} {c : Char} (h : r.step c rest = .proceed r') :
    r'.cursor.rest.length ≤ rest.length := by
  have hmoves := r.step_moves c rest
  rw [h] at hmoves
  cases hmoves with
  | string _ hclose _ =>
    have hlength := closeQuote_length hclose
    simp only [List.length_nil] at hlength ⊢
    omega
  | equals _ => exact Nat.le_refl _
  | comma => exact Nat.le_refl _
  | stray => exact Nat.le_refl _
  | text _ _ _ _ _ => exact Nat.le_refl _

/-- The inside of a composite and what follows it are shorter than what was to be read. -/
theorem length_of_step_eq_descend {c : Char} {body : List Char} {behind : Cursor}
    (h : r.step c rest = .descend body behind) :
    body.length + behind.rest.length + 1 ≤ rest.length := by
  obtain ⟨-, inside, back, hclose, rfl, rfl⟩ := of_step_eq_descend h
  have hlength := closeBrace_length hclose
  simp only [List.length_nil, List.length_reverse] at hlength ⊢
  omega

end Reading

end DocFacts
