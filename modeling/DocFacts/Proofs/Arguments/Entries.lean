import DocFacts.Proofs.Arguments.Echo
import DocFacts.Proofs.Arguments.Spelling
import DocFacts.Proofs.Table
import Mathlib.Data.List.Forall2

/-!
# Commas separate entries

Each of the texts that the commas of a body cut it into stands for itself.  The body has a value
exactly when each text has one, and what the value is can be told from the texts: `SplitsAtCommas`
says how, and `parseBody_splitsAtCommas` that it is so for every body with a comma.

Within one text the draft is determined by what has been read, as `Drafted` says.  It is an
invariant of the advances (`Advance.alone`), because a string or a composite can only be followed
by the end of the text.  From one text to the next nothing is carried over but finished entries.
A text that can be read alone can be read in its surroundings, so the texts of a body are read one
after the other (`run_cuts`).
-/

namespace DocFacts

/-! ## The kinds of texts -/

/-- There are blank characters and closing braces and nothing else. -/
def BlankText (text : List Char) : Prop := ∀ c ∈ text, Text.isBlank c = true ∨ c = '}'

instance (text : List Char) : Decidable (BlankText text) :=
  inferInstanceAs (Decidable (∀ c ∈ text, _ ∨ _))

/-- There is an equals sign at the top level. -/
def Keyed (text : List Char) : Prop := Pass.Meets {} (Pass.TopLevel '=') text

instance (text : List Char) : Decidable (Keyed text) :=
  inferInstanceAs (Decidable (Pass.Meets _ _ _))

/-- The key that a text without an equals sign stands for in a map. -/
inductive LoneKey (text : List Char) : String → Prop where
  /-- Plain text without its stray braces, trimmed. -/
  | plain (hopens : ¬ Pass.Meets {} Pass.Opens text) :
      LoneKey text (String.ofList (Text.trim (text.filter (· ≠ '}'))))
  /-- What stands between the quotation marks with its backslashes, trimmed. -/
  | string {front inside : List Char} (htext : text = front ++ '"' :: (inside ++ ['"']))
      (hopens : ¬ Pass.Meets {} Pass.Opens front) (hmark : (Pass.through {} front).IsMark '"')
      (hinside : Quotable [] inside) : LoneKey text (String.ofList (Text.trim inside))
  /-- The display text of a composite. -/
  | composite {front inside gap : List Char} {v : Value}
      (htext : text = front ++ '{' :: (inside ++ '}' :: gap))
      (hopens : ¬ Pass.Meets {} Pass.Opens front) (hinside : Pass.Balanced {} inside)
      (hvalue : parseBody inside = .ok v) (hgap : ∀ c ∈ gap, Text.isBlank c = true) :
      LoneKey text v.display

theorem LoneKey.exists_spelled {text : List Char} {key : String} (h : LoneKey text key) :
    ∃ spelling, SpelledAs text [] spelling ∧ spelling.key = .ok key := by
  cases h with
  | plain hopens => exact ⟨_, .plain hopens, rfl⟩
  | string htext hopens hmark hinside =>
    subst htext
    exact ⟨_, .string hopens hmark hinside, rfl⟩
  | composite htext hopens hinside hvalue hgap =>
    subst htext
    refine ⟨_, .composite hopens hinside hgap, ?_⟩
    rw [Spelling.key, hvalue]
    rfl

/-- A text stands for one key only. -/
theorem LoneKey.unique {text : List Char} {key key' : String} (h : LoneKey text key)
    (h' : LoneKey text key') : key = key' := by
  obtain ⟨spelling, hspelled, hkey⟩ := h.exists_spelled
  obtain ⟨spelling', hspelled', hkey'⟩ := h'.exists_spelled
  rw [hspelled.unique hspelled', hkey'] at hkey
  exact (Except.ok.inj hkey).symm

/-- The entry that a text stands for. -/
inductive EntryText (text : List Char) : Entry → Prop where
  /-- An equals sign makes a row, and the text alone is a map with that row. -/
  | named {key : String} {v : Value} (hkeyed : Keyed text)
      (hvalue : parseBody text = .ok (.map [(key, v)])) : EntryText text (.named key v)
  /-- Without one the text is a value and a key. -/
  | unnamed {key : String} {v : Value} (hkeyed : ¬ Keyed text) (hkey : LoneKey text key)
      (hvalue : parseBody text = .ok v) : EntryText text (.unnamed key v)

/-- The entries that a text adds to those of its body. -/
inductive Adds (text : List Char) : List Entry → Prop where
  /-- A blank text adds nothing. -/
  | none (hblank : BlankText text) : Adds text []
  /-- Any other text adds its entry. -/
  | one {entry : Entry} (hblank : ¬ BlankText text) (hentry : EntryText text entry) :
      Adds text [entry]

theorem Adds.reverse_eq {text : List Char} {entries : List Entry} (h : Adds text entries) :
    entries.reverse = entries := by
  cases h with
  | none hblank => rfl
  | one hblank hentry => rfl

theorem Adds.append {text : List Char} {texts : List (List Char)} {entries more : List Entry}
    (h : Adds text entries)
    (hmore : List.Forall₂ EntryText (texts.filter (¬ BlankText ·)) more) :
    List.Forall₂ EntryText ((text :: texts).filter (¬ BlankText ·)) (entries ++ more) := by
  cases h with
  | none hblank => rwa [List.filter_cons_of_neg (by simpa using hblank)]
  | one hblank hentry =>
    rw [List.filter_cons_of_pos (by simpa using hblank)]
    exact .cons hentry hmore

/-! ## The draft of one text -/

/-- What the draft holds when a part of a text without commas has been read. -/
inductive Drafted : (done rest : List Char) → Draft → Prop where
  /-- Plain text. -/
  | plain {done rest : List Char} (hopens : ¬ Pass.Meets {} Pass.Opens done)
      (hkeyed : ¬ Keyed done) :
      Drafted done rest { name := .text (String.ofList (done.filter (· ≠ '}'))) }
  /-- A string or a composite.  It is the last thing in the text. -/
  | closed {done : List Char} {d : Draft} (hkey : LoneKey done d.name.key)
      (hkeyed : ¬ Keyed done) (hblank : ¬ BlankText done) (hside : d.side = .name)
      (hempty : d.isEmpty = false) : Drafted done [] d
  /-- A name and what has been read of its value. -/
  | keyed {done rest : List Char} {d : Draft} (hkeyed : Keyed done) (hside : d.side = .value) :
      Drafted done rest d

namespace Drafted

variable {done rest rest' token inside : List Char} {d : Draft} {c : Char}

theorem not_keyed_append (h : ¬ Keyed done)
    (htoken : ¬ Pass.Meets (Pass.through {} done) (Pass.TopLevel '=') token) :
    ¬ Keyed (done ++ token) := by
  rw [Keyed, Pass.meets_append]
  exact not_or.2 ⟨h, htoken⟩

theorem keyed_append (h : Keyed done) (token : List Char) : Keyed (done ++ token) :=
  Pass.meets_append.2 (.inl h)

theorem not_blankText {front back : List Char} (hblank : Text.isBlank c = false) (hc : c ≠ '}') :
    ¬ BlankText (front ++ c :: back) := by
  intro h
  rcases h c (List.mem_append_right front List.mem_cons_self) with hc' | hc'
  · rw [hblank] at hc'
    cases hc'
  · exact hc hc'

/-- A string ends a text. -/
theorem quote (h : Drafted done (c :: rest) d) (htop : (Pass.through {} done).AtTop)
    (hmark : (Pass.through {} done).IsMark '"') (hinside : Quotable [] inside) :
    Drafted (done ++ '"' :: (inside ++ ['"'])) [] (d.quote (String.ofList inside)) := by
  cases h with
  | plain hopens hkeyed =>
    have hkey : LoneKey (done ++ '"' :: (inside ++ ['"'])) (String.ofList (Text.trim inside)) :=
      .string rfl hopens hmark hinside
    refine .closed ?_ ?_ (not_blankText (by decide) (by decide)) rfl rfl
    · simpa [Draft.quote, Draft.setCurrent, Token.key] using hkey
    · exact not_keyed_append hkeyed fun hmeets =>
        Pass.not_meets_string (by decide) hmark.2 htop.1 hinside
          (hmeets.imp (Pass.TopLevel.unquoted '='))
  | keyed hkeyed hside => exact .keyed (keyed_append hkeyed _) (by simpa [Draft.quote] using hside)

/-- A composite ends a text. -/
theorem compose {gap : List Char} {v : Value} (h : Drafted done (c :: rest) d)
    (htop : (Pass.through {} done).AtTop) (hinside : Pass.Balanced {} inside)
    (hvalue : parseBody inside = .ok v) (hgap : ∀ c ∈ gap, Text.isBlank c = true) :
    Drafted (done ++ '{' :: (inside ++ '}' :: gap)) [] (d.compose v) := by
  cases h with
  | plain hopens hkeyed =>
    have hkey : LoneKey (done ++ '{' :: (inside ++ '}' :: gap)) v.display :=
      .composite rfl hopens hinside hvalue hgap
    refine .closed hkey ?_ (not_blankText (by decide) (by decide)) rfl rfl
    refine not_keyed_append hkeyed ?_
    have hgap' : ¬ Pass.Meets ((Pass.through {} done).through ('{' :: (inside ++ ['}'])))
        (Pass.TopLevel '=') gap := by
      rintro ⟨front, c, back, rfl, rfl, -⟩
      have hblank := hgap '=' (List.mem_append_right front List.mem_cons_self)
      cases hblank
    have htoken : '{' :: (inside ++ '}' :: gap) = '{' :: (inside ++ ['}']) ++ gap := by simp
    rw [htoken, Pass.meets_append]
    exact not_or.2 ⟨Pass.not_meets_composite (by decide) hinside htop.1, hgap'⟩
  | keyed hkeyed hside =>
    exact .keyed (keyed_append hkeyed _) (by simpa [Draft.compose] using hside)

/-- Behind an equals sign the value is read. -/
theorem crossEquals (htop : (Pass.through {} done).AtTop) :
    Drafted (done ++ ['=']) rest d.crossEquals := by
  refine .keyed ?_ rfl
  rw [Keyed, Pass.meets_append, Pass.meets_singleton]
  exact .inr ⟨rfl, htop⟩

/-- A stray brace is skipped. -/
theorem stray (h : Drafted done ('}' :: rest) d) : Drafted (done ++ ['}']) rest' d := by
  cases h with
  | plain hopens hkeyed =>
    have hfilter : (done ++ ['}']).filter (· ≠ '}') = done.filter (· ≠ '}') := by simp
    rw [← hfilter]
    refine .plain (Pass.not_opens_append hopens (Pass.not_opens (by decide) (by decide))) ?_
    refine not_keyed_append hkeyed fun hmeets => ?_
    cases (Pass.meets_singleton.1 hmeets).1
  | keyed hkeyed hside => exact .keyed (keyed_append hkeyed _) hside

/-- A character of text is added. -/
theorem push (h : Drafted done (c :: rest) d) (hmark : ¬ (Pass.through {} done).IsMark c)
    (hequals : ¬ (c = '=' ∧ d.side = .name)) (hopen : c ≠ '{') (hclose : c ≠ '}') :
    Drafted (done ++ [c]) rest' (d.push c) := by
  cases h with
  | plain hopens hkeyed =>
    have hfilter : (done ++ [c]).filter (· ≠ '}') = done.filter (· ≠ '}') ++ [c] := by
      simp [hclose]
    rw [Draft.push_eq rfl, ← hfilter]
    refine .plain (Pass.not_opens_append hopens fun hc => hc.elim hmark hopen) ?_
    exact not_keyed_append hkeyed fun hmeets => hequals ⟨(Pass.meets_singleton.1 hmeets).1, rfl⟩
  | keyed hkeyed hside =>
    exact .keyed (keyed_append hkeyed _) (by simpa [Draft.push] using hside)

end Drafted

namespace Reading

variable {r s : Reading}

/-- The reader has read a part of a text without commas, and nothing else. -/
structure Alone (r : Reading) : Prop where
  /-- The text has no comma at its top level. -/
  comma : ¬ Pass.Meets {} (Pass.TopLevel ',') r.whole
  /-- The reader is at the top level. -/
  onTop : r.OnTop
  /-- No entry is finished. -/
  entries : r.entries = []
  /-- No comma has been passed. -/
  separated : r.separated = false
  /-- An equals sign has been crossed if the draft is behind it. -/
  keyed : r.keyed = decide (r.draft.side = .value)
  /-- The draft holds what has been read. -/
  drafted : Drafted r.cursor.past.reverse r.cursor.rest r.draft

theorem alone_start {text : List Char} (h : ¬ Pass.Meets {} (Pass.TopLevel ',') text) :
    (start text).Alone :=
  ⟨h, rfl, rfl, rfl, rfl, .plain Pass.not_meets_nil Pass.not_meets_nil⟩

/-- What is met in a text is met in what has been read of it or in what comes next. -/
theorem OnTop.meets_append {kind : Pass → Char → Prop} {token : List Char} (h : r.OnTop) :
    Pass.Meets {} kind (r.cursor.past.reverse ++ token) ↔
      Pass.Meets {} kind r.cursor.past.reverse ∨ r.pass.Meets kind token := by
  rw [Pass.meets_append, h]

/-- At the top level of a text without commas no comma comes next. -/
theorem OnTop.not_comma {back : List Char} (h : r.OnTop)
    (hcomma : ¬ Pass.Meets {} (Pass.TopLevel ',') r.whole) : r.cursor.rest ≠ ',' :: back := by
  intro hrest
  refine hcomma ?_
  rw [whole, hrest, h.meets_append]
  exact .inr (Pass.meets_cons.2 (.inl ⟨rfl, rfl, rfl⟩))

/-- Where a separator must stand, such a text ends. -/
theorem OnTop.rest_eq_nil (h : r.OnTop)
    (hcomma : ¬ Pass.Meets {} (Pass.TopLevel ',') r.whole) (hrest : MayFollow 0 r.cursor.rest) :
    r.cursor.rest = [] := by
  cases hr : r.cursor.rest with
  | nil => rfl
  | cons c back =>
    rw [hr] at hrest
    obtain rfl : c = ',' := by simpa [MayFollow] using hrest
    exact absurd hr (h.not_comma hcomma)

/-- An advance in a text without commas adds to the draft what it goes over. -/
theorem Advance.drafted (h : Advance r s) (hr : r.Alone) :
    Drafted s.cursor.past.reverse s.cursor.rest s.draft := by
  have hs := h.onTop hr.onTop
  have hcomma : ¬ Pass.Meets {} (Pass.TopLevel ',') s.whole := h.whole_eq ▸ hr.comma
  have hdrafted := hr.drafted
  have hpass : Pass.through {} r.cursor.past.reverse = r.pass := hr.onTop
  have htop : (Pass.through {} r.cursor.past.reverse).AtTop := hpass ▸ ⟨rfl, rfl⟩
  cases h with
  | @string inside back hrest hescaped hinside hback =>
    obtain rfl : back = [] := hs.rest_eq_nil hcomma hback
    rw [hrest] at hdrafted
    have hmark : (Pass.through {} r.cursor.past.reverse).IsMark '"' := hpass ▸ ⟨rfl, hescaped⟩
    simpa using hdrafted.quote htop hmark hinside
  | equals hrest hside => simpa using Drafted.crossEquals htop
  | comma hrest => exact absurd hrest (hr.onTop.not_comma hr.comma)
  | @composite inside gap back v hrest hinside hvalue hgap hback =>
    obtain rfl : back = [] := hs.rest_eq_nil hcomma hback
    rw [hrest] at hdrafted
    simpa [take] using hdrafted.compose htop hinside hvalue hgap
  | stray hrest =>
    rw [hrest] at hdrafted
    simpa using hdrafted.stray
  | @text c back hrest hmark hequals hcomma hopen hclose =>
    rw [hrest] at hdrafted
    have hmark' : ¬ (Pass.through {} r.cursor.past.reverse).IsMark c := hpass ▸ hmark
    simpa using hdrafted.push hmark' hequals hopen hclose

/-- An advance in a text without commas leaves the reader alone with it. -/
theorem Advance.alone (h : Advance r s) (hr : r.Alone) : s.Alone := by
  refine ⟨h.whole_eq ▸ hr.comma, h.onTop hr.onTop, ?_, ?_, ?_, h.drafted hr⟩
  · cases h with
    | comma hrest => exact absurd hrest (hr.onTop.not_comma hr.comma)
    | string _ _ _ _ | equals _ _ | composite _ _ _ _ _ | stray _ | text _ _ _ _ _ _ =>
      exact hr.entries
  · cases h with
    | comma hrest => exact absurd hrest (hr.onTop.not_comma hr.comma)
    | string _ _ _ _ | equals _ _ | composite _ _ _ _ _ | stray _ | text _ _ _ _ _ _ =>
      exact hr.separated
  · cases h with
    | comma hrest => exact absurd hrest (hr.onTop.not_comma hr.comma)
    | equals _ _ => rfl
    | string _ _ _ _ | composite _ _ _ _ _ | stray _ | text _ _ _ _ _ _ =>
      simpa [take, Draft.quote, Draft.compose, Draft.push] using hr.keyed

theorem Reads.alone (h : Reads r s) (hr : r.Alone) : s.Alone := by
  induction h with
  | refl => exact hr
  | tail _ hlast ih => exact hlast.alone ih

end Reading

/-! ## The end of one text -/

namespace Drafted

variable {text : List Char} {d : Draft}

/-- A draft of plain text is empty if there are only blank characters and stray braces. -/
theorem isEmpty_plain_iff :
    ({ name := .text (String.ofList (text.filter (· ≠ '}'))) } : Draft).isEmpty = true ↔
      BlankText text := by
  have hiff : ({ name := .text (String.ofList (text.filter (· ≠ '}'))) } : Draft).isEmpty =
      (text.filter (· ≠ '}')).all Text.isBlank := by
    simp [Draft.isEmpty, Token.isBlank, Text.allBlank]
  rw [hiff, List.all_eq_true, BlankText]
  constructor
  · intro h c hc
    by_cases hclose : c = '}'
    · exact .inr hclose
    · exact .inl (h c (List.mem_filter.2 ⟨hc, by simpa using hclose⟩))
  · intro h c hc
    obtain ⟨hmem, hclose⟩ := List.mem_filter.1 hc
    exact (h c hmem).resolve_right (by simpa using hclose)

theorem not_blankText_of_keyed (h : Keyed text) : ¬ BlankText text := by
  obtain ⟨front, c, back, rfl, rfl, -⟩ := h
  exact not_blankText (by decide) (by decide)

/-- Whether the draft is behind an equals sign can be told from the text. -/
theorem side_eq_value_iff {rest : List Char} (h : Drafted text rest d) :
    d.side = .value ↔ Keyed text := by
  cases h with
  | plain hopens hkeyed => exact iff_of_false (fun hside => by cases hside) hkeyed
  | closed hkey hkeyed hblank hside hempty =>
    refine iff_of_false (fun hvalue => ?_) hkeyed
    rw [hside] at hvalue
    cases hvalue
  | keyed hkeyed hside => exact iff_of_true hside hkeyed

/-- A draft is empty at the end of a text of blank characters and stray braces. -/
theorem isEmpty_iff {rest : List Char} (h : Drafted text rest d) :
    d.isEmpty = true ↔ BlankText text := by
  cases h with
  | plain _ _ => exact isEmpty_plain_iff
  | closed _ _ hblank _ hempty => exact iff_of_false (by simp [hempty]) hblank
  | keyed hkeyed hside =>
    exact iff_of_false (by simp [Draft.isEmpty, hside]) (not_blankText_of_keyed hkeyed)

/-- A draft in front of any equals sign becomes a value and a key. -/
theorem entryText_unnamed (hkeyed : ¬ Keyed text) (hkey : LoneKey text d.name.key)
    (hside : d.side = .name)
    (hvalue : parseBody text = .ok (Entry.assemble [d.finish] (decide (d.side = .value)) false)) :
    EntryText text d.finish := by
  have hfinish : d.finish = .unnamed d.name.key (d.name.value d.quoted) := by
    rw [Draft.finish, hside]
  rw [hfinish, hside] at hvalue
  rw [hfinish]
  exact .unnamed hkeyed hkey hvalue

/-- At the end of a text the draft becomes the entry of the text. -/
theorem adds (h : Drafted text [] d)
    (hvalue : parseBody text = .ok (Entry.assemble (if d.isEmpty then [] else [d.finish])
      (decide (d.side = .value)) false)) :
    Adds text (if d.isEmpty then [] else [d.finish]) := by
  cases h with
  | plain hopens hkeyed =>
    by_cases hblank : BlankText text
    · rw [if_pos (isEmpty_plain_iff.2 hblank)]
      exact .none hblank
    · have hempty := mt isEmpty_plain_iff.1 hblank
      rw [if_neg hempty] at hvalue ⊢
      refine .one hblank (entryText_unnamed hkeyed ?_ rfl hvalue)
      simpa [Token.key] using LoneKey.plain hopens
  | closed hkey hkeyed hblank hside hempty =>
    rw [hempty] at hvalue ⊢
    exact .one hblank (entryText_unnamed hkeyed hkey hside hvalue)
  | keyed hkeyed hside =>
    have hempty : d.isEmpty = false := by simp [Draft.isEmpty, hside]
    have hfinish : d.finish = .named d.name.key (d.value.value d.quoted) := by
      rw [Draft.finish, hside]
    rw [hempty, hfinish, hside] at hvalue
    rw [hempty, hfinish]
    exact .one (not_blankText_of_keyed hkeyed) (.named hkeyed hvalue)

end Drafted

namespace Reading

/-- The reader gets to the end of a text that has a value, with what the text adds. -/
theorem exists_reads_adds {text : List Char} {v : Value}
    (hcomma : ¬ Pass.Meets {} (Pass.TopLevel ',') text) (hv : parseBody text = .ok v) :
    ∃ s, Reads (start text) s ∧ s.cursor.rest = [] ∧ s.separated = false ∧
      s.keyed = decide (Keyed text) ∧ Adds text s.flush := by
  obtain ⟨s, hs, hend, rfl⟩ := run_eq_ok_iff.1 hv
  have halone := hs.alone (alone_start hcomma)
  have htext : s.cursor.past.reverse = text := by
    have hwhole := hs.whole_eq
    rwa [whole, hend, List.append_nil] at hwhole
  have hdrafted := halone.drafted
  rw [htext, hend] at hdrafted
  have hflush : s.flush = if s.draft.isEmpty then [] else [s.draft.finish] := by
    rw [flush, halone.entries]
  have hreverse : s.flush.reverse = s.flush := by
    rw [hflush]
    split
    · rfl
    · rfl
  refine ⟨s, hs, hend, halone.separated, ?_, ?_⟩
  · rw [halone.keyed, decide_eq_decide]
    exact hdrafted.side_eq_value_iff
  · rw [result, hreverse, halone.keyed, halone.separated, hflush] at hv
    rw [hflush]
    exact hdrafted.adds hv

/-! ## One text after the other -/

/-- **The run over several texts.**  If each text can be read alone, the reader finishes the
entries that they add, in order. -/
theorem run_cuts {body : List Char} {texts : List (List Char)} (h : Cuts body texts)
    (hvalues : ∀ text ∈ texts, ∃ v, parseBody text = .ok v) {r : Reading}
    (hrest : r.cursor.rest = body) (hescaped : Text.isEscaped r.cursor.past = false)
    (hdraft : r.draft = {}) :
    ∃ entries, List.Forall₂ EntryText (texts.filter (¬ BlankText ·)) entries ∧
      r.run = .ok (Entry.assemble (r.entries.reverse ++ entries)
        (r.keyed || texts.any (Keyed ·)) (r.separated || decide (1 < texts.length))) := by
  induction h generalizing r with
  | @last text hcomma =>
    obtain ⟨v, hv⟩ := hvalues text List.mem_cons_self
    obtain ⟨s, hs, hend, hseparated, hkeyed, hadds⟩ := exists_reads_adds hcomma hv
    have hecho : Echoes ⟨r.entries, r.keyed, r.separated, []⟩ (start text) r :=
      ⟨by rw [hrest, start, List.append_nil], hescaped, hdraft ▸ .refl _, rfl, rfl, rfl⟩
    obtain ⟨s', hs', hecho'⟩ := hecho.reads (mayFollow_nil 0) hs
    have hentries : List.Forall₂ EntryText ([text].filter (¬ BlankText ·)) (s.flush ++ []) :=
      hadds.append .nil
    rw [List.append_nil] at hentries
    refine ⟨s.flush, hentries, run_eq_ok_iff.2 ⟨s', hs', ?_, ?_⟩⟩
    · rw [hecho'.rest, hend]
      rfl
    · rw [result, hecho'.flush_eq, List.reverse_append, hadds.reverse_eq, hecho'.keyed,
        hecho'.separated, hkeyed, hseparated]
      simp [Bool.or_comm]
  | @comma text back texts hcomma htop hback ih =>
    obtain ⟨⟨v, hv⟩, hvalues⟩ := List.forall_mem_cons.1 hvalues
    obtain ⟨s, hs, hend, hseparated, hkeyed, hadds⟩ := exists_reads_adds hcomma hv
    have hecho : Echoes ⟨r.entries, r.keyed, r.separated, ',' :: back⟩ (start text) r :=
      ⟨hrest, hescaped, hdraft ▸ .refl _, rfl, rfl, rfl⟩
    obtain ⟨s', hs', hecho'⟩ := hecho.reads (mayFollow_comma 0 back) hs
    have hrest' : s'.cursor.rest = ',' :: back := by
      rw [hecho'.rest, hend]
      rfl
    obtain ⟨entries, hentries, hrun⟩ := ih hvalues (r := { s' with
      cursor := ⟨',' :: s'.cursor.past, back⟩, entries := s'.flush, draft := {},
      separated := true }) rfl (Text.isEscaped_cons_of_ne (by decide) _) rfl
    refine ⟨s.flush ++ entries, hadds.append hentries, ?_⟩
    rw [hs'.run_eq, (Advance.comma hrest').run_eq, hrun, hecho'.flush_eq, List.reverse_append,
      hadds.reverse_eq, hecho'.keyed, hkeyed, List.append_assoc]
    have hlength : 1 < (text :: texts).length := by
      cases hback <;> simp
    simp only [hlength, List.any_cons, decide_true, Bool.or_true, Bool.true_or, Bool.or_assoc,
      Bool.or_left_comm]

end Reading

/-! ## The value of a body -/

/-- The row of a map that a text stands for. -/
inductive RowOf (text : List Char) : String × Value → Prop where
  /-- A text with an equals sign is a map with that row. -/
  | keyed {row : String × Value} (hkeyed : Keyed text)
      (hvalue : parseBody text = .ok (.map [row])) : RowOf text row
  /-- A text without one is a flag: a key with the empty string. -/
  | flag {key : String} (hkeyed : ¬ Keyed text) (hkey : LoneKey text key) :
      RowOf text (key, .string "")

/-- A text stands for one row only. -/
theorem RowOf.unique {text : List Char} {row row' : String × Value} (h : RowOf text row)
    (h' : RowOf text row') : row = row' := by
  cases h with
  | keyed hkeyed hvalue =>
    cases h' with
    | keyed _ hvalue' =>
      rw [hvalue] at hvalue'
      cases hvalue'
      rfl
    | flag hnot _ => exact absurd hkeyed hnot
  | flag hnot hkey =>
    cases h' with
    | keyed hkeyed _ => exact absurd hkeyed hnot
    | flag _ hkey' => rw [hkey.unique hkey']

theorem RowOf.exists_of_mem {text : List Char} {texts : List (List Char)}
    {rows : List (String × Value)} (h : List.Forall₂ RowOf texts rows) (htext : text ∈ texts) :
    ∃ row ∈ rows, RowOf text row := by
  induction h with
  | nil => cases htext
  | cons hrow _ ih =>
    rcases List.mem_cons.1 htext with rfl | htext
    · exact ⟨_, List.mem_cons_self, hrow⟩
    · obtain ⟨row, hmem, hrow⟩ := ih htext
      exact ⟨row, List.mem_cons_of_mem _ hmem, hrow⟩

/-- The value of a body is made up of what the texts of its entries stand for. -/
structure SplitsAtCommas (body : List Char) : Prop where
  /-- The body has a value exactly when each text has one. -/
  ok_iff : (∃ v, parseBody body = .ok v) ↔
    ∀ text ∈ entryTexts body, ∃ v, parseBody text = .ok v
  /-- Without an equals sign the value is the list of the values of the texts that are not blank. -/
  list_eq (hok : ∃ v, parseBody body = .ok v) (hkeyed : ∀ text ∈ entryTexts body, ¬ Keyed text) :
    ∃ values,
      List.Forall₂ (fun text v => parseBody text = .ok v)
        ((entryTexts body).filter (¬ BlankText ·)) values ∧
      parseBody body = .ok (.list values)
  /-- With one it is the map of the rows of the texts that are not blank.  A key that is repeated
  stands where it stood first and has the value that it had last. -/
  map_eq (hok : ∃ v, parseBody body = .ok v) (hkeyed : ∃ text ∈ entryTexts body, Keyed text) :
    ∃ rows,
      List.Forall₂ RowOf ((entryTexts body).filter (¬ BlankText ·)) rows ∧
      parseBody body = .ok (.map (Table.ofList rows)) ∧
      Table.keys (Table.ofList rows) = (rows.map Prod.fst).eraseDups ∧
      ∀ key, Table.get? (Table.ofList rows) key =
        (rows.reverse.find? (·.1 = key)).map Prod.snd

namespace EntryText

variable {text : List Char} {entry : Entry}

theorem value_eq (h : EntryText text entry) (hkeyed : ¬ Keyed text) :
    parseBody text = .ok entry.value := by
  cases h with
  | named hnamed hvalue => exact absurd hnamed hkeyed
  | unnamed hunnamed hkey hvalue => exact hvalue

theorem rowOf (h : EntryText text entry) : RowOf text entry.field := by
  cases h with
  | named hkeyed hvalue => exact .keyed hkeyed hvalue
  | unnamed hkeyed hkey hvalue => exact .flag hkeyed hkey

theorem values {texts : List (List Char)} {entries : List Entry}
    (h : List.Forall₂ EntryText texts entries) (hkeyed : ∀ text ∈ texts, ¬ Keyed text) :
    List.Forall₂ (fun text v => parseBody text = .ok v) texts (entries.map Entry.value) := by
  induction h with
  | nil => exact .nil
  | cons hentry _ ih =>
    obtain ⟨hhead, htail⟩ := List.forall_mem_cons.1 hkeyed
    exact .cons (hentry.value_eq hhead) (ih htail)

theorem rows {texts : List (List Char)} {entries : List Entry}
    (h : List.Forall₂ EntryText texts entries) :
    List.Forall₂ RowOf texts (entries.map Entry.field) := by
  induction h with
  | nil => exact .nil
  | cons hentry _ ih => exact .cons hentry.rowOf ih

end EntryText

section

variable {body : List Char}

/-- A body can be read if the texts of its entries can, and its value is assembled from the
entries that they stand for. -/
theorem exists_entries (hvalues : ∀ text ∈ entryTexts body, ∃ v, parseBody text = .ok v) :
    ∃ entries, List.Forall₂ EntryText ((entryTexts body).filter (¬ BlankText ·)) entries ∧
      parseBody body = .ok (Entry.assemble entries ((entryTexts body).any (Keyed ·))
        (decide (1 < (entryTexts body).length))) :=
  Reading.run_cuts (cuts_entryTexts body) hvalues (r := .start body) rfl rfl rfl

/-- If a body can be read, then so can the texts of its entries. -/
theorem exists_values (h : ∃ v, parseBody body = .ok v) :
    ∀ text ∈ entryTexts body, ∃ v, parseBody text = .ok v := by
  intro text htext
  have haccepts := (Reading.exists_run_eq_ok_iff (.start body)).1 h
  exact (Reading.exists_run_eq_ok_iff (.start text)).2
    (Pass.Accepts.of_cuts (cuts_entryTexts body) haccepts text htext)

/-- A body with an equals sign is the map of the rows of its texts. -/
theorem exists_rows (hok : ∃ v, parseBody body = .ok v)
    (hkeyed : ∃ text ∈ entryTexts body, Keyed text) :
    ∃ rows, List.Forall₂ RowOf ((entryTexts body).filter (¬ BlankText ·)) rows ∧
      parseBody body = .ok (.map (Table.ofList rows)) := by
  obtain ⟨entries, hentries, hbody⟩ := exists_entries (exists_values hok)
  have hany : (entryTexts body).any (Keyed ·) = true := by simpa using hkeyed
  rw [hany] at hbody
  exact ⟨_, EntryText.rows hentries, hbody⟩

end

/-- **Commas separate entries.**  A body that its commas cut into two texts or more is read as
those texts are read alone. -/
theorem parseBody_splitsAtCommas (body : List Char) (htexts : 2 ≤ (entryTexts body).length) :
    SplitsAtCommas body := by
  refine ⟨⟨exists_values, fun hvalues => ?_⟩, fun hok hkeyed => ?_, fun hok hkeyed => ?_⟩
  · obtain ⟨entries, -, hbody⟩ := exists_entries hvalues
    exact ⟨_, hbody⟩
  · obtain ⟨entries, hentries, hbody⟩ := exists_entries (exists_values hok)
    have hany : (entryTexts body).any (Keyed ·) = false := by simpa using hkeyed
    have hseparated : decide (1 < (entryTexts body).length) = true := decide_eq_true htexts
    rw [hany, hseparated, Entry.assemble_separated] at hbody
    have hnot : ∀ text ∈ (entryTexts body).filter (¬ BlankText ·), ¬ Keyed text :=
      fun text htext => hkeyed text (List.mem_filter.1 htext).1
    exact ⟨_, EntryText.values hentries hnot, hbody⟩
  · obtain ⟨rows, hrows, hbody⟩ := exists_rows hok hkeyed
    exact ⟨rows, hrows, hbody, Table.keys_ofList rows, Table.get?_ofList rows⟩

theorem splitsAtCommas_sample : 2 ≤ (entryTexts "a=1, \"b\", a=2".toList).length ∧
    SplitsAtCommas "a=1, \"b\", a=2".toList :=
  ⟨by decide +kernel, parseBody_splitsAtCommas _ (by decide +kernel)⟩

end DocFacts
