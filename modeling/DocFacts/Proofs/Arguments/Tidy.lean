import DocFacts.Arguments.Star
import DocFacts.Comment.Occurrence
import DocFacts.Proofs.Arguments.Pass
import DocFacts.Proofs.Decimal.Integer
import DocFacts.Proofs.Value.Written

/-!
# Tidy texts

The readers of a comment look for different ends: that of an occurrence, of a composite, of a
string, of a line.  A *tidy* text closes all that it opens, so that none of them ends or starts
anything new in it, wherever it stands.  It is put together from plain characters, strings
between quotation marks and tidy texts between braces.

What each reader does with a tidy text is stated once.  A flat pass crosses it
(`Tidy.crosses`), the reader of occurrences goes over it (`Tidy.closeParenthesis?_append`), and
trimming and the removal of stars leave it as it is (`Tidy.trim_eq`, `Tidy.dropStars_eq`).
-/

namespace DocFacts

/-- The text closes what it opens. -/
inductive Tidy : List Char → Prop where
  /-- The empty text. -/
  | nil : Tidy []
  /-- A character that opens and closes nothing. -/
  | plain {c : Char} (hc : Text.isPlain c = true) : Tidy [c]
  /-- A string on one line. -/
  | quoted {s : List Char} (line : '\n' ∉ s) : Tidy ('"' :: Text.guarded s ++ ['"'])
  /-- A composite. -/
  | braces {inside : List Char} (h : Tidy inside) : Tidy ('{' :: inside ++ ['}'])
  /-- Two such texts, one behind the other. -/
  | append {front back : List Char} (hf : Tidy front) (hb : Tidy back) : Tidy (front ++ back)

namespace Text

/-- A guarded text can stand between quotation marks. -/
theorem quotable_guarded (text : List Char) {past : List Char} (he : isEscaped past = false) :
    Quotable past (guarded text) := by
  induction text generalizing past with
  | nil => exact he
  | cons c text ih =>
    by_cases hc : IsGuarded c
    · have hesc : isEscaped ('\\' :: past) = true := by simp [he]
      -- Behind the backslash `c` is escaped, and behind `c` nothing is.
      have hend : isEscaped (c :: '\\' :: past) = false := by
        by_cases hb : c = '\\'
        · subst hb
          simp [he]
        · exact isEscaped_cons_of_ne hb _
      rw [guarded_cons_of_isGuarded hc]
      refine ⟨?_, ?_, ih hend⟩
      · rintro ⟨hq, -⟩
        exact absurd hq (by decide)
      · rintro ⟨-, hno⟩
        rw [hesc] at hno
        exact absurd hno (by decide)
    · rw [guarded_cons_of_not hc]
      refine ⟨fun hq => hc (.inl hq.1), ih ?_⟩
      exact isEscaped_cons_of_ne (ne_backslash_of_not_isGuarded hc) _

end Text

theorem tidy_of_bare {text : List Char} (h : ∀ c ∈ text, Text.isBare c = true) : Tidy text := by
  induction text with
  | nil => exact .nil
  | cons c text ih =>
    obtain ⟨hc, htext⟩ := List.forall_mem_cons.1 h
    exact .append (.plain (Text.isPlain_of_isBare hc)) (ih htext)

/-! ## A flat pass over a tidy text -/

namespace Pass

/-- The pass is outside quotation marks, and the next character is not escaped. -/
structure Clear (p : Pass) : Prop where
  /-- The pass is outside quotation marks. -/
  outside : p.inQuote = false
  /-- No backslash protects the next character. -/
  unescaped : Text.isEscaped p.past = false

/-- The pass goes over the text and is as it was in front of it. -/
structure Crosses (p : Pass) (text : List Char) : Prop where
  /-- No brace of the text is stray. -/
  noStray : p.NoStray text
  /-- Nothing is left open at the end. -/
  clear : (p.through text).Clear
  /-- The depth is what it was. -/
  depth : (p.through text).depth = p.depth

variable {p : Pass}

theorem Crosses.append {front back : List Char} (hf : p.Crosses front)
    (hb : (p.through front).Crosses back) : p.Crosses (front ++ back) where
  noStray := noStray_append.2 ⟨hf.noStray, hb.noStray⟩
  clear := by rw [through_append]; exact hb.clear
  depth := by rw [through_append, hb.depth, hf.depth]

theorem Crosses.balanced {text : List Char} (h : p.Crosses text) (hd : p.depth = 0) :
    p.Balanced text :=
  ⟨h.noStray, h.clear.outside, h.depth.trans hd⟩

theorem crosses_nil (h : p.Clear) : p.Crosses [] := ⟨trivial, h, rfl⟩

/-- A character that opens and closes nothing is crossed. -/
theorem crosses_plain (h : p.Clear) {c : Char} (hplain : Text.isPlain c = true) :
    p.Crosses [c] := by
  have hmarks : c ∉ ['"', '{', '}', '\\'] := Text.not_mem_of_class hplain (by decide)
  simp only [List.mem_cons, List.not_mem_nil, or_false, not_or] at hmarks
  obtain ⟨hq, ho, hc, hb⟩ := hmarks
  have hstep := step_plain h.outside (fun hm => hq hm.1) ho hc
  refine ⟨⟨fun hs => hc hs.2.1, trivial⟩, ?_, ?_⟩
  · rw [through_cons, through_nil, hstep]
    exact ⟨rfl, Text.isEscaped_cons_of_ne hb _⟩
  · rw [through_cons, through_nil, hstep]

/-- Between quotation marks a pass stays where it is up to the mark that ends the string. -/
theorem crosses_string {q : Pass} {body : List Char} (hq : q.inQuote = true)
    (hb : Quotable q.past body) : q.Crosses (body ++ ['"']) := by
  induction body generalizing q with
  | nil =>
    have hm : q.IsMark '"' := ⟨rfl, hb⟩
    refine ⟨⟨fun hs => absurd hs.2.1 (by decide), trivial⟩, ?_, ?_⟩
    · rw [List.nil_append, through_cons, through_nil, step_mark hm, hq]
      exact ⟨rfl, Text.isEscaped_cons_of_ne (by decide) _⟩
    · rw [List.nil_append, through_cons, through_nil, step_mark hm]
  | cons c body ih =>
    have hrest := ih (q := ⟨c :: q.past, true, q.depth⟩) rfl hb.2
    rw [← step_inQuote hb.1 hq] at hrest
    refine ⟨⟨fun hs => ?_, hrest.noStray⟩, hrest.clear, ?_⟩
    · have hout := hs.1
      rw [hq] at hout
      exact absurd hout (by decide)
    · rw [List.cons_append, through_cons, hrest.depth, step_inQuote hb.1 hq]

/-- A string between quotation marks is crossed. -/
theorem crosses_quoted (h : p.Clear) (s : List Char) :
    p.Crosses ('"' :: Text.guarded s ++ ['"']) := by
  have hm : p.IsMark '"' := ⟨rfl, h.unescaped⟩
  have hstep := step_mark hm
  rw [h.outside] at hstep
  have hinside : (p.step '"').Crosses (Text.guarded s ++ ['"']) := by
    rw [hstep]
    exact crosses_string rfl (Text.quotable_guarded s (Text.isEscaped_cons_of_ne (by decide) _))
  refine ⟨⟨fun hs => absurd hs.2.1 (by decide), hinside.noStray⟩, hinside.clear, ?_⟩
  rw [List.cons_append, through_cons, hinside.depth, hstep]

/-- What is crossed one level deeper is crossed with braces around it. -/
theorem crosses_braces (h : p.Clear) {inside : List Char}
    (hi : ∀ {q : Pass}, q.Clear → q.Crosses inside) : p.Crosses ('{' :: inside ++ ['}']) := by
  have hopen := step_open h.outside
  have hclear : (p.step '{').Clear := by
    rw [hopen]
    exact ⟨rfl, Text.isEscaped_cons_of_ne (by decide) _⟩
  have hinside := hi hclear
  have hdepth : ((p.step '{').through inside).depth = p.depth + 1 := by rw [hinside.depth, hopen]
  have hclose := step_close hinside.clear.outside
  rw [List.cons_append]
  refine ⟨⟨fun hs => absurd hs.2.1 (by decide), noStray_append.2 ⟨hinside.noStray, ?_, trivial⟩⟩,
    ?_, ?_⟩
  · rintro ⟨-, -, hd⟩
    rw [hdepth] at hd
    exact absurd hd (by omega)
  · rw [through_cons, through_append, through_cons, through_nil, hclose]
    exact ⟨rfl, Text.isEscaped_cons_of_ne (by decide) _⟩
  · rw [through_cons, through_append, through_cons, through_nil, hclose, hdepth]
    rfl

end Pass

/-- A flat pass crosses a tidy text at any depth. -/
theorem Tidy.crosses {text : List Char} (h : Tidy text) {p : Pass} (hp : p.Clear) :
    p.Crosses text := by
  induction h generalizing p with
  | nil => exact Pass.crosses_nil hp
  | plain hc => exact Pass.crosses_plain hp hc
  | quoted line => exact Pass.crosses_quoted hp _
  | braces _ ih => exact Pass.crosses_braces hp ih
  | append _ _ ihf ihb => exact (ihf hp).append (ihb (ihf hp).clear)

/-- A tidy text can stand between braces. -/
theorem Tidy.balanced {text : List Char} (h : Tidy text) : Pass.Balanced {} text :=
  (h.crosses (p := {}) ⟨rfl, rfl⟩).balanced rfl

/-! ## The end of an occurrence -/

theorem closeParenthesis?_cons {c : Char} (hc : c ∉ [')', '\\']) (rest : List Char) :
    closeParenthesis? (c :: rest) =
      (closeParenthesis? rest).map fun (body, behind) => (c :: body, behind) := by
  simp only [List.mem_cons, List.not_mem_nil, or_false, not_or] at hc
  obtain ⟨hp, hb⟩ := hc
  rw [closeParenthesis?]
  · simp [hp]
  · simp [hb]
  · simp [hb]

/-- The text between quotation marks never closes an occurrence. -/
theorem closeParenthesis?_guarded (s rest : List Char) :
    closeParenthesis? (Text.guarded s ++ rest) =
      (closeParenthesis? rest).map fun (body, behind) => (Text.guarded s ++ body, behind) := by
  induction s with
  | nil => simp
  | cons c s ih =>
    by_cases hc : Text.IsGuarded c
    · rw [Text.guarded_cons_of_isGuarded hc, List.cons_append, List.cons_append,
        closeParenthesis?, ih, Option.map_map]
      rfl
    · have hnot : c ∉ [')', '\\'] := by
        simp only [List.mem_cons, List.not_mem_nil, or_false, not_or]
        exact ⟨fun hp => hc (.inr (.inr hp)), Text.ne_backslash_of_not_isGuarded hc⟩
      rw [Text.guarded_cons_of_not hc, List.cons_append, closeParenthesis?_cons hnot, ih,
        Option.map_map]
      rfl

/-- A tidy text is part of the body of the occurrence that it stands in. -/
theorem Tidy.closeParenthesis?_append {text : List Char} (h : Tidy text) (rest : List Char) :
    closeParenthesis? (text ++ rest) =
      (closeParenthesis? rest).map fun (body, behind) => (text ++ body, behind) := by
  induction h generalizing rest with
  | nil => simp
  | plain hc => exact closeParenthesis?_cons (Text.not_mem_of_class hc (by decide)) rest
  | quoted line =>
    rw [List.cons_append, List.cons_append, closeParenthesis?_cons (by decide),
      List.append_assoc, closeParenthesis?_guarded, List.singleton_append,
      closeParenthesis?_cons (by decide), Option.map_map, Option.map_map]
    simp [Function.comp_def]
  | braces _ ih =>
    rw [List.cons_append, List.cons_append, closeParenthesis?_cons (by decide),
      List.append_assoc, ih, List.singleton_append,
      closeParenthesis?_cons (by decide), Option.map_map, Option.map_map]
    simp [Function.comp_def]
  | append _ _ ihf ihb =>
    rw [List.append_assoc, ihf, ihb, Option.map_map]
    simp [Function.comp_def]

/-! ## Lines and ends -/

theorem Text.not_mem_guarded {s : List Char} (h : '\n' ∉ s) : '\n' ∉ Text.guarded s := by
  intro hmem
  obtain ⟨c, hc, hmem⟩ := List.mem_flatMap.1 hmem
  have hne : '\n' ≠ c := fun heq => h (heq ▸ hc)
  split at hmem
  · simp [hne] at hmem
  · simp [hne] at hmem

/-- A tidy text stands on one line. -/
theorem Tidy.newline_not_mem {text : List Char} (h : Tidy text) : '\n' ∉ text := by
  induction h with
  | nil => simp
  | plain hc =>
    have hne := Text.ne_of_class hc (show Text.isPlain '\n' = false by decide)
    simp [hne.symm]
  | quoted line => simp [Text.not_mem_guarded line]
  | braces _ ih => simp [ih]
  | append _ _ ihf ihb => simp [ihf, ihb]

/-- A tidy text starts with no blank and no star. -/
theorem Tidy.head? {text : List Char} (h : Tidy text) :
    ∀ c ∈ text.head?, Text.isBlank c = false ∧ c ≠ '*' := by
  induction h with
  | nil => simp
  | plain hc =>
    rintro d ⟨⟩
    exact ⟨Text.isBlank_of_isPlain hc, Text.ne_of_class hc (by decide)⟩
  | quoted _ =>
    rintro d ⟨⟩
    decide
  | braces _ _ =>
    rintro d ⟨⟩
    decide
  | append _ _ ihf ihb =>
    intro c hc
    rw [List.head?_append, Option.mem_def, Option.or_eq_some_iff] at hc
    rcases hc with hc | ⟨-, hc⟩
    · exact ihf c hc
    · exact ihb c hc

/-- A tidy text ends with no blank. -/
theorem Tidy.getLast? {text : List Char} (h : Tidy text) :
    ∀ c ∈ text.getLast?, Text.isBlank c = false := by
  induction h with
  | nil => simp
  | plain hc =>
    rintro d ⟨⟩
    exact Text.isBlank_of_isPlain hc
  | quoted _ =>
    rw [List.getLast?_concat]
    rintro d ⟨⟩
    decide
  | braces _ _ =>
    rw [List.getLast?_concat]
    rintro d ⟨⟩
    decide
  | append _ _ ihf ihb =>
    intro c hc
    rw [List.getLast?_append, Option.mem_def, Option.or_eq_some_iff] at hc
    rcases hc with hc | ⟨-, hc⟩
    · exact ihb c hc
    · exact ihf c hc

/-- Nothing of a tidy text is trimmed. -/
theorem Tidy.trim_eq {text : List Char} (h : Tidy text) : Text.trim text = text :=
  Text.trim_eq (fun c hc => (h.head? c hc).1) h.getLast?

theorem dropStars_false_eq {text : List Char} (h : '\n' ∉ text) : dropStars false text = text := by
  induction text with
  | nil => rw [dropStars]
  | cons c text ih =>
    obtain ⟨hc, htext⟩ := List.ne_and_not_mem_of_not_mem_cons h
    have hline : (c == '\n') = false := by simp [hc.symm]
    rw [dropStars]
    simp [hline, ih htext]

/-- A tidy text has no stars of lines. -/
theorem Tidy.dropStars_eq {text : List Char} (h : Tidy text) : dropStars true text = text := by
  cases text with
  | nil => rw [dropStars]
  | cons c text =>
    obtain ⟨hblank, hstar⟩ := h.head? c rfl
    obtain ⟨hc, htext⟩ := List.ne_and_not_mem_of_not_mem_cons h.newline_not_mem
    have hline : (c == '\n') = false := by simp [hc.symm]
    have hnone : behindStar? (c :: text) = none := by
      rw [behindStar?, Text.dropBlank_eq fun d hd => (h.head? d hd).1]
      simp [hstar]
    rw [dropStars]
    split
    · rename_i hsome
      rw [if_pos rfl, hnone] at hsome
      cases hsome
    · rw [hline, dropStars_false_eq htext]

/-! ## Written values -/

namespace Value

theorem bare_written_bool (b : Bool) : Text.Bare (written (.bool b)) := by
  cases b with
  | true => exact ⟨by decide, List.all_eq_true.1 (by decide)⟩
  | false => exact ⟨by decide, List.all_eq_true.1 (by decide)⟩

theorem bare_written_int (n : Int64) : Text.Bare (written (.int n)) := by
  have htext : written (.int n) = Json.integer n.toInt := by simp [written, display]
  rw [htext]
  exact ⟨Decimal.integer_ne_nil _, fun _ => Text.isBare_of_mem_integer⟩

theorem tidy_embed {v : Value} (h : Tidy v.written) : Tidy (v.embed v.written) := by
  rw [embed]
  split
  · exact .braces h
  · exact h

theorem tidy_writtenItems {items : List Value} (h : ∀ v ∈ items, Tidy v.written) :
    Tidy (writtenItems items) := by
  induction items with
  | nil =>
    rw [writtenItems]
    exact .nil
  | cons v items ih =>
    obtain ⟨hv, hitems⟩ := List.forall_mem_cons.1 h
    rw [writtenItems]
    exact .append (tidy_embed hv) (.append (.plain (by decide)) (ih hitems))

theorem tidy_row {key : String} {v : Value} (hk : Text.Bare key.toList) (hv : Tidy v.written) :
    Tidy (key.toList ++ '=' :: v.embed v.written) :=
  .append (tidy_of_bare hk.bare) (.append (.plain (by decide)) (tidy_embed hv))

theorem tidy_writtenFields {fields : List (String × Value)}
    (hkeys : ∀ row ∈ fields, Text.Bare row.1.toList) (h : ∀ row ∈ fields, Tidy row.2.written) :
    Tidy (writtenFields fields) := by
  induction fields with
  | nil =>
    rw [writtenFields]
    exact .nil
  | cons row fields ih =>
    obtain ⟨key, v⟩ := row
    obtain ⟨hkey, hkeys⟩ := List.forall_mem_cons.1 hkeys
    obtain ⟨hv, hfields⟩ := List.forall_mem_cons.1 h
    cases fields with
    | nil =>
      rw [writtenFields]
      exact tidy_row hkey hv
    | cons row' fields =>
      rw [writtenFields_cons_cons]
      exact .append (tidy_row hkey hv) (.append (.plain (by decide)) (ih hkeys hfields))

/-- The text of a value closes what it opens. -/
theorem Writable.tidy_written {v : Value} (h : v.Writable) : Tidy v.written := by
  induction h with
  | bool b => exact tidy_of_bare (bare_written_bool b).bare
  | int n => exact tidy_of_bare (bare_written_int n).bare
  | string line _ _ =>
    rw [written]
    exact .quoted line
  | list _ ih =>
    rw [written]
    exact tidy_writtenItems ih
  | map _ _ keys _ ih =>
    rw [written]
    exact tidy_writtenFields keys ih

end Value

end DocFacts
