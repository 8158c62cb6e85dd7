import DocFacts.Proofs.Arguments.Entries
import Mathlib.Algebra.Group.Nat.Even

/-!
# Braces around a body

A composite is read as a body of its own.  So braces around a body add nothing to it, however
many they are, and a composite behind an equals sign is what its body is.  `BracesAddNothing` says
so, and `parseBody_bracesAddNothing` that it holds of every body that can stand between braces: one
with an even number of quotation marks and with balanced braces.

The number of quotation marks comes in because a pass is outside them exactly behind an even number
of them (`Pass.inQuote_through`).  Such a body is then what the reader finds between the braces.
-/

namespace DocFacts

namespace Pass

variable {p : Pass} {body text : List Char}

/-- The number of quotation marks that are not escaped. -/
def marks (p : Pass) : List Char → Nat
  | [] => 0
  | c :: text => (if p.IsMark c then 1 else 0) + (p.step c).marks text

/-- Only a quotation mark that is not escaped leads into a string or out of it. -/
theorem inQuote_step (c : Char) :
    (p.step c).inQuote = (if p.IsMark c then !p.inQuote else p.inQuote) := by
  by_cases hm : p.IsMark c
  · rw [step_mark hm, if_pos hm]
  · rw [if_neg hm]
    simp only [step, if_neg hm]
    cases hq : p.inQuote with
    | true => rfl
    | false =>
      simp only [Bool.false_eq_true, if_false]
      repeat' split
      all_goals rfl

/-- An even number of quotation marks leads back to where they started. -/
theorem inQuote_through :
    (p.through text).inQuote = if Even (p.marks text) then p.inQuote else !p.inQuote := by
  induction text generalizing p with
  | nil => rfl
  | cons c text ih =>
    rw [through_cons, ih, inQuote_step, marks]
    by_cases hm : p.IsMark c
    · by_cases heven : Even ((p.step c).marks text)
      · simp [hm, heven, Nat.even_add]
      · simp [hm, heven, Nat.even_add]
    · rw [if_neg hm, if_neg hm, Nat.zero_add]

/-- What can stand between braces. -/
theorem balanced_of_even (heven : Even (marks {} body)) (hstray : NoStray {} body)
    (hclosed : (through {} body).depth = 0) : Balanced {} body :=
  ⟨hstray, by rw [inQuote_through, if_pos heven], hclosed⟩

/-- Braces around balanced text are balanced. -/
theorem Balanced.enclose (h : Balanced {} body) : Balanced {} ('{' :: (body ++ ['}'])) := by
  have hend := through_composite (p := {}) rfl h
  have hopen := through_open_balanced (p := {}) rfl h
  refine ⟨noStray_cons.2 ⟨?_, noStray_append.2 ⟨?_, noStray_cons.2 ⟨?_, trivial⟩⟩⟩, ?_, ?_⟩
  · rintro ⟨-, hclose, -⟩
    cases hclose
  · exact (inside_step_open rfl).noStray h.noStray
  · rintro ⟨-, -, hdepth⟩
    rw [through_cons] at hopen
    rw [hopen] at hdepth
    cases hdepth
  · rw [hend]
  · rw [hend]

end Pass

/-- A composite that ends a body is read after its inside. -/
theorem Reading.run_composite_last {r : Reading} {inside gap : List Char}
    (hrest : r.cursor.rest = '{' :: (inside ++ '}' :: gap)) (hinside : Pass.Balanced {} inside)
    (hgap : ∀ c ∈ gap, Text.isBlank c = true) :
    r.run = (parseBody inside).map fun v =>
      (r.take v ⟨gap.reverse ++ '}' :: (inside.reverse ++ '{' :: r.cursor.past), []⟩).result := by
  have hend : r.cursor.rest = '{' :: (inside ++ '}' :: (gap ++ [])) := by
    rw [hrest, List.append_nil]
  rw [run_composite_eq hend hinside hgap (by simp)]
  cases parseBody inside with
  | error e => rfl
  | ok v => exact run_nil rfl

section

variable {body text : List Char} {key : String}

/-- A composite alone is what its inside is. -/
theorem parseBody_composite (h : Pass.Balanced {} body) :
    parseBody ('{' :: (body ++ ['}'])) = parseBody body := by
  rw [parseBody, Reading.run_composite_last rfl h (List.forall_mem_nil _)]
  cases parseBody body with
  | error e => rfl
  | ok v => rfl

/-- Any number of braces can stand around a body. -/
theorem parseBody_nested (h : Pass.Balanced {} body) (n : Nat) :
    Pass.Balanced {} (List.replicate n '{' ++ (body ++ List.replicate n '}')) ∧
      parseBody (List.replicate n '{' ++ (body ++ List.replicate n '}')) = parseBody body := by
  induction n with
  | zero => simpa using h
  | succ n ih =>
    obtain ⟨hbalanced, hvalue⟩ := ih
    have htext : List.replicate (n + 1) '{' ++ (body ++ List.replicate (n + 1) '}') =
        '{' :: (List.replicate n '{' ++ (body ++ List.replicate n '}') ++ ['}']) := by
      rw [List.replicate_succ, List.replicate_succ' (a := '}')]
      simp
    rw [htext]
    exact ⟨hbalanced.enclose, (parseBody_composite hbalanced).trans hvalue⟩

/-! ## Composites as values of a map -/

/-- The text is a name, an equals sign and a composite.  Text in front of the composite is dropped
and blank characters may stand behind it. -/
inductive CompositeRow (body : List Char) : String → List Char → Prop where
  | row {name dropped gap : List Char} (hname : ¬ Pass.Meets {} Pass.Opens name)
      (hequals : '=' ∉ name) (hcomma : ',' ∉ name) (hdropped : ¬ Pass.Meets {} Pass.Opens dropped)
      (hcomma' : ',' ∉ dropped) (hgap : ∀ c ∈ gap, Text.isBlank c = true) :
      CompositeRow body (String.ofList (Text.trim (name.filter (· ≠ '}'))))
        (name ++ '=' :: (dropped ++ '{' :: (body ++ '}' :: gap)))

/-- The reader goes over a name, the equals sign and the text that is dropped. -/
theorem Reading.reads_name {name dropped back : List Char}
    (hname : ¬ Pass.Meets {} Pass.Opens name) (hequals : '=' ∉ name) (hcomma : ',' ∉ name)
    (hdropped : ¬ Pass.Meets {} Pass.Opens dropped) (hcomma' : ',' ∉ dropped) :
    Reads (start (name ++ '=' :: (dropped ++ back)))
      { cursor := ⟨dropped.reverse ++ '=' :: name.reverse, back⟩
        draft := (Draft.row (String.ofList (name.filter (· ≠ '}')))).setCurrent
          (.text (String.ofList (dropped.filter (· ≠ '}'))))
        keyed := true } := by
  have htoName : Reads (start (name ++ '=' :: (dropped ++ back)))
      { cursor := ⟨name.reverse ++ [], '=' :: (dropped ++ back)⟩
        draft := ({} : Draft).setCurrent
          (.text (String.ofList ([] ++ name.filter (· ≠ '}')))) } :=
    reads_plain hname hcomma (fun _ => hequals) rfl rfl
  rw [List.append_nil, List.nil_append] at htoName
  have hequals' : Advance
      { cursor := ⟨name.reverse, '=' :: (dropped ++ back)⟩
        draft := ({} : Draft).setCurrent (.text (String.ofList (name.filter (· ≠ '}')))) }
      { cursor := ⟨'=' :: name.reverse, dropped ++ back⟩
        draft := Draft.row (String.ofList (name.filter (· ≠ '}'))), keyed := true } :=
    .equals rfl rfl
  have hpass : ¬ Pass.Meets ⟨'=' :: name.reverse, false, 0⟩ Pass.Opens dropped :=
    mt (Pass.inside_cons (by decide)).meets_opens_iff.1 hdropped
  have htoValue : Reads
      { cursor := ⟨'=' :: name.reverse, dropped ++ back⟩
        draft := Draft.row (String.ofList (name.filter (· ≠ '}'))), keyed := true }
      { cursor := ⟨dropped.reverse ++ '=' :: name.reverse, back⟩
        draft := (Draft.row (String.ofList (name.filter (· ≠ '}')))).setCurrent
          (.text (String.ofList ([] ++ dropped.filter (· ≠ '}'))))
        keyed := true } :=
    reads_plain hpass hcomma' (fun hside => by cases hside) rfl rfl
  exact (htoName.tail hequals').trans htoValue

/-- Such a text alone is a map with one row. -/
theorem CompositeRow.parseBody_eq (h : CompositeRow body key text)
    (hbody : Pass.Balanced {} body) :
    parseBody text = (parseBody body).map fun v => .map [(key, v)] := by
  cases h with
  | @row name dropped gap hname hequals hcomma hdropped hcomma' hgap =>
    rw [parseBody, (Reading.reads_name hname hequals hcomma hdropped hcomma').run_eq,
      Reading.run_composite_last rfl hbody hgap]
    cases parseBody body with
    | error e => rfl
    | ok v =>
      show Except.ok (Value.map [((Token.text (String.ofList (name.filter (· ≠ '}')))).key, v)]) = _
      rw [Token.key, String.toList_ofList]
      rfl

theorem CompositeRow.keyed (h : CompositeRow body key text) : Keyed text := by
  cases h with
  | @row name dropped gap hname hequals hcomma hdropped hcomma' hgap =>
    refine ⟨name, '=', _, rfl, rfl, ?_⟩
    rw [Pass.through_plain ⟨rfl, rfl⟩ hname]
    exact ⟨rfl, rfl⟩

/-- Among the entries of a body it is a row of the map. -/
theorem CompositeRow.exists_rows (h : CompositeRow body key text) (hbody : Pass.Balanced {} body)
    {whole : List Char} {u : Value} (htext : text ∈ entryTexts whole)
    (hwhole : parseBody whole = .ok u) :
    ∃ rows v, List.Forall₂ RowOf ((entryTexts whole).filter (¬ BlankText ·)) rows ∧
      u = .map (Table.ofList rows) ∧ (key, v) ∈ rows ∧ parseBody body = .ok v := by
  obtain ⟨rows, hrows, hvalue⟩ := DocFacts.exists_rows ⟨u, hwhole⟩ ⟨text, htext, h.keyed⟩
  have hmem : text ∈ (entryTexts whole).filter (¬ BlankText ·) :=
    List.mem_filter.2 ⟨htext, by simpa using Drafted.not_blankText_of_keyed h.keyed⟩
  obtain ⟨row, hrow, hrowOf⟩ := RowOf.exists_of_mem hrows hmem
  cases hrowOf with
  | flag hkeyed hkey => exact absurd h.keyed hkeyed
  | keyed hkeyed hmap =>
    rw [h.parseBody_eq hbody] at hmap
    cases hinside : parseBody body with
    | error e =>
      rw [hinside] at hmap
      cases hmap
    | ok v =>
      rw [hinside] at hmap
      cases hmap
      rw [hwhole] at hvalue
      exact ⟨rows, v, hrows, Except.ok.inj hvalue, hrow, rfl⟩

end

/-! ## Braces around a body -/

/-- Braces around a body make no difference to its value, or to why it has none. -/
structure BracesAddNothing (body : List Char) : Prop where
  /-- Braces around the body. -/
  enclosed : parseBody ('{' :: (body ++ ['}'])) = parseBody body
  /-- Any number of braces around the body. -/
  nested (n : Nat) :
    parseBody (List.replicate n '{' ++ (body ++ List.replicate n '}')) = parseBody body
  /-- Braces around the body, as the value of a map with one row. -/
  row {key : String} {text : List Char} (htext : CompositeRow body key text) :
    parseBody text = (parseBody body).map fun v => .map [(key, v)]
  /-- Braces around the body, as the value of one row among others. -/
  rows {key : String} {text whole : List Char} {u : Value} (htext : CompositeRow body key text)
    (hmem : text ∈ entryTexts whole) (hwhole : parseBody whole = .ok u) :
    ∃ rows v, List.Forall₂ RowOf ((entryTexts whole).filter (¬ BlankText ·)) rows ∧
      u = .map (Table.ofList rows) ∧ (key, v) ∈ rows ∧ parseBody body = .ok v

/-- **Braces add nothing.**  An even number of quotation marks and balanced braces are all that a
body needs to stand between braces. -/
theorem parseBody_bracesAddNothing (body : List Char) (heven : Even (Pass.marks {} body))
    (hstray : Pass.NoStray {} body) (hclosed : (Pass.through {} body).depth = 0) :
    BracesAddNothing body := by
  have hbody := Pass.balanced_of_even heven hstray hclosed
  exact {
    enclosed := parseBody_composite hbody
    nested := fun n => (parseBody_nested hbody n).2
    row := fun htext => htext.parseBody_eq hbody
    rows := fun htext hmem hwhole => htext.exists_rows hbody hmem hwhole }

/-- A body with a brace between quotation marks, which does not count. -/
theorem bracesAddNothing_sample : BracesAddNothing r#"{a}, b="}""#.toList :=
  parseBody_bracesAddNothing _ (by decide +kernel) (by decide +kernel) (by decide +kernel)

end DocFacts
