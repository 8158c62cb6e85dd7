import DocFacts.Proofs.Arguments.LastStar
import DocFacts.Proofs.Comment.Annotation

/-!
# Closing on a comment line of its own

The closing parenthesis of an annotation may stand on the next line of a block, behind the star
that leads that line.  The block then has the annotations that it has with the parenthesis behind
the body, unless the body ends in a string.  In that case such a block is refused
(`scan_ownLine`).
-/

namespace DocFacts

/-! ## The body in front of the line -/

section Body

variable {lead body gap gap' : List Char}

/-- A text that ends in an opening parenthesis does not tell how a text behind it ends. -/
theorem endsInString_append (hlead : lead = [] ∨ ∃ more, lead = more ++ ['(']) :
    EndsInString (lead ++ body) ↔ EndsInString body := by
  rcases hlead with rfl | ⟨more, rfl⟩
  · rw [List.nil_append]
  · have hopen (front : List Char) :
        Text.isEscaped (more ++ ['('] ++ front).reverse = Text.isEscaped front.reverse := by
      rw [List.reverse_append]
      refine Text.isEscaped_append ?_ _
      rw [List.reverse_append]
      exact Text.isEscaped_cons_of_ne (by decide) _
    constructor
    · rintro ⟨front, back, happend, hback, hfront⟩
      rcases List.append_eq_append_iff.1 happend with ⟨inside, rfl, rfl⟩ | ⟨inside, hinside, hmark⟩
      · exact ⟨inside, back, rfl, hback, by rwa [hopen] at hfront⟩
      · cases inside with
        | nil => exact ⟨[], back, hmark.symm, hback, rfl⟩
        | cons c inside =>
          -- The opening parenthesis would be the mark, or one of the blanks behind it.
          obtain ⟨-, hback'⟩ := List.cons.inj hmark
          have hlast : '(' ∈ c :: inside := by
            have hend := congrArg List.getLast? hinside
            rw [List.getLast?_concat, List.getLast?_append, List.getLast?_cons,
              Option.some_or] at hend
            refine List.mem_of_getLast? ?_
            rw [List.getLast?_cons, hend]
          rcases List.mem_cons.1 hlast with rfl | hlast
          · cases hmark
          · have hblank := hback '(' (by rw [hback']; exact List.mem_append_left _ hlast)
            cases hblank
    · rintro ⟨front, back, rfl, hback, hfront⟩
      exact ⟨more ++ ['('] ++ front, back, by simp, hback, by rwa [hopen]⟩

theorem append_ownLine (lead body gap gap' : List Char) :
    lead ++ ownLine body gap gap' = ownLine (lead ++ body) gap gap' := by
  simp [ownLine]

theorem Contained.ownLine (hbody : Contained body) (hgap : ∀ c ∈ gap, Text.isBlank c = true)
    (hgap' : ∀ c ∈ gap', Text.isBlank c = true) : Contained (ownLine body gap gap') := by
  have hline {c : Char} (hc : c ∉ ['\n', '*']) (hblank : Text.isBlank c = false) :
      c ∉ '\n' :: gap ++ '*' :: gap' := by
    intro hmem
    simp only [List.cons_append, List.mem_cons, List.mem_append] at hmem
    rcases hmem with rfl | hmem | rfl | hmem
    · exact hc (by decide)
    · rw [hgap c hmem] at hblank
      cases hblank
    · exact hc (by decide)
    · rw [hgap' c hmem] at hblank
      cases hblank
  rw [DocFacts.ownLine, List.append_assoc]
  exact hbody.append (of_not_mem (hline (by decide) (by decide)) (hline (by decide) (by decide)))

end Body

/-! ## Occurrences with another body -/

theorem Occurrence.toOption_value (o : Occurrence) : o.value.toOption =
    (parseArguments (String.ofList (Text.trim o.body))).toOption := by
  rw [value]
  cases parseArguments (String.ofList (Text.trim o.body)) with
  | ok v => rfl
  | error e => rfl

theorem toOption_addOccurrences_cons (set : AnnotationSet) (o : Occurrence)
    (os : List Occurrence) : (addOccurrences set (o :: os)).toOption =
      o.value.toOption.bind fun v =>
        (addOccurrences (set.add (String.ofList o.name) v) os).toOption := by
  rw [addOccurrences]
  cases o.value with
  | ok v => rfl
  | error e => rfl

/-- A set depends on the names and the values of the occurrences. -/
theorem toOption_addOccurrences_congr {o o' : Occurrence} (hname : o.name = o'.name)
    (hvalue : o.value.toOption = o'.value.toOption) (front back : List Occurrence)
    (set : AnnotationSet) : (addOccurrences set (front ++ o :: back)).toOption =
      (addOccurrences set (front ++ o' :: back)).toOption := by
  induction front generalizing set with
  | nil =>
    rw [List.nil_append, List.nil_append, toOption_addOccurrences_cons,
      toOption_addOccurrences_cons, hname, hvalue]
  | cons u front ih =>
    rw [List.cons_append, List.cons_append, toOption_addOccurrences_cons,
      toOption_addOccurrences_cons]
    simp only [ih]

/-- In a set that is built each occurrence has a value. -/
theorem isOk_value_of_addOccurrences {os : List Occurrence} {set : AnnotationSet}
    (h : (addOccurrences set os).isOk = true) : ∀ o ∈ os, o.value.isOk = true := by
  induction os generalizing set with
  | nil => exact fun o ho => nomatch ho
  | cons o os ih =>
    rw [addOccurrences] at h
    cases hvalue : o.value with
    | ok v =>
      rw [hvalue] at h
      exact List.forall_mem_cons.2 ⟨by rw [hvalue]; rfl, ih h⟩
    | error e =>
      rw [hvalue] at h
      cases h

/-! ## Blocks -/

/-- The comment block with a text between its delimiters. -/
def block (text : List Char) : String := String.ofList (['/', '*', '*'] ++ text ++ ['*', '/'])

theorem scan_block (text : List Char) :
    scan (block text) = addOccurrences [] (occurrences text) := by
  rw [scan, block, String.toList_ofList, commentText_of_eq]

/-- **An annotation that closes on a line of its own.**  Let a line feed and the star that leads
the last line stand in front of the closing parenthesis of an annotation in a block.  If the body
does not end in a string, the block has the set that it has without that line.  If it does and the
block has a set without that line, the block is refused with it for a comma that is missing.  It
is the annotation that is reported, or one that the text in front of it leaves open. -/
theorem scan_ownLine {name : String} {body gap gap' : List Char} (hname : IsName name)
    (hbody : Contained body) (hgap : ∀ c ∈ gap, Text.isBlank c = true)
    (hgap' : ∀ c ∈ gap', Text.isBlank c = true) (front behind : List Char) :
    (¬ EndsInString body →
      (scan (block (front ++ occurrenceText name (ownLine body gap gap') ++ behind))).toOption =
        (scan (block (front ++ occurrenceText name body ++ behind))).toOption) ∧
    (EndsInString body →
      (scan (block (front ++ occurrenceText name body ++ behind))).isOk = true →
        ∃ name' near, ('@' ∉ front → name' = name) ∧
          scan (block (front ++ occurrenceText name (ownLine body gap gap') ++ behind)) =
            .error ⟨name', .missingComma near⟩) := by
  obtain ⟨os, host, lead, hstands⟩ := exists_stands hname front
  obtain ⟨hsame, hrefused⟩ := parseArguments_ownLine hgap hgap' (lead ++ body)
  rw [endsInString_append hstands.lead_eq] at hsame hrefused
  rw [scan_block, scan_block, hstands.occurrences_eq _ behind hbody,
    hstands.occurrences_eq _ behind (hbody.ownLine hgap hgap'), append_ownLine]
  constructor
  · intro hends
    refine toOption_addOccurrences_congr (by rfl) ?_ os _ _
    rw [Occurrence.toOption_value, Occurrence.toOption_value]
    exact hsame hends
  · intro hends hok
    obtain ⟨hfront, hlater⟩ := List.forall_mem_append.1 (isOk_value_of_addOccurrences hok)
    obtain ⟨hvalue, -⟩ := List.forall_mem_cons.1 hlater
    obtain ⟨v, hv⟩ : ∃ v, parseArguments (String.ofList (Text.trim (lead ++ body))) = .ok v := by
      rw [Occurrence.value] at hvalue
      split at hvalue
      · exact ⟨_, ‹_›⟩
      · cases hvalue
    obtain ⟨near, hnear⟩ := hrefused hends v hv
    refine ⟨String.ofList host, near, fun hat => ?_, ?_⟩
    · rw [hstands.host_eq hat, String.ofList_toList]
    · refine addOccurrences_eq_error hfront ?_ []
      rw [Occurrence.value, hnear]

/-- A number may have the last line behind it, and a string may not. -/
theorem scan_ownLine_numberAndString :
    IsName "X" ∧ (∀ c ∈ [' '], Text.isBlank c = true) ∧
    (Contained ['1'] ∧ ¬ EndsInString ['1'] ∧
      (scan (block ([' '] ++ occurrenceText "X" (ownLine ['1'] [' '] [' ']) ++ [' ']))).toOption =
        (scan (block ([' '] ++ occurrenceText "X" ['1'] ++ [' ']))).toOption) ∧
    (Contained ['"', 'a', '"'] ∧ EndsInString ['"', 'a', '"'] ∧
      (scan (block ([' '] ++ occurrenceText "X" ['"', 'a', '"'] ++ [' ']))).isOk = true ∧
      ∃ near, scan (block
          ([' '] ++ occurrenceText "X" (ownLine ['"', 'a', '"'] [' '] [' ']) ++ [' '])) =
        .error ⟨"X", .missingComma near⟩) := by
  have hname : IsName "X" := ⟨by decide, List.all_eq_true.1 (by decide)⟩
  have hblank : ∀ c ∈ [' '], Text.isBlank c = true := List.forall_mem_singleton.2 (by decide)
  have hnumber : Contained ['1'] := .of_not_mem (by decide) (by decide)
  have hstring : Contained ['"', 'a', '"'] := .of_not_mem (by decide) (by decide)
  have hends : EndsInString ['"', 'a', '"'] := ⟨['"', 'a'], [], rfl, by simp, by decide⟩
  have hends' : ¬ EndsInString ['1'] := by
    rintro ⟨front, back, hbody, -, -⟩
    have hmark : '"' ∈ ['1'] := by
      rw [hbody]
      simp
    exact absurd hmark (by decide)
  have hok : (scan (block ([' '] ++ occurrenceText "X" ['"', 'a', '"'] ++ [' ']))).isOk = true := by
    decide +kernel
  obtain ⟨name', near, hfirst, hnear⟩ :=
    (scan_ownLine hname hstring hblank hblank [' '] [' ']).2 hends hok
  rw [hfirst (by decide)] at hnear
  exact ⟨hname, hblank,
    ⟨hnumber, hends', (scan_ownLine hname hnumber hblank hblank [' '] [' ']).1 hends'⟩,
    hstring, hends, hok, near, hnear⟩

/-- The string `"a"` is read on one line, and not with the last line behind it. -/
theorem scan_string_closed_below :
    Contained "\"a\"".toList ∧ (parseArguments "\"a\"").toOption = some (.string "a") ∧
      (scan "/** @X(\"a\") */").toOption = some [("X", [.string "a"])] ∧
      (scan "/** @X(\"a\"\n * ) */").toOption = none := by
  refine ⟨.of_not_mem (by decide) (by decide), ?_, ?_, ?_⟩
  · decide +kernel
  · decide +kernel
  · decide +kernel

end DocFacts
