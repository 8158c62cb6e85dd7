import DocFacts.Arguments.Star
import DocFacts.Proofs.Arguments.Trailing

/-!
# A star on the last line of a body

If an annotation closes on a comment line of its own, its body ends in a line feed and the star
that leads the last line.  The body is trimmed before the stars are dropped, and the star is in the
way: behind the body that is left stand blank characters up to the line feed
(`exists_dropStars_ownLine`).  So it is read as the body without the last line, unless that ends in
a string (`parseArguments_ownLine`).
-/

namespace DocFacts

variable {c : Char} {rest behind : List Char} {atLineStart : Bool}

/-! ## The start of a line -/

/-- The star that leads a line has only blank characters in front of it. -/
theorem behindStar?_eq_some_iff {text : List Char} :
    behindStar? text = some behind ↔
      ∃ blanks, (∀ c ∈ blanks, Text.isBlank c = true) ∧ text = blanks ++ '*' :: behind := by
  constructor
  · intro h
    obtain ⟨blanks, hblanks, htext⟩ := Text.exists_append_dropBlank text
    rw [behindStar?] at h
    split at h
    · rename_i hstar
      cases h
      exact ⟨blanks, hblanks, by rw [← htext, hstar]⟩
    · cases h
  · rintro ⟨blanks, hblanks, rfl⟩
    rw [behindStar?, Text.dropBlank_append hblanks, Text.dropBlank_cons_of_not (by decide)]
    rfl

theorem dropStars_cons_of_some (h : behindStar? (c :: rest) = some behind) :
    dropStars true (c :: rest) = dropStars false behind := by
  rw [dropStars]
  split
  · rename_i hsome
    rw [if_pos rfl, h] at hsome
    cases hsome
    rfl
  · rename_i hnone
    rw [if_pos rfl, h] at hnone
    cases hnone

theorem dropStars_cons_of_none (h : atLineStart = true → behindStar? (c :: rest) = none) :
    dropStars atLineStart (c :: rest) = c :: dropStars (c == '\n') rest := by
  rw [dropStars]
  split
  · rename_i hsome
    split at hsome
    · rename_i hstart
      rw [h hstart] at hsome
      cases hsome
    · cases hsome
  · rfl

theorem dropStars_false_cons : dropStars false (c :: rest) = c :: dropStars (c == '\n') rest :=
  dropStars_cons_of_none fun h => by cases h

/-- The star that leads a line is dropped with the blank characters in front of it. -/
theorem dropStars_true_star {blanks : List Char} (hblanks : ∀ c ∈ blanks, Text.isBlank c = true)
    (rest : List Char) : dropStars true (blanks ++ '*' :: rest) = dropStars false rest := by
  have hstar : behindStar? (blanks ++ '*' :: rest) = some rest :=
    behindStar?_eq_some_iff.2 ⟨blanks, hblanks, rfl⟩
  cases blanks with
  | nil => exact dropStars_cons_of_some hstar
  | cons d blanks => exact dropStars_cons_of_some hstar

/-- A character that is not blank decides whether a star leads the line, whatever follows. -/
theorem behindStar?_append_cons (hc : Text.isBlank c = false) (front rest : List Char) :
    behindStar? (front ++ c :: rest) = (behindStar? (front ++ [c])).map (· ++ rest) := by
  have hdrop (rest : List Char) : Text.dropBlank (front ++ c :: rest) =
      Text.dropBlank front ++ c :: rest := List.dropWhile_append_cons hc front rest
  rw [behindStar?, behindStar?, hdrop, hdrop]
  obtain ⟨e, tail, htail⟩ := List.exists_cons_of_ne_nil
    (List.append_ne_nil_of_right_ne_nil (Text.dropBlank front) (List.cons_ne_nil c []))
  rw [List.append_cons, htail, List.cons_append]
  by_cases he : e = '*'
  · subst he
    rfl
  · simp [he]

/-- Stars of lines have no say in whether a text ends in a mark. -/
theorem endsInMark_dropStars {past past' : List Char} {text : List Char}
    (hpast : Text.isEscaped past' = Text.isEscaped past)
    (hstart : atLineStart = true → Text.isEscaped past = false) :
    EndsInMark past' (dropStars atLineStart text) ↔ EndsInMark past text := by
  fun_induction dropStars atLineStart text generalizing past past' with
  | case1 => exact iff_of_false (not_endsInMark_nil _) (not_endsInMark_nil _)
  | case2 atLineStart c rest behind h ih =>
    split at h
    · rename_i hline
      obtain ⟨blanks, -, htext⟩ := behindStar?_eq_some_iff.1 h
      rw [htext]
      cases behind with
      | nil =>
        rw [dropStars]
        refine iff_of_false (not_endsInMark_nil _) fun hmark => ?_
        exact absurd (endsInMark_append_singleton.1 hmark).1 (by decide)
      | cons d behind =>
        rw [List.append_cons, endsInMark_append_iff (List.cons_ne_nil d behind)]
        refine ih ?_ (fun h => by cases h)
        rw [hpast, hstart hline, List.reverse_append, List.reverse_singleton,
          List.singleton_append, List.cons_append, Text.isEscaped_cons_of_ne (by decide)]
    · cases h
  | case3 atLineStart c rest h ih =>
    have hrest := ih (Text.isEscaped_cons_congr hpast c) fun hline => by
      rw [eq_of_beq hline]
      exact Text.isEscaped_cons_of_ne (by decide) past
    rw [endsInMark_cons_iff, endsInMark_cons_iff, hrest, hpast]
    refine or_congr (and_congr_left fun hmark => ?_) Iff.rfl
    obtain ⟨rfl, -⟩ := hmark
    cases rest with
    | nil => simp [dropStars]
    | cons d rest =>
      have hline : ('"' == '\n') = false := rfl
      simp [hline, dropStars_false_cons]

/-- Behind a character that is not blank a text goes on within a line, and what stands in front is
read alone. -/
theorem exists_dropStars_append (hc : Text.isBlank c = false) (atLineStart : Bool)
    (front : List Char) : ∃ kept, ∀ rest,
      dropStars atLineStart (front ++ c :: rest) = kept ++ dropStars false rest := by
  induction hk : front.length using Nat.strongRecOn generalizing front atLineStart with
  | _ k ih =>
    have hline : (c == '\n') = false := by
      have hne : c ≠ '\n' := by
        rintro rfl
        cases hc
      simpa using hne
    by_cases hstar : atLineStart = true ∧ ∃ behind, behindStar? (front ++ [c]) = some behind
    · obtain ⟨rfl, behind, hbehind⟩ := hstar
      have hdrop (rest : List Char) :
          dropStars true (front ++ c :: rest) = dropStars false (behind ++ rest) := by
        have hsome := behindStar?_append_cons hc front rest
        rw [hbehind] at hsome
        obtain ⟨blanks, hblanks, happend⟩ := behindStar?_eq_some_iff.1 hsome
        rw [happend]
        exact dropStars_true_star hblanks _
      obtain ⟨blanks, -, happend⟩ := behindStar?_eq_some_iff.1 hbehind
      rcases List.eq_nil_or_concat behind with rfl | ⟨within, d, rfl⟩
      · exact ⟨[], hdrop⟩
      · rw [List.concat_eq_append, ← List.cons_append, ← List.append_assoc] at happend
        obtain ⟨rfl, hd⟩ := List.append_inj' happend rfl
        cases hd
        obtain ⟨kept, hkept⟩ := ih within.length (by simp at hk; omega) false within rfl
        refine ⟨kept, fun rest => ?_⟩
        rw [hdrop, ← hkept rest, List.concat_eq_append, List.append_assoc, List.singleton_append]
    · have hnone (rest : List Char) (h : atLineStart = true) :
          behindStar? (front ++ c :: rest) = none := by
        rw [behindStar?_append_cons hc]
        cases hsome : behindStar? (front ++ [c]) with
        | none => rfl
        | some behind => exact absurd ⟨h, behind, hsome⟩ hstar
      cases front with
      | nil =>
        refine ⟨[c], fun rest => ?_⟩
        have hcons := dropStars_cons_of_none (hnone rest)
        rw [hline] at hcons
        exact hcons
      | cons d front =>
        obtain ⟨kept, hkept⟩ := ih front.length (by simp at hk; omega) (d == '\n') front rfl
        refine ⟨d :: kept, fun rest => ?_⟩
        have hcons := dropStars_cons_of_none (hnone rest)
        exact hcons.trans (congrArg (List.cons d) (hkept rest))

/-! ## The last line -/

/-- The body of an annotation that closes on a comment line of its own. -/
def ownLine (body gap gap' : List Char) : List Char := body ++ '\n' :: gap ++ '*' :: gap'

/-- The text ends in a quotation mark that is not escaped, up to blank characters. -/
def EndsInString (body : List Char) : Prop :=
  ∃ front back, body = front ++ '"' :: back ∧ (∀ c ∈ back, Text.isBlank c = true) ∧
    Text.isEscaped front.reverse = false

variable {body gap gap' : List Char}

/-- Trimming leaves a mark at the end where it is. -/
theorem endsInMark_trim_iff : EndsInMark [] (Text.trim body) ↔ EndsInString body := by
  obtain ⟨blanks, hblanks, hbody⟩ := Text.exists_append_dropBlank body
  have hmark : Text.isBlank '"' = false := by decide
  rcases Text.trim_cases body with hall | ⟨front, c, back, hc, hback, hdrop, htrim⟩
  · rw [Text.trim, Text.dropBlank_eq_nil hall]
    refine iff_of_false (not_endsInMark_nil _) ?_
    rintro ⟨front, back, rfl, -, -⟩
    rw [hall '"' (by simp)] at hmark
    cases hmark
  · rw [hdrop] at hbody
    have hescaped : Text.isEscaped (blanks ++ front).reverse = Text.isEscaped front.reverse := by
      rw [List.reverse_append]
      exact Text.isEscaped_append (Text.isEscaped_blanks (by simpa using hblanks)) _
    rw [htrim, endsInMark_append_singleton, List.append_nil, ← hescaped]
    constructor
    · rintro ⟨rfl, hfront⟩
      exact ⟨blanks ++ front, back, by rw [← hbody, List.append_assoc], hback, hfront⟩
    · rintro ⟨front', back', hbody', hback', hfront'⟩
      have hend : blanks ++ front ++ [c] = front' ++ ['"'] := by
        have hleft := Text.trimEnd_append hback (blanks ++ front ++ [c])
        have hright := Text.trimEnd_append hback' (front' ++ ['"'])
        rw [Text.trimEnd_append_singleton hc] at hleft
        rw [Text.trimEnd_append_singleton hmark] at hright
        rw [← hleft, ← hright]
        have hsame : blanks ++ front ++ [c] ++ back = front' ++ ['"'] ++ back' := by
          simpa using hbody.trans hbody'
        rw [hsame]
      obtain ⟨rfl, hcmark⟩ := List.append_inj' hend rfl
      exact ⟨(List.cons.inj hcmark).1, hfront'⟩

/-- Of blank characters with a line feed and a star behind them blank characters are left. -/
theorem exists_dropStars_blanks {blanks : List Char}
    (hblanks : ∀ c ∈ blanks, Text.isBlank c = true) (hline : '\n' ∈ blanks) :
    ∃ left, left ≠ [] ∧ (∀ c ∈ left, Text.isBlank c = true) ∧
      dropStars false (blanks ++ ['*']) = left := by
  induction blanks with
  | nil => cases hline
  | cons c blanks ih =>
    obtain ⟨hc, hblanks⟩ := List.forall_mem_cons.1 hblanks
    by_cases hfeed : c = '\n'
    · subst hfeed
      refine ⟨['\n'], List.cons_ne_nil _ _, List.forall_mem_singleton.2 hc, ?_⟩
      have hstar : dropStars true (blanks ++ ['*']) = dropStars false [] :=
        dropStars_true_star (fun c hmem => hblanks c (by simp [hmem])) []
      rw [List.cons_append, dropStars_false_cons, beq_self_eq_true, hstar, dropStars]
    · have hrest : '\n' ∈ blanks := (List.mem_cons.1 hline).resolve_left (Ne.symm hfeed)
      obtain ⟨left, -, hleft, heq⟩ := ih hblanks hrest
      have hbeq : (c == '\n') = false := by simpa using hfeed
      refine ⟨c :: left, List.cons_ne_nil _ _, List.forall_mem_cons.2 ⟨hc, hleft⟩, ?_⟩
      rw [List.cons_append, dropStars_false_cons, hbeq, heq]

/-- What the parser reads of a body with such a last line: what it reads of the body alone, and
blank characters behind it.  There are none only if nothing is in front of them. -/
theorem exists_dropStars_ownLine (hgap : ∀ c ∈ gap, Text.isBlank c = true)
    (hgap' : ∀ c ∈ gap', Text.isBlank c = true) (body : List Char) :
    ∃ left, (∀ c ∈ left, Text.isBlank c = true) ∧
      dropStars true (Text.trim (ownLine body gap gap')) =
        dropStars true (Text.trim body) ++ left ∧
      (left = [] → dropStars true (Text.trim body) = []) := by
  have hfeed : ∀ c ∈ '\n' :: gap, Text.isBlank c = true := List.forall_mem_cons.2 ⟨by decide, hgap⟩
  have hlast : Text.trim (ownLine body gap gap') = Text.trim (body ++ '\n' :: gap ++ ['*']) := by
    rw [← Text.trim_append hgap' (body ++ '\n' :: gap ++ ['*']), ownLine, List.append_assoc _ ['*']]
    rfl
  rcases Text.trim_cases body with hblank | ⟨front, c, back, hc, hback, hdrop, htrim⟩
  · have hempty : Text.trim body = [] := by
      rw [Text.trim, Text.dropBlank_eq_nil hblank]
      rfl
    have hstar : Text.trim (ownLine body gap gap') = ['*'] := by
      rw [hlast, Text.trim, Text.dropBlank_append (List.forall_mem_append.2 ⟨hblank, hfeed⟩)]
      rfl
    have hnone : dropStars true ['*'] = [] := by
      rw [dropStars_cons_of_some (by rfl), dropStars]
    refine ⟨[], by simp, ?_, fun _ => ?_⟩
    · rw [hstar, hempty, hnone, dropStars, List.append_nil]
    · rw [hempty, dropStars]
  · obtain ⟨kept, hkept⟩ := exists_dropStars_append hc true front
    obtain ⟨left, hne, hleft, hblanks⟩ :=
      exists_dropStars_blanks (List.forall_mem_append.2 ⟨hback, hfeed⟩) (by simp)
    have hbody : dropStars true (Text.trim body) = kept := by
      rw [htrim, hkept, dropStars, List.append_nil]
    have htrim' : Text.trim (ownLine body gap gap') =
        front ++ c :: (back ++ '\n' :: gap ++ ['*']) := by
      have hdrop' : Text.dropBlank (body ++ '\n' :: gap ++ ['*']) =
          front ++ c :: (back ++ '\n' :: gap) ++ ['*'] := by
        rw [Text.dropBlank, List.append_assoc, List.dropWhile_append, ← Text.dropBlank, hdrop]
        simp
      rw [hlast, Text.trim, hdrop', Text.trimEnd_append_singleton (by decide)]
      simp
    exact ⟨left, hleft, by rw [htrim', hkept, hblanks, hbody], fun h => absurd h hne⟩

/-- **A body with a star on its last line.** -/
theorem parseArguments_ownLine (hgap : ∀ c ∈ gap, Text.isBlank c = true)
    (hgap' : ∀ c ∈ gap', Text.isBlank c = true) (body : List Char) :
    (¬ EndsInString body →
      (parseArguments (String.ofList (Text.trim (ownLine body gap gap')))).toOption =
        (parseArguments (String.ofList (Text.trim body))).toOption) ∧
    (EndsInString body → ∀ v, parseArguments (String.ofList (Text.trim body)) = .ok v →
      ∃ near, parseArguments (String.ofList (Text.trim (ownLine body gap gap'))) =
        .error (.missingComma near)) := by
  obtain ⟨left, hleft, hdrop, hnil⟩ := exists_dropStars_ownLine hgap hgap' body
  have hmark : EndsInMark [] (dropStars true (Text.trim body)) ↔ EndsInString body :=
    (endsInMark_dropStars rfl fun _ => rfl).trans endsInMark_trim_iff
  simp only [parseArguments, String.toList_ofList, hdrop]
  rw [← hmark]
  by_cases hleft' : left = []
  · rw [hleft', hnil hleft', List.append_nil]
    exact ⟨fun _ => rfl, fun hends => absurd hends (not_endsInMark_nil _)⟩
  · cases hparse : parseBody (dropStars true (Text.trim body)) with
    | ok v =>
      obtain ⟨hsame, hrefused⟩ := parseBody_append_blanks hleft hleft' hparse
      exact ⟨fun hends => by rw [hsame hends], fun hends _ _ => hrefused hends⟩
    | error e =>
      obtain ⟨e', he'⟩ := exists_parseBody_append_eq_error hleft hparse
      refine ⟨fun _ => by rw [he']; rfl, fun _ v hv => ?_⟩
      cases hv

end DocFacts
