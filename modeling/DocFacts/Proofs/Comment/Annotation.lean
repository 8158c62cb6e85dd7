import DocFacts.Proofs.Comment.Occurrence
import DocFacts.Proofs.Comment.RoundTrip

/-!
# An annotation behind any text

Whether an annotation is found depends on what stands in front of it, but not on its body.  An
`@` in front may open an occurrence that has no end before the annotation.  Such an occurrence ends
where the annotation does, and has its text at the end of its own body.  Else the annotation is an
occurrence of its own (`exists_stands`).
-/

namespace DocFacts

open Text (Piece pieces pieces_cons_of_ne pieces_append ne_backslash_of_cases)

/-! ## Texts in parentheses -/

/-- The text can stand between parentheses. -/
structure Contained (body : List Char) : Prop where
  /-- Each closing parenthesis has a backslash in front that protects it. -/
  closed : .plain ')' ∉ pieces body
  /-- The text does not end inside a pair of a backslash and a character. -/
  whole : .lone ∉ pieces body

namespace Contained

variable {front back body : List Char}

theorem append (hfront : Contained front) (hback : Contained back) : Contained (front ++ back) := by
  constructor
  · rw [pieces_append hfront.whole, List.mem_append, not_or]
    exact ⟨hfront.closed, hback.closed⟩
  · rw [pieces_append hfront.whole, List.mem_append, not_or]
    exact ⟨hfront.whole, hback.whole⟩

theorem of_not_mem (hbackslash : '\\' ∉ body) (hclose : ')' ∉ body) : Contained body := by
  have hpieces : pieces body = body.map .plain := by
    clear hclose
    induction body with
    | nil => rfl
    | cons c body ih =>
      obtain ⟨hc, hbody⟩ := List.ne_and_not_mem_of_not_mem_cons hbackslash
      rw [pieces_cons_of_ne (Ne.symm hc), ih hbody, List.map_cons]
  constructor
  · rw [hpieces]
    simpa using hclose
  · rw [hpieces]
    simp

/-- The reader of bodies comes to the parenthesis behind such a text. -/
theorem closeParenthesis?_eq (h : Contained body) (behind : List Char) :
    closeParenthesis? (body ++ ')' :: behind) = some (body, behind) := by
  refine closeParenthesis?_eq_some_iff.2 ⟨pieces body, ?_, h.closed, Text.flatMap_chars_pieces _⟩
  rw [pieces_append h.whole, pieces_cons_of_ne (by decide)]

end Contained

theorem not_mem_of_cases {c : Char} {rest : List Char} (hclose : c = ')' → False)
    (hlone : c = '\\' → rest = [] → False)
    (hpair : ∀ d rest', c = '\\' → rest = d :: rest' → False) : c ∉ [')', '\\'] := by
  rw [List.mem_cons, List.mem_singleton, not_or]
  exact ⟨hclose, ne_backslash_of_cases hlone hpair⟩

/-- What closes within a text closes there with more behind it. -/
theorem closeParenthesis?_append_of_some {text body behind : List Char}
    (h : closeParenthesis? text = some (body, behind)) (more : List Char) :
    closeParenthesis? (text ++ more) = some (body, behind ++ more) := by
  fun_induction closeParenthesis? text generalizing body with
  | case1 => cases h
  | case2 rest =>
    cases h
    simp [closeParenthesis?]
  | case3 => cases h
  | case4 c rest ih =>
    simp only [Option.map_eq_some_iff, Prod.exists, Prod.mk.injEq] at h
    obtain ⟨inside, back, hclose, rfl, rfl⟩ := h
    simp [closeParenthesis?, ih hclose]
  | case5 c rest hclose hlone hpair ih =>
    simp only [Option.map_eq_some_iff, Prod.exists, Prod.mk.injEq] at h
    obtain ⟨inside, back, hinside, rfl, rfl⟩ := h
    have hc : c ∉ [')', '\\'] := not_mem_of_cases hclose hlone hpair
    rw [List.cons_append, closeParenthesis?_cons hc, ih hinside]
    rfl

/-- What does not close within a text goes on behind an `@`. -/
theorem closeParenthesis?_append_of_none {text rest body behind : List Char}
    (h : closeParenthesis? text = none) (hrest : closeParenthesis? rest = some (body, behind)) :
    closeParenthesis? (text ++ '@' :: rest) = some (text ++ '@' :: body, behind) := by
  fun_induction closeParenthesis? text with
  | case1 =>
    rw [List.nil_append, closeParenthesis?_cons (by decide), hrest]
    rfl
  | case2 inside => cases h
  | case3 => simp [closeParenthesis?, hrest]
  | case4 c inside ih =>
    have hinside := ih (Option.map_eq_none_iff.1 h)
    simp [closeParenthesis?, hinside]
  | case5 c inside hclose hlone hpair ih =>
    have hc : c ∉ [')', '\\'] := not_mem_of_cases hclose hlone hpair
    have hinside := ih (Option.map_eq_none_iff.1 h)
    rw [List.cons_append, closeParenthesis?_cons hc, hinside]
    rfl

/-! ## Annotations -/

/-- An annotation as it stands in a comment. -/
def occurrenceText (name : String) (body : List Char) : List Char :=
  '@' :: name.toList ++ '(' :: body ++ [')']

theorem occurrenceText_append (name : String) (body behind : List Char) :
    occurrenceText name body ++ behind =
      '@' :: (name.toList ++ '(' :: (body ++ ')' :: behind)) := by
  simp [occurrenceText]

theorem Contained.of_name {name : String} {body : List Char} (hname : IsName name)
    (hbody : Contained body) : Contained (name.toList ++ '(' :: body) := by
  have hlead : Contained (name.toList ++ ['(']) := by
    have hchar {c : Char} (hc : isNameChar c = false) (hopen : c ≠ '(') :
        c ∉ name.toList ++ ['('] := by
      intro hmem
      rcases List.mem_append.1 hmem with hmem | hmem
      · rw [hname.chars c hmem] at hc
        cases hc
      · exact hopen (List.mem_singleton.1 hmem)
    exact of_not_mem (hchar (by decide) (by decide)) (hchar (by decide) (by decide))
  rw [List.append_cons]
  exact hlead.append hbody

/-- Reading an occurrence from some text and an `@` behind it: either nothing is read, or the body
of an occurrence starts within the text. -/
theorem read?_append_at (front : List Char) :
    (∀ rest, Occurrence.read? (front ++ '@' :: rest) = none) ∨
      ∃ name inner, inner.length < front.length ∧ ∀ rest,
        Occurrence.read? (front ++ '@' :: rest) =
          (closeParenthesis? (inner ++ '@' :: rest)).map
            fun (body, behind) => (⟨name, body⟩, behind) := by
  have htake (rest : List Char) :
      (front ++ '@' :: rest).takeWhile isNameChar = front.takeWhile isNameChar :=
    List.takeWhile_append_cons (by decide) front rest
  have hdrop (rest : List Char) : Text.dropBlank ((front ++ '@' :: rest).dropWhile isNameChar) =
      Text.dropBlank (front.dropWhile isNameChar) ++ '@' :: rest := by
    rw [List.dropWhile_append_cons (by decide)]
    exact List.dropWhile_append_cons (by decide) _ rest
  by_cases hname : front.takeWhile isNameChar = []
  · left
    intro rest
    simp only [Occurrence.read?, htake, if_pos hname]
  · cases hinner : Text.dropBlank (front.dropWhile isNameChar) with
    | nil =>
      left
      intro rest
      simp only [Occurrence.read?, htake, hdrop, if_neg hname, hinner]
      rfl
    | cons c inner =>
      by_cases hc : c = '('
      · subst hc
        right
        refine ⟨front.takeWhile isNameChar, inner, ?_, ?_⟩
        · have hblanks := Text.length_dropBlank_le (front.dropWhile isNameChar)
          have hletters := (List.dropWhile_suffix (l := front) isNameChar).length_le
          rw [hinner, List.length_cons] at hblanks
          omega
        · intro rest
          simp only [Occurrence.read?, htake, hdrop, if_neg hname, hinner]
          rfl
      · left
        intro rest
        simp only [Occurrence.read?, htake, hdrop, if_neg hname, hinner, List.cons_append]
        split
        · rename_i hopen
          exact absurd (List.cons.inj hopen).1 hc
        · rfl

/-- What becomes of an annotation behind a text, whatever its body is: the occurrences `os`, and
behind them one of `host`.  The body of that one is `lead` with the body of the annotation. -/
structure Stands (front : List Char) (name : String) (os : List Occurrence)
    (host lead : List Char) : Prop where
  /-- In the body an opening parenthesis is in front of that of the annotation, if anything is. -/
  lead_eq : lead = [] ∨ ∃ more, lead = more ++ ['(']
  /-- Without an `@` in front it is the annotation's own occurrence. -/
  host_eq : '@' ∉ front → host = name.toList
  /-- Those are the occurrences, up to the end of the annotation. -/
  occurrences_eq : ∀ body behind, Contained body →
    occurrences (front ++ occurrenceText name body ++ behind) =
      os ++ ⟨host, lead ++ body⟩ :: occurrences behind

namespace Stands

variable {front : List Char} {name : String} {os : List Occurrence} {host lead inner : List Char}
variable {c : Char}

theorem nil (hname : IsName name) : Stands [] name [] name.toList [] := by
  refine ⟨.inl rfl, fun _ => rfl, fun body behind hbody => ?_⟩
  rw [List.nil_append, occurrenceText_append]
  exact occurrences_at (Occurrence.read?_of_close hname (hbody.closeParenthesis?_eq behind))

/-- A character that starts no occurrence is passed over. -/
theorem cons (h : Stands front name os host lead)
    (hc : c = '@' → ∀ rest, Occurrence.read? (front ++ '@' :: rest) = none) :
    Stands (c :: front) name os host lead := by
  refine ⟨h.lead_eq, fun hat => h.host_eq fun hmem => hat (List.mem_cons_of_mem c hmem), ?_⟩
  intro body behind hbody
  rw [← h.occurrences_eq body behind hbody, List.cons_append, List.cons_append]
  refine occurrences_cons_of_not fun hcat => ?_
  rw [List.append_assoc, occurrenceText_append]
  exact hc hcat _

theorem at_append_eq (front : List Char) (name : String) (body behind : List Char) :
    '@' :: front ++ occurrenceText name body ++ behind =
      '@' :: (front ++ '@' :: (name.toList ++ '(' :: (body ++ ')' :: behind))) := by
  simp [occurrenceText]

/-- An occurrence that closes in front of the annotation is one of those. -/
theorem closed {o : Occurrence} {back : List Char} (h : Stands back name os host lead)
    (hread : ∀ rest, Occurrence.read? (front ++ '@' :: rest) = some (o, back ++ '@' :: rest)) :
    Stands ('@' :: front) name (o :: os) host lead := by
  refine ⟨h.lead_eq, fun hat => absurd List.mem_cons_self hat, fun body behind hbody => ?_⟩
  have hrest := h.occurrences_eq body behind hbody
  rw [List.append_assoc, occurrenceText_append] at hrest
  rw [at_append_eq, List.cons_append, ← hrest]
  exact occurrences_at (hread _)

/-- An occurrence that does not close ends where the annotation ends. -/
theorem unclosed (hname : IsName name) (hread : ∀ rest, Occurrence.read? (front ++ '@' :: rest) =
      (closeParenthesis? (inner ++ '@' :: rest)).map
        fun (body, behind) => (⟨host, body⟩, behind))
    (hclose : closeParenthesis? inner = none) :
    Stands ('@' :: front) name [] host (inner ++ '@' :: name.toList ++ ['(']) := by
  refine ⟨.inr ⟨_, rfl⟩, fun hat => absurd List.mem_cons_self hat, fun body behind hbody => ?_⟩
  have hrest := (Contained.of_name hname hbody).closeParenthesis?_eq behind
  rw [List.append_assoc, List.cons_append] at hrest
  rw [at_append_eq, List.nil_append]
  refine occurrences_at ?_
  rw [hread, closeParenthesis?_append_of_none hclose hrest]
  simp

end Stands

/-- **Where an annotation ends up.**  Behind any text an annotation is found, or it belongs to the
body of one that the text leaves open.  Then that body ends where the annotation does. -/
theorem exists_stands {name : String} (hname : IsName name) (front : List Char) :
    ∃ os host lead, Stands front name os host lead := by
  induction hk : front.length using Nat.strongRecOn generalizing front with
  | _ k ih =>
    cases front with
    | nil => exact ⟨_, _, _, .nil hname⟩
    | cons c front =>
      rw [List.length_cons] at hk
      obtain ⟨os, host, lead, hfront⟩ := ih front.length (by omega) front rfl
      by_cases hc : c = '@'
      · subst hc
        rcases read?_append_at front with hnone | ⟨host', inner, hlength, hread⟩
        · exact ⟨os, host, lead, hfront.cons fun _ => hnone⟩
        · cases hclose : closeParenthesis? inner with
          | none => exact ⟨_, _, _, .unclosed hname hread hclose⟩
          | some cut =>
            have hback := length_of_closeParenthesis? hclose
            obtain ⟨os', host'', lead', hcut⟩ := ih cut.2.length (by omega) cut.2 rfl
            refine ⟨⟨host', cut.1⟩ :: os', host'', lead', hcut.closed fun rest => ?_⟩
            rw [hread, closeParenthesis?_append_of_some hclose]
            rfl
      · exact ⟨os, host, lead, hfront.cons fun hat => absurd hat hc⟩

end DocFacts
