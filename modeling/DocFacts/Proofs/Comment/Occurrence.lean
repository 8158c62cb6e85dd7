import DocFacts.Comment.Occurrence
import DocFacts.Proofs.Text.Blank
import DocFacts.Proofs.Text.Pieces

/-!
# What is read behind an `@`

The reader of occurrences finds what there is.  The body of an occurrence ends at the first
closing parenthesis that is not the second half of a pair (`closeParenthesis?_eq_some_iff`).  Its
name is the longest run of name characters, and only blank characters stand between the name and
the parenthesis (`Occurrence.read?_eq_some_iff`).
-/

namespace DocFacts

open Text (Piece pieces pieces_inj)

/-- A text is a body, the first closing parenthesis that is not the second half of a pair, and
what stands behind it. -/
def Closes (text body behind : List Char) : Prop :=
  ∃ front, pieces text = front ++ .plain ')' :: pieces behind ∧ .plain ')' ∉ front ∧
    front.flatMap Piece.chars = body

namespace Closes

variable {text rest body behind : List Char}

theorem text_eq (h : Closes text body behind) : text = body ++ ')' :: behind := by
  obtain ⟨front, hpieces, -, rfl⟩ := h
  rw [← Text.flatMap_chars_pieces text, hpieces, List.flatMap_append, List.flatMap_cons,
    Text.flatMap_chars_pieces]
  rfl

theorem not_nil : ¬ Closes [] body behind := by
  rintro ⟨front, hfront, -, -⟩
  simp [pieces] at hfront

theorem iff_of_pieces_eq_close (h : pieces text = .plain ')' :: pieces rest) :
    Closes text body behind ↔ body = [] ∧ behind = rest := by
  constructor
  · rintro ⟨front, hfront, hnot, rfl⟩
    rw [h] at hfront
    cases front with
    | nil => exact ⟨rfl, pieces_inj (List.cons.inj hfront).2.symm⟩
    | cons p front =>
      obtain ⟨rfl, -⟩ := List.cons.inj hfront
      exact absurd List.mem_cons_self hnot
  · rintro ⟨rfl, rfl⟩
    exact ⟨[], h, by simp, rfl⟩

/-- A piece that is no closing parenthesis belongs to the body. -/
theorem iff_of_pieces_eq_cons {p : Piece} (h : pieces text = p :: pieces rest)
    (hp : p ≠ .plain ')') : Closes text body behind ↔
      ∃ body', Closes rest body' behind ∧ p.chars ++ body' = body := by
  constructor
  · rintro ⟨front, hfront, hnot, rfl⟩
    rw [h] at hfront
    cases front with
    | nil => exact absurd (List.cons.inj hfront).1 hp
    | cons q front =>
      obtain ⟨rfl, hrest⟩ := List.cons.inj hfront
      exact ⟨_, ⟨front, hrest, fun hmem => hnot (List.mem_cons_of_mem _ hmem), rfl⟩, rfl⟩
  · rintro ⟨body', ⟨front, hfront, hnot, rfl⟩, rfl⟩
    refine ⟨p :: front, by rw [h, hfront, List.cons_append], ?_, rfl⟩
    simp [hp.symm, hnot]

end Closes

/-- The reader of bodies finds the end of each body. -/
theorem closeParenthesis?_eq_some_iff {text body behind : List Char} :
    closeParenthesis? text = some (body, behind) ↔ Closes text body behind := by
  fun_induction closeParenthesis? text generalizing body behind with
  | case1 => simp [Closes.not_nil]
  | case2 rest =>
    have hpieces : pieces (')' :: rest) = .plain ')' :: pieces rest := by simp [pieces]
    rw [Closes.iff_of_pieces_eq_close hpieces]
    simp [eq_comm]
  | case3 =>
    have hpieces : pieces ['\\'] = .lone :: pieces [] := rfl
    rw [Closes.iff_of_pieces_eq_cons hpieces (by simp)]
    simp [Closes.not_nil]
  | case4 c rest ih =>
    have hpieces : pieces ('\\' :: c :: rest) = .pair c :: pieces rest := by simp [pieces]
    rw [Closes.iff_of_pieces_eq_cons hpieces (by simp)]
    simp [Option.map_eq_some_iff, ih, Piece.chars]
  | case5 c rest hclose hlone hpair ih =>
    have hpieces : pieces (c :: rest) = .plain c :: pieces rest := pieces.eq_4 c rest hlone hpair
    have hc : Piece.plain c ≠ .plain ')' := fun h => hclose (Piece.plain.inj h)
    rw [Closes.iff_of_pieces_eq_cons hpieces hc]
    simp [Option.map_eq_some_iff, ih, Piece.chars]

/-- The reader of occurrences takes the longest run of name characters, blank characters and a
body in parentheses. -/
theorem Occurrence.read?_eq_some_iff {text behind : List Char} {o : Occurrence} :
    Occurrence.read? text = some (o, behind) ↔
      o.name ≠ [] ∧ text.takeWhile isNameChar = o.name ∧
        ∃ blanks inside, text.drop o.name.length = blanks ++ '(' :: inside ∧
          (∀ c ∈ blanks, Text.isBlank c = true) ∧ Closes inside o.body behind := by
  have hdrop : text.dropWhile isNameChar = text.drop (text.takeWhile isNameChar).length := by
    have hsplit := congrArg (List.drop (text.takeWhile isNameChar).length)
      (List.takeWhile_append_dropWhile (p := isNameChar) (l := text))
    rwa [List.drop_left] at hsplit
  rw [read?, hdrop]
  constructor
  · intro h
    split at h
    · cases h
    · rename_i hname
      split at h
      · rename_i inside hinside
        simp only [Option.map_eq_some_iff, Prod.exists, Prod.mk.injEq] at h
        obtain ⟨body, behind, hbody, rfl, rfl⟩ := h
        obtain ⟨blanks, hblanks, happend⟩ :=
          Text.exists_append_dropBlank (text.drop (text.takeWhile isNameChar).length)
        rw [hinside] at happend
        exact ⟨hname, rfl, blanks, inside, happend.symm, hblanks,
          closeParenthesis?_eq_some_iff.1 hbody⟩
      · cases h
  · rintro ⟨hne, hname, blanks, inside, hinside, hblanks, hbody⟩
    have hopen : Text.dropBlank (blanks ++ '(' :: inside) = '(' :: inside := by
      rw [Text.dropBlank_append hblanks, Text.dropBlank_cons_of_not (by decide)]
    simp only [hname, if_neg hne, hinside, hopen, closeParenthesis?_eq_some_iff.2 hbody]
    rfl

/-- A character that starts no occurrence is passed over. -/
theorem occurrences_cons_of_not {c : Char} {text : List Char}
    (h : c = '@' → Occurrence.read? text = none) :
    occurrences (c :: text) = occurrences text := by
  rw [occurrences]
  split
  · rename_i hread
    split at hread
    · rename_i hc
      rw [h hc] at hread
      cases hread
    · cases hread
  · rfl

theorem occurrences_cons_of_ne {c : Char} (h : c ≠ '@') (text : List Char) :
    occurrences (c :: text) = occurrences text :=
  occurrences_cons_of_not fun hc => absurd hc h

theorem occurrences_at {text behind : List Char} {o : Occurrence}
    (h : Occurrence.read? text = some (o, behind)) :
    occurrences ('@' :: text) = o :: occurrences behind := by
  rw [occurrences]
  split
  · rename_i hread
    rw [if_pos rfl, h] at hread
    cases hread
    rfl
  · rename_i hread
    rw [if_pos rfl, h] at hread
    cases hread

end DocFacts
