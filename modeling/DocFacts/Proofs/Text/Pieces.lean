import DocFacts.Proofs.Text.Backslash

/-!
# Backslashes read forward

The forward reading of a text cuts it into pairs and single characters.  A character is *protected*
when it is the second of a pair (`IsProtected`).  Looking back from a character and counting the
backslashes in front of it tells the same (`isEscaped_take_iff`), and behind the last character it
tells whether a backslash is left over that protects nothing (`isEscaped_reverse_iff`).  Both are
inductions on the forward reading: a pair in front of a position changes nothing for it, since two
backslashes are an even number of them and any other character ends the count.
-/

namespace DocFacts.Text

/-! ## Pieces of a text -/

theorem pieces_cons_of_ne {c : Char} (hc : c ≠ '\\') (rest : List Char) :
    pieces (c :: rest) = .plain c :: pieces rest := by
  simp [pieces, hc]

theorem pieces_pair (c : Char) (rest : List Char) :
    pieces ('\\' :: c :: rest) = .pair c :: pieces rest := by
  simp [pieces]

/-- A character that is neither a last backslash nor the first of a pair is no backslash. -/
theorem ne_backslash_of_cases {c : Char} {rest : List Char} (hlone : c = '\\' → rest = [] → False)
    (hpair : ∀ d rest', c = '\\' → rest = d :: rest' → False) : c ≠ '\\' := by
  intro hc
  cases rest with
  | nil => exact hlone hc rfl
  | cons d rest => exact hpair d rest hc rfl

theorem pieces_inj {text text' : List Char} (h : pieces text = pieces text') : text = text' := by
  rw [← flatMap_chars_pieces text, h, flatMap_chars_pieces]

theorem pieces_append {front : List Char} (h : .lone ∉ pieces front) (back : List Char) :
    pieces (front ++ back) = pieces front ++ pieces back := by
  fun_induction pieces front with
  | case1 => rfl
  | case2 => simp at h
  | case3 c rest ih =>
    simp only [List.mem_cons, not_or] at h
    simp [pieces, ih h.2]
  | case4 c rest hlone hpair ih =>
    have hc : c ≠ '\\' := ne_backslash_of_cases hlone hpair
    simp only [List.mem_cons, not_or] at h
    rw [List.cons_append, pieces_cons_of_ne hc, ih h.2, List.cons_append]

/-- Without a backslash that protects nothing, every piece stands for one character. -/
theorem map_meaning_pieces {text : List Char} (h : .lone ∉ pieces text) :
    (pieces text).map Piece.meaning = (unescape text).map fun c => [c] := by
  rw [unescape_eq_flatMap_meaning]
  generalize pieces text = all at h ⊢
  induction all with
  | nil => rfl
  | cons piece rest ih =>
    obtain ⟨hpiece, hrest⟩ := List.ne_and_not_mem_of_not_mem_cons h
    rw [List.map_cons, ih hrest, List.flatMap_cons, List.map_append]
    cases piece with
    | plain c => rfl
    | pair c => rfl
    | lone => exact absurd rfl hpiece

/-! ## Protected characters -/

/-- The character at a position is the second of a pair. -/
def IsProtected (text : List Char) (p : Nat) : Prop :=
  ∃ before c after, pieces text = before ++ .pair c :: after ∧
    (before.flatMap Piece.chars).length + 1 = p

section Protected

variable {text rest : List Char} {c : Char} {p : Nat}

theorem not_isProtected_zero : ¬ IsProtected text 0 := by
  rintro ⟨before, c, after, -, hlength⟩
  cases hlength

/-- What is protected behind the first piece is protected by the reading of the rest. -/
theorem isProtected_iff {piece : Piece} (h : pieces text = piece :: pieces rest) :
    IsProtected text p ↔
      (p = 1 ∧ ∃ c, piece = .pair c) ∨ ∃ q, IsProtected rest q ∧ piece.chars.length + q = p := by
  constructor
  · rintro ⟨before, c, after, hpieces, rfl⟩
    rw [h] at hpieces
    cases before with
    | nil =>
      obtain ⟨rfl, -⟩ := List.cons.inj hpieces
      exact .inl ⟨rfl, c, rfl⟩
    | cons first before =>
      obtain ⟨rfl, hrest⟩ := List.cons.inj hpieces
      refine .inr ⟨_, ⟨before, c, after, hrest, rfl⟩, ?_⟩
      rw [List.flatMap_cons, List.length_append, Nat.add_assoc]
  · rintro (⟨rfl, c, rfl⟩ | ⟨q, ⟨before, c, after, hrest, rfl⟩, rfl⟩)
    · exact ⟨[], c, pieces rest, h, rfl⟩
    · refine ⟨piece :: before, c, after, ?_, ?_⟩
      · rw [h, hrest, List.cons_append]
      · rw [List.flatMap_cons, List.length_append, Nat.add_assoc]

theorem isProtected_pair_one : IsProtected ('\\' :: c :: rest) 1 :=
  ⟨[], c, pieces rest, pieces_pair c rest, rfl⟩

theorem isProtected_pair_add_two :
    IsProtected ('\\' :: c :: rest) (p + 2) ↔ IsProtected rest p := by
  rw [isProtected_iff (pieces_pair c rest)]
  constructor
  · rintro (⟨hp, -⟩ | ⟨q, hq, hp⟩)
    · omega
    · obtain rfl : q = p := by
        simp only [Piece.chars, List.length_cons, List.length_nil] at hp
        omega
      exact hq
  · intro h
    exact .inr ⟨p, h, Nat.add_comm 2 p⟩

theorem isProtected_cons_add_one (hc : c ≠ '\\') :
    IsProtected (c :: rest) (p + 1) ↔ IsProtected rest p := by
  rw [isProtected_iff (pieces_cons_of_ne hc rest)]
  constructor
  · rintro (⟨-, d, hd⟩ | ⟨q, hq, hp⟩)
    · cases hd
    · obtain rfl : q = p := by
        simp only [Piece.chars, List.length_cons, List.length_nil] at hp
        omega
      exact hq
  · intro h
    exact .inr ⟨p, h, Nat.add_comm 1 p⟩

/-! ## Looking back -/

/-- A pair escapes nothing behind it. -/
theorem isEscaped_append_pair (past : List Char) (c : Char) :
    isEscaped (past ++ [c, '\\']) = isEscaped past := by
  refine isEscaped_append ?_ past
  by_cases hc : c = '\\'
  · subst hc
    rfl
  · exact isEscaped_cons_of_ne hc _

/-- **Looking back from a character tells whether it is protected.** -/
theorem isEscaped_take_iff (hp : p < text.length) :
    isEscaped (text.take p).reverse = true ↔ IsProtected text p := by
  fun_induction pieces text generalizing p with
  | case1 => cases hp
  | case2 =>
    obtain rfl : p = 0 := Nat.lt_one_iff.1 hp
    exact iff_of_false Bool.false_ne_true not_isProtected_zero
  | case3 c rest ih =>
    cases p with
    | zero => exact iff_of_false Bool.false_ne_true not_isProtected_zero
    | succ p =>
      cases p with
      | zero => exact iff_of_true rfl isProtected_pair_one
      | succ p =>
        have hp' : p < rest.length := Nat.lt_of_succ_lt_succ (Nat.lt_of_succ_lt_succ hp)
        rw [isProtected_pair_add_two, ← ih hp', List.take_succ_cons, List.take_succ_cons,
          List.reverse_cons, List.reverse_cons, List.append_assoc, List.singleton_append,
          isEscaped_append_pair]
  | case4 c rest hlone hpair ih =>
    have hc : c ≠ '\\' := ne_backslash_of_cases hlone hpair
    cases p with
    | zero => exact iff_of_false Bool.false_ne_true not_isProtected_zero
    | succ p =>
      rw [isProtected_cons_add_one hc, ← ih (Nat.lt_of_succ_lt_succ hp), List.take_succ_cons,
        List.reverse_cons, isEscaped_append_cons hc]

/-- Looking back from the end tells whether a backslash is left that protects nothing. -/
theorem isEscaped_reverse_iff : isEscaped text.reverse = true ↔ .lone ∈ pieces text := by
  fun_induction pieces text with
  | case1 => simp
  | case2 => exact iff_of_true rfl List.mem_cons_self
  | case3 c rest ih =>
    rw [List.reverse_cons, List.reverse_cons, List.append_assoc, List.singleton_append,
      isEscaped_append_pair, ih, List.mem_cons]
    simp
  | case4 c rest hlone hpair ih =>
    have hc : c ≠ '\\' := ne_backslash_of_cases hlone hpair
    rw [List.reverse_cons, isEscaped_append_cons hc, ih, List.mem_cons]
    simp

end Protected

end DocFacts.Text
