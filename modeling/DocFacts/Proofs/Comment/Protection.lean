import DocFacts.Proofs.Arguments.Pass
import DocFacts.Proofs.Comment.Occurrence

/-!
# One reading of backslashes

Three readers have to know what a backslash protects.  The reader of arguments looks back from a
quotation mark and counts.  The reader of occurrences and the removal of backslashes go forward in
pairs, each from where its own text starts.  They agree on every character (`backslash_readings`):
counting back tells which characters are protected in the forward reading, a body ends at the first
closing parenthesis that is not protected, and removing backslashes keeps one character of each
piece.  What stands between quotation marks leaves no backslash over, and a slice that starts behind
a character that is no backslash is read as it is in the whole text.
-/

namespace DocFacts

open Text (Piece pieces IsProtected unescape isEscaped)

/-- A text is a body, a closing parenthesis that is not protected, and what stands behind it.  In
the body each closing parenthesis is protected. -/
def EndsAtFirst (text body behind : List Char) : Prop :=
  text = body ++ ')' :: behind ∧ ¬ IsProtected text body.length ∧
    ∀ p < body.length, text[p]? = some ')' → IsProtected text p

namespace EndsAtFirst

variable {text rest body behind : List Char} {c : Char}

theorem not_nil : ¬ EndsAtFirst [] body behind := by
  rintro ⟨htext, -, -⟩
  cases body with
  | nil => cases htext
  | cons c body => cases htext

theorem close_iff : EndsAtFirst (')' :: rest) body behind ↔ body = [] ∧ behind = rest := by
  constructor
  · rintro ⟨htext, -, hfirst⟩
    cases body with
    | nil => exact ⟨rfl, (List.cons.inj htext).2.symm⟩
    | cons c body =>
      exact absurd (hfirst 0 (Nat.succ_pos _) rfl) Text.not_isProtected_zero
  · rintro ⟨rfl, rfl⟩
    exact ⟨rfl, Text.not_isProtected_zero, fun p hp => absurd hp (Nat.not_lt_zero p)⟩

theorem not_lone : ¬ EndsAtFirst ['\\'] body behind := by
  rintro ⟨htext, -, -⟩
  cases body with
  | nil => cases htext
  | cons c body =>
    cases body with
    | nil => cases htext
    | cons d body => cases htext

theorem cons_iff (hc : c ≠ '\\') (hclose : c ≠ ')') : EndsAtFirst (c :: rest) body behind ↔
    ∃ body', EndsAtFirst rest body' behind ∧ c :: body' = body := by
  constructor
  · rintro ⟨htext, hend, hfirst⟩
    cases body with
    | nil => exact absurd (List.cons.inj htext).1 hclose
    | cons d body =>
      obtain ⟨rfl, hrest⟩ := List.cons.inj htext
      refine ⟨body, ⟨hrest, fun h => hend ((Text.isProtected_cons_add_one hc).2 h), ?_⟩, rfl⟩
      intro p hp hat
      exact (Text.isProtected_cons_add_one hc).1 (hfirst (p + 1) (Nat.succ_lt_succ hp) hat)
  · rintro ⟨body', ⟨hrest, hend, hfirst⟩, rfl⟩
    refine ⟨by rw [hrest, List.cons_append],
      fun h => hend ((Text.isProtected_cons_add_one hc).1 h), ?_⟩
    intro p hp hat
    cases p with
    | zero => exact absurd (Option.some.inj hat) hclose
    | succ p =>
      exact (Text.isProtected_cons_add_one hc).2 (hfirst p (Nat.lt_of_succ_lt_succ hp) hat)

theorem pair_iff : EndsAtFirst ('\\' :: c :: rest) body behind ↔
    ∃ body', EndsAtFirst rest body' behind ∧ '\\' :: c :: body' = body := by
  constructor
  · rintro ⟨htext, hend, hfirst⟩
    cases body with
    | nil => cases htext
    | cons d body =>
      obtain ⟨rfl, htail⟩ := List.cons.inj htext
      cases body with
      | nil => exact absurd Text.isProtected_pair_one hend
      | cons d body =>
        obtain ⟨rfl, hrest⟩ := List.cons.inj htail
        refine ⟨body, ⟨hrest, fun h => hend (Text.isProtected_pair_add_two.2 h), ?_⟩, rfl⟩
        intro p hp hat
        exact Text.isProtected_pair_add_two.1
          (hfirst (p + 2) (Nat.succ_lt_succ (Nat.succ_lt_succ hp)) hat)
  · rintro ⟨body', ⟨hrest, hend, hfirst⟩, rfl⟩
    refine ⟨by rw [hrest, List.cons_append, List.cons_append],
      fun h => hend (Text.isProtected_pair_add_two.1 h), ?_⟩
    intro p hp hat
    cases p with
    | zero => cases hat
    | succ p =>
      cases p with
      | zero => exact Text.isProtected_pair_one
      | succ p =>
        have hp' : p < body'.length := Nat.lt_of_succ_lt_succ (Nat.lt_of_succ_lt_succ hp)
        exact Text.isProtected_pair_add_two.2 (hfirst p hp' hat)

end EndsAtFirst

/-- The reader of bodies ends at the first closing parenthesis that is not protected. -/
theorem closeParenthesis?_eq_some_iff_endsAtFirst {text body behind : List Char} :
    closeParenthesis? text = some (body, behind) ↔ EndsAtFirst text body behind := by
  fun_induction closeParenthesis? text generalizing body behind with
  | case1 => simp [EndsAtFirst.not_nil]
  | case2 rest =>
    rw [EndsAtFirst.close_iff]
    simp [eq_comm]
  | case3 => simp [EndsAtFirst.not_lone]
  | case4 c rest ih =>
    rw [EndsAtFirst.pair_iff]
    simp [Option.map_eq_some_iff, ih]
  | case5 c rest hclose hlone hpair ih =>
    rw [EndsAtFirst.cons_iff (Text.ne_backslash_of_cases hlone hpair) hclose]
    simp [Option.map_eq_some_iff, ih]

/-- What stands between quotation marks leaves no backslash over. -/
theorem Quotable.lone_not_mem {body : List Char} (h : Quotable [] body) : .lone ∉ pieces body := by
  intro hlone
  have hescaped := Text.isEscaped_reverse_iff.2 hlone
  have hnot : isEscaped (body.reverse ++ []) = false := isEscaped_of_quotable h rfl
  rw [List.append_nil, hescaped] at hnot
  cases hnot

/-- Behind a character that is no backslash, a position is escaped in a slice if it is in the
text. -/
theorem isEscaped_slice {d : Char} (hd : d ≠ '\\') (front back : List Char) {slice : List Char}
    {p : Nat} (hp : p ≤ slice.length) :
    isEscaped ((front ++ d :: (slice ++ back)).take (front.length + 1 + p)).reverse =
      isEscaped (slice.take p).reverse := by
  have htake : (front ++ d :: (slice ++ back)).take (front.length + 1 + p) =
      front ++ d :: slice.take p := by
    rw [Nat.add_assoc, List.take_length_add_append, Nat.add_comm 1 p, List.take_succ_cons,
      List.take_append_of_le_length hp]
  rw [htake, List.reverse_append, List.reverse_cons, List.append_assoc, List.singleton_append,
    Text.isEscaped_append_cons hd]

/-- **The readings of backslashes agree.**  Looking back from a character tells whether it is the
second of a pair in the forward reading, and from the end whether a backslash is left over.  The
readers of bodies and the removal of backslashes use the forward reading.  A quoted string leaves no
backslash over, so each of its pieces stands for one character.  A slice behind a brace, a comma, an
equals sign or a quotation mark is read as it is in the whole text. -/
theorem backslash_readings (text : List Char) :
    (∀ p < text.length, isEscaped (text.take p).reverse = true ↔ IsProtected text p) ∧
    (isEscaped text.reverse = true ↔ .lone ∈ pieces text) ∧
    (∀ body behind, closeParenthesis? text = some (body, behind) ↔ EndsAtFirst text body behind) ∧
    unescape text = (pieces text).flatMap Piece.meaning ∧
    (∀ inside behind, closeQuote [] text = some (inside, behind) →
      .lone ∉ pieces inside.reverse ∧
        (pieces inside.reverse).map Piece.meaning = (unescape inside.reverse).map fun c => [c]) ∧
    ∀ front d slice back, text = front ++ d :: (slice ++ back) → d ∈ ['{', ',', '=', '"'] →
      ∀ p ≤ slice.length, isEscaped (slice.take p).reverse =
        isEscaped (text.take (front.length + 1 + p)).reverse := by
  refine ⟨fun p hp => Text.isEscaped_take_iff hp, Text.isEscaped_reverse_iff,
    fun _ _ => closeParenthesis?_eq_some_iff_endsAtFirst, Text.unescape_eq_flatMap_meaning text,
    ?_, ?_⟩
  · intro inside behind hclose
    obtain ⟨body, -, rfl, hbody⟩ := closeQuote_eq_some_iff.1 hclose
    rw [List.append_nil, List.reverse_reverse]
    exact ⟨hbody.lone_not_mem, Text.map_meaning_pieces hbody.lone_not_mem⟩
  · rintro front d slice back rfl hd p hp
    have hne : d ≠ '\\' := by
      rintro rfl
      exact absurd hd (by decide)
    exact (isEscaped_slice hne front back hp).symm

/-- What stands behind an opening quotation mark: a string with a pair in front of an escaped mark,
and an escaped parenthesis. -/
def backslashText : List Char :=
  ['a', '\\', '\\', '\\', '"', '"', ',', 'y', '\\', ')', 'z', ')', 'w']

/-- The readings of that text. -/
theorem backslash_readings_backslashText :
    (4 < backslashText.length ∧ IsProtected backslashText 4) ∧
    EndsAtFirst backslashText (backslashText.take 11) ['w'] ∧
    (closeQuote [] backslashText = some (['"', '\\', '\\', '\\', 'a'], backslashText.drop 6) ∧
      .lone ∉ pieces ['a', '\\', '\\', '\\', '"']) ∧
    isEscaped (['y', '\\', ')', 'z'].take 2).reverse =
      isEscaped (backslashText.take (6 + 1 + 2)).reverse := by
  obtain ⟨hback, -, hclose, -, hquote, hslice⟩ := backslash_readings backslashText
  have hclosed :
      closeQuote [] backslashText = some (['"', '\\', '\\', '\\', 'a'], backslashText.drop 6) := by
    decide +kernel
  refine ⟨⟨by decide, (hback 4 (by decide)).1 (by decide)⟩, (hclose _ _).1 (by decide +kernel),
    ⟨hclosed, (hquote _ _ hclosed).1⟩, ?_⟩
  exact hslice (backslashText.take 6) ',' _ [')', 'w'] rfl (by decide) 2 (by decide)

end DocFacts
