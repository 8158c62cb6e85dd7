import DocFacts.Decimal.Literal

/-!
# The grammar of numeric literals

What a numeric literal is can be told without its reader: an optional sign, digits with an optional
fraction or a fraction alone, and an optional exponent.  `Literal.Spells` says so, part by part, and
the reader takes exactly the texts of this form apart (`Literal.read?_eq_some_iff`).  No part can be
longer or shorter than it is, because what follows it does not start like it.

The literals of integers are those with neither a point nor an exponent.  They are a sign and
digits, and stand for the value of the digits (`IntegerText`).
-/

namespace DocFacts.Decimal

/-- The text of a sign that may be missing, and whether it is a minus. -/
inductive SignText : List Char → Bool → Prop where
  /-- No sign. -/
  | none : SignText [] false
  /-- A plus. -/
  | plus : SignText ['+'] false
  /-- A minus. -/
  | minus : SignText ['-'] true

/-- There are ASCII digits and nothing else. -/
def AllDigits (text : List Char) : Prop := ∀ c ∈ text, c.isDigit = true

/-- The text of an exponent that may be missing, and its sign and digits. -/
inductive ExponentText : List Char → Option (Bool × List Char) → Prop where
  /-- No exponent. -/
  | none : ExponentText [] none
  /-- A mark, a sign and one digit or more. -/
  | some {mark : Char} {sign ds : List Char} {negative : Bool} (hmark : mark = 'e' ∨ mark = 'E')
      (hsign : SignText sign negative) (hne : ds ≠ []) (hds : AllDigits ds) :
      ExponentText (mark :: (sign ++ ds)) (some (negative, ds))

/-- A literal and a text that spells it. -/
inductive Literal.Spells : Literal → List Char → Prop where
  /-- Digits without a fraction. -/
  | whole {sign whole exp : List Char} {negative : Bool} {exponent : Option (Bool × List Char)}
      (hsign : SignText sign negative) (hne : whole ≠ []) (hwhole : AllDigits whole)
      (hexp : ExponentText exp exponent) :
      Spells ⟨negative, whole, none, exponent⟩ (sign ++ (whole ++ exp))
  /-- Digits with a fraction, which may be empty, or a fraction alone, which may not. -/
  | point {sign whole fraction exp : List Char} {negative : Bool}
      {exponent : Option (Bool × List Char)} (hsign : SignText sign negative)
      (hne : whole ≠ [] ∨ fraction ≠ []) (hwhole : AllDigits whole) (hfraction : AllDigits fraction)
      (hexp : ExponentText exp exponent) :
      Spells ⟨negative, whole, some fraction, exponent⟩
        (sign ++ (whole ++ '.' :: (fraction ++ exp)))

/-- The text is a sign that may be missing and one digit or more, and the number is the value of
the digits with that sign. -/
def IntegerText (text : List Char) (n : Int) : Prop :=
  ∃ sign negative ds, SignText sign negative ∧ ds ≠ [] ∧ AllDigits ds ∧ text = sign ++ ds ∧
    n = if negative then -(Nat.ofDigitChars 10 ds 0 : Int) else Nat.ofDigitChars 10 ds 0

variable {text sign ds rest : List Char} {negative : Bool}

/-! ## Parts -/

/-- What follows a sign starts with no sign. -/
def Unsigned (rest : List Char) : Prop := ∀ c ∈ rest.head?, c ≠ '-' ∧ c ≠ '+'

theorem readSign_of_unsigned (h : Unsigned rest) : readSign rest = (false, rest) := by
  cases rest with
  | nil => rfl
  | cons c rest =>
    obtain ⟨hminus, hplus⟩ := h c rfl
    rw [readSign]
    · intro rest heq
      exact hminus (List.cons.inj heq).1
    · intro rest heq
      exact hplus (List.cons.inj heq).1

theorem SignText.readSign_append (h : SignText sign negative) (hrest : Unsigned rest) :
    readSign (sign ++ rest) = (negative, rest) := by
  cases h with
  | none => exact readSign_of_unsigned hrest
  | plus => rfl
  | minus => rfl

/-- Whatever is read as a sign is one. -/
theorem exists_signText (h : readSign text = (negative, rest)) :
    ∃ sign, SignText sign negative ∧ text = sign ++ rest := by
  unfold readSign at h
  split at h
  · cases h
    exact ⟨['-'], .minus, rfl⟩
  · cases h
    exact ⟨['+'], .plus, rfl⟩
  · cases h
    exact ⟨[], .none, rfl⟩

theorem unsigned_append_of_digits (hne : ds ≠ []) (hds : AllDigits ds) (rest : List Char) :
    Unsigned (ds ++ rest) := by
  intro c hc
  cases ds with
  | nil => exact absurd rfl hne
  | cons d ds =>
    obtain rfl : d = c := by simpa using hc
    have hdigit := hds d List.mem_cons_self
    constructor
    · rintro rfl
      cases hdigit
    · rintro rfl
      cases hdigit

/-- Digits are read up to what is none. -/
theorem digits_append (hds : AllDigits ds) (hrest : ∀ c ∈ rest.head?, c.isDigit = false) :
    (ds ++ rest).takeWhile Char.isDigit = ds ∧ (ds ++ rest).dropWhile Char.isDigit = rest := by
  rw [List.takeWhile_append_of_pos hds, List.dropWhile_append_of_pos hds]
  cases rest with
  | nil => simp
  | cons c rest => simp [hrest c rfl]

theorem allDigits_takeWhile (text : List Char) : AllDigits (text.takeWhile Char.isDigit) :=
  List.all_eq_true.1 List.all_takeWhile

/-- An exponent does not start with a digit. -/
theorem ExponentText.head?_isDigit {exponent : Option (Bool × List Char)}
    (h : ExponentText text exponent) : ∀ c ∈ text.head?, c.isDigit = false := by
  intro c hc
  cases h with
  | none => cases hc
  | some hmark _ _ _ =>
    cases hc
    rcases hmark with rfl | rfl
    · rfl
    · rfl

theorem readExponent?_eq_some_iff {exponent : Option (Bool × List Char)} :
    readExponent? text = some exponent ↔ ExponentText text exponent := by
  constructor
  · intro h
    cases text with
    | nil =>
      cases h
      exact .none
    | cons c rest =>
      obtain ⟨sign, hsign, hrest⟩ := exists_signText (Prod.eta (readSign rest)).symm
      simp only [readExponent?] at h
      generalize readSign rest = parts at h hsign hrest
      split at h
      · rename_i hmark
        split at h
        · rename_i hds
          obtain ⟨hne, hall⟩ := hds
          cases h
          rw [hrest]
          exact .some hmark hsign hne (List.all_eq_true.1 hall)
        · cases h
      · cases h
  · intro h
    cases h with
    | none => rfl
    | @some mark sign ds negative hmark hsign hne hds =>
      have hunsigned := unsigned_append_of_digits hne hds []
      rw [List.append_nil] at hunsigned
      simp only [readExponent?, if_pos hmark, hsign.readSign_append hunsigned]
      exact if_pos ⟨hne, List.all_eq_true.2 hds⟩

/-! ## Literals -/

namespace Literal

variable {l : Literal}

theorem Spells.read?_eq (h : l.Spells text) : read? text = some l := by
  cases h with
  | @whole sign whole exp negative exponent hsign hne hwhole hexp =>
    have hread := hsign.readSign_append (unsigned_append_of_digits hne hwhole exp)
    obtain ⟨htake, hdrop⟩ := digits_append hwhole hexp.head?_isDigit
    have hpoint : ∀ rest, exp ≠ '.' :: rest := by
      rintro rest rfl
      cases hexp with
      | some hmark _ _ _ => simp at hmark
    simp only [read?, hread, htake, hdrop]
    rw [if_neg hne, readExponent?_eq_some_iff.2 hexp]
    rfl
  | @point sign whole fraction exp negative exponent hsign hne hwhole hfraction hexp =>
    have hunsigned : Unsigned (whole ++ '.' :: (fraction ++ exp)) := by
      cases whole with
      | nil =>
        intro c hc
        cases hc
        decide
      | cons d whole => exact unsigned_append_of_digits (by simp) hwhole _
    have hpoint : ∀ c ∈ ('.' :: (fraction ++ exp)).head?, c.isDigit = false := by
      intro c hc
      cases hc
      rfl
    obtain ⟨htake, hdrop⟩ := digits_append hwhole hpoint
    obtain ⟨htake', hdrop'⟩ := digits_append hfraction hexp.head?_isDigit
    simp only [read?, hsign.readSign_append hunsigned, htake, hdrop, htake', hdrop',
      readExponent?_eq_some_iff.2 hexp]
    rw [if_neg (Decidable.not_and_iff_or_not.2 hne)]
    rfl

theorem spells_of_read? (h : read? text = some l) : l.Spells text := by
  obtain ⟨sign, hsign, htext⟩ := exists_signText (Prod.eta (readSign text)).symm
  have hsplit : (readSign text).2 = (readSign text).2.takeWhile Char.isDigit ++
      (readSign text).2.dropWhile Char.isDigit := List.takeWhile_append_dropWhile.symm
  have hwhole := allDigits_takeWhile (readSign text).2
  simp only [read?] at h
  generalize (readSign text).1 = negative at hsign h
  generalize (readSign text).2 = body at hsplit htext hwhole h
  generalize body.takeWhile Char.isDigit = whole at hsplit hwhole h
  rw [htext, hsplit]
  split at h
  · rename_i rest hrest
    split at h
    · cases h
    · rename_i hne
      obtain ⟨exponent, hexp, rfl⟩ := Option.map_eq_some_iff.1 h
      have hfraction : rest = rest.takeWhile Char.isDigit ++ rest.dropWhile Char.isDigit :=
        List.takeWhile_append_dropWhile.symm
      rw [hrest]
      conv => arg 2; rw [hfraction]
      exact .point hsign (Decidable.not_and_iff_or_not.1 hne) hwhole (allDigits_takeWhile rest)
        (readExponent?_eq_some_iff.1 hexp)
  · split at h
    · cases h
    · rename_i hne
      obtain ⟨exponent, hexp, rfl⟩ := Option.map_eq_some_iff.1 h
      exact .whole hsign hne hwhole (readExponent?_eq_some_iff.1 hexp)

/-- **The reader of literals** reads exactly what the grammar spells. -/
theorem read?_eq_some_iff : read? text = some l ↔ l.Spells text :=
  ⟨spells_of_read?, Spells.read?_eq⟩

theorem read?_eq_none_iff : read? text = none ↔ ∀ l, ¬ Spells l text := by
  simp only [Option.eq_none_iff_forall_ne_some, ne_eq, read?_eq_some_iff]

/-- A text spells one literal only. -/
theorem Spells.unique {l' : Literal} (h : l.Spells text) (h' : l'.Spells text) : l = l' :=
  Option.some.inj (h.read?_eq.symm.trans h'.read?_eq)

/-- There is a digit in every literal. -/
theorem Spells.exists_digit (h : l.Spells text) : ∃ c ∈ text, c.isDigit = true := by
  have hfirst {ds front back : List Char} (hne : ds ≠ []) (hds : AllDigits ds) :
      ∃ c ∈ front ++ (ds ++ back), c.isDigit = true := by
    obtain ⟨c, more, rfl⟩ := List.exists_cons_of_ne_nil hne
    exact ⟨c, by simp, hds c List.mem_cons_self⟩
  cases h with
  | whole hsign hne hwhole hexp => exact hfirst hne hwhole
  | @point sign whole fraction exp negative exponent hsign hne hwhole hfraction hexp =>
    rcases hne with hne | hne
    · exact hfirst hne hwhole
    · have hback : sign ++ (whole ++ '.' :: (fraction ++ exp)) =
          (sign ++ (whole ++ ['.'])) ++ (fraction ++ exp) := by simp
      rw [hback]
      exact hfirst hne hfraction

/-! ## Integers -/

theorem natOfDigits_eq (ds : List Char) : natOfDigits ds = Nat.ofDigitChars 10 ds 0 :=
  Nat.ofDigitChars_eq_foldl.symm

/-- The literals of integers are a sign and digits. -/
theorem Spells.toInt?_eq_some_iff (h : l.Spells text) {n : Int} :
    l.toInt? = some n ↔ IntegerText text n := by
  constructor
  · intro hint
    cases h with
    | @whole sign whole exp negative exponent hsign hne hwhole hexp =>
      cases hexp with
      | none =>
        refine ⟨sign, negative, whole, hsign, hne, hwhole, by rw [List.append_nil], ?_⟩
        rw [← natOfDigits_eq]
        exact (Option.some.inj hint).symm
      | some _ _ _ _ => cases hint
    | point _ _ _ _ _ => cases hint
  · rintro ⟨sign, negative, ds, hsign, hne, hds, rfl, rfl⟩
    have hspells : Spells ⟨negative, ds, none, none⟩ (sign ++ (ds ++ [])) :=
      .whole hsign hne hds .none
    rw [List.append_nil] at hspells
    rw [h.unique hspells, ← natOfDigits_eq]
    rfl

end Literal

/-- The text of an integer is a literal. -/
theorem IntegerText.exists_spells {n : Int} (h : IntegerText text n) :
    ∃ l, Literal.Spells l text ∧ l.toInt? = some n := by
  obtain ⟨sign, negative, ds, hsign, hne, hds, htext, hn⟩ := id h
  have hspells : Literal.Spells ⟨negative, ds, none, none⟩ (sign ++ (ds ++ [])) :=
    .whole hsign hne hds .none
  rw [List.append_nil, ← htext] at hspells
  exact ⟨_, hspells, hspells.toInt?_eq_some_iff.2 h⟩

/-- A text is that of one integer at most. -/
theorem IntegerText.unique {n n' : Int} (h : IntegerText text n) (h' : IntegerText text n') :
    n = n' := by
  obtain ⟨l, hspells, hint⟩ := h.exists_spells
  rw [hspells.toInt?_eq_some_iff.2 h'] at hint
  exact (Option.some.inj hint).symm

end DocFacts.Decimal
