import DocFacts.Proofs.Text.Blank
import DocFacts.Text.Escape

/-!
# Texts that hide nothing

A character between quotation marks can be protected by a backslash.  `guarded` protects those
that need it, and removing the backslashes gives the text back.  A character is *plain* when it
opens and closes nothing for any reader of comments, and *bare* when it separates nothing
either, so that it needs neither marks nor backslashes.
-/

namespace DocFacts.Text

/-- The character is written behind a backslash. -/
def IsGuarded (c : Char) : Prop := c = '"' ∨ c = '\\' ∨ c = ')'

instance (c : Char) : Decidable (IsGuarded c) := inferInstanceAs (Decidable (_ ∨ _ ∨ _))

/-- The text as it stands between quotation marks. -/
def guarded (text : List Char) : List Char :=
  text.flatMap fun c => if IsGuarded c then ['\\', c] else [c]

/-- The character opens and closes nothing, wherever it stands in a comment. -/
def isPlain (c : Char) : Bool :=
  !isBlank c && !(['"', '{', '}', '\\', ')', '*'].contains c)

/-- The character opens, closes and separates nothing. -/
def isBare (c : Char) : Bool := isPlain c && c != ',' && c != '='

/-- There are such characters and no others. -/
structure Bare (text : List Char) : Prop where
  /-- There is a character. -/
  nonempty : text ≠ []
  /-- No character means anything. -/
  bare : ∀ c ∈ text, isBare c = true

/-! ## Classes of characters -/

/-- Of two characters one is in a class and the other is not. -/
theorem ne_of_class {p : Char → Bool} {c d : Char} (hc : p c = true) (hd : p d = false) :
    c ≠ d := by
  rintro rfl
  rw [hc] at hd
  cases hd

/-- A character of a class is none of those that are not in it. -/
theorem not_mem_of_class {p : Char → Bool} {c : Char} {others : List Char} (hc : p c = true)
    (h : others.all (fun d => !p d) = true) : c ∉ others := by
  intro hmem
  have hd : p c = false := by simpa using List.all_eq_true.1 h c hmem
  exact ne_of_class hc hd rfl

theorem isBlank_of_isPlain {c : Char} (h : isPlain c = true) : isBlank c = false := by
  simp only [isPlain, Bool.and_eq_true, Bool.not_eq_true'] at h
  exact h.1

theorem isPlain_of_isBare {c : Char} (h : isBare c = true) : isPlain c = true := by
  simp only [isBare, Bool.and_eq_true] at h
  exact h.1.1

theorem isBlank_of_isBare {c : Char} (h : isBare c = true) : isBlank c = false :=
  isBlank_of_isPlain (isPlain_of_isBare h)

/-! ## Backslashes put in and taken out -/

@[simp] theorem guarded_nil : guarded [] = [] := rfl

theorem guarded_cons_of_isGuarded {c : Char} (h : IsGuarded c) (text : List Char) :
    guarded (c :: text) = '\\' :: c :: guarded text := by
  simp [guarded, h]

theorem guarded_cons_of_not {c : Char} (h : ¬ IsGuarded c) (text : List Char) :
    guarded (c :: text) = c :: guarded text := by
  simp [guarded, h]

theorem ne_backslash_of_not_isGuarded {c : Char} (h : ¬ IsGuarded c) : c ≠ '\\' :=
  fun hc => h (.inr (.inl hc))

/-- Removing the backslashes gives the text back. -/
theorem unescape_guarded (text : List Char) : unescape (guarded text) = text := by
  induction text with
  | nil => rfl
  | cons c text ih =>
    by_cases hc : IsGuarded c
    · rw [guarded_cons_of_isGuarded hc, unescape, ih]
    · have hb := ne_backslash_of_not_isGuarded hc
      rw [guarded_cons_of_not hc, unescape, ih]
      · simp [hb]
      · simp [hb]

/-- A bare text has no backslashes to remove. -/
theorem unescape_eq_of_bare {text : List Char} (h : ∀ c ∈ text, isBare c = true) :
    unescape text = text := by
  induction text with
  | nil => rfl
  | cons c text ih =>
    obtain ⟨hc, htext⟩ := List.forall_mem_cons.1 h
    have hb : c ≠ '\\' := ne_of_class hc (by decide)
    rw [unescape, ih htext]
    · simp [hb]
    · simp [hb]

theorem trim_eq_of_bare {text : List Char} (h : ∀ c ∈ text, isBare c = true) :
    trim text = text :=
  trim_eq (fun c hc => isBlank_of_isBare (h c (List.mem_of_mem_head? hc)))
    (fun c hc => isBlank_of_isBare (h c (List.mem_of_getLast? hc)))

end DocFacts.Text
