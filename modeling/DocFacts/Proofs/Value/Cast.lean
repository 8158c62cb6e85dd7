import DocFacts.Proofs.Decimal.Grammar
import DocFacts.Proofs.Decimal.Integer
import DocFacts.Value.Json
import Mathlib.Algebra.Ring.Int.Defs
import Mathlib.Data.List.Forall2

/-!
# The type of a text

Text stands for a truth value, an integer, a floating-point number or a string, and `Typed` tells
by the grammar of words and numbers which of them.  The kinds are told apart in this order: a word
is no number, an integer that 64 bits hold is no floating-point number, and a string is what is
left.  So no text that spells a number stays a string, and no text without a digit becomes a number.

Every text has its type (`typed_ofText`), and so has what is cast, quoted or not (`cast_typed`).
-/

namespace DocFacts

/-! ## Letters in upper and lower case -/

section Letters

variable {c w : Char}

theorem toNat_toLower (c : Char) :
    c.toLower.toNat = if 65 ≤ c.toNat ∧ c.toNat ≤ 90 then c.toNat + 32 else c.toNat := by
  have hiff : (c.val ≥ 'A'.val ∧ c.val ≤ 'Z'.val) ↔ 65 ≤ c.toNat ∧ c.toNat ≤ 90 := Iff.rfl
  delta Char.toLower
  split
  · rename_i h
    obtain ⟨hlow, hhigh⟩ := hiff.1 h
    rw [if_pos ⟨hlow, hhigh⟩]
    show (c.val + 32).toNat = c.val.toNat + 32
    rw [UInt32.toNat_add]
    exact Nat.mod_eq_of_lt (Nat.lt_of_le_of_lt (Nat.add_le_add_right hhigh _) (by decide))
  · rename_i h
    rw [if_neg (mt hiff.2 h)]

theorem toNat_toUpper (c : Char) :
    c.toUpper.toNat = if 97 ≤ c.toNat ∧ c.toNat ≤ 122 then c.toNat - 32 else c.toNat := by
  have hiff : ('a'.val ≤ c.val ∧ c.val ≤ 'z'.val) ↔ 97 ≤ c.toNat ∧ c.toNat ≤ 122 := Iff.rfl
  delta Char.toUpper
  split
  · rename_i h
    obtain ⟨hlow, hhigh⟩ := hiff.1 h
    have hshift : ('A'.val - 'a'.val).toNat = 2 ^ 32 - 32 := by decide
    rw [if_pos ⟨hlow, hhigh⟩]
    show (c.val + ('A'.val - 'a'.val)).toNat = c.val.toNat - 32
    rw [UInt32.toNat_add, hshift]
    have hlow : 97 ≤ c.val.toNat := hlow
    have hhigh : c.val.toNat ≤ 122 := hhigh
    omega
  · rename_i h
    rw [if_neg (mt hiff.2 h)]

/-- Two characters have a letter as their lower case: the letter, and the letter in upper case. -/
theorem toLower_eq_iff (h : w.isLower = true) : c.toLower = w ↔ c = w ∨ c = w.toUpper := by
  obtain ⟨hlow, hhigh⟩ := Bool.and_eq_true_iff.1 h
  have hw : 97 ≤ w.toNat ∧ w.toNat ≤ 122 := ⟨of_decide_eq_true hlow, of_decide_eq_true hhigh⟩
  rw [← Char.toNat_inj, ← Char.toNat_inj, ← Char.toNat_inj, toNat_toLower, toNat_toUpper, if_pos hw]
  split
  · omega
  · omega

end Letters

namespace Value

open Decimal (IntegerText Literal)

/-! ## Words -/

/-- The text is the word of a truth value with any of its letters in upper case. -/
def TruthText (text : List Char) (b : Bool) : Prop :=
  List.Forall₂ (fun c w => c = w ∨ c = w.toUpper) text (if b then "true" else "false").toList

theorem isWord_iff {word text : List Char} (hword : ∀ w ∈ word, w.isLower = true) :
    isWord word text = true ↔ List.Forall₂ (fun c w => c = w ∨ c = w.toUpper) text word := by
  rw [isWord, beq_iff_eq]
  induction text generalizing word with
  | nil =>
    rw [List.map_nil, List.forall₂_nil_left_iff]
    exact eq_comm
  | cons c text ih =>
    cases word with
    | nil => simp
    | cons w word =>
      obtain ⟨hw, hword⟩ := List.forall_mem_cons.1 hword
      rw [List.map_cons, List.cons.injEq, List.forall₂_cons, toLower_eq_iff hw, ih hword]

variable {text : List Char} {b b' : Bool}

theorem isWord_true_iff : isWord ['t', 'r', 'u', 'e'] text = true ↔ TruthText text true :=
  isWord_iff (List.all_eq_true.1 rfl)

theorem isWord_false_iff : isWord ['f', 'a', 'l', 's', 'e'] text = true ↔ TruthText text false :=
  isWord_iff (List.all_eq_true.1 rfl)

/-- A text is the word of one truth value at most. -/
theorem TruthText.unique (h : TruthText text b) (h' : TruthText text b') : b = b' := by
  have hlength := h.length_eq.symm.trans h'.length_eq
  cases b with
  | false =>
    cases b' with
    | false => rfl
    | true => exact absurd hlength (by decide)
  | true =>
    cases b' with
    | false => exact absurd hlength (by decide)
    | true => rfl

/-! ## Numbers -/

/-- The integer is one of 64 bits. -/
def Fits (n : Int) : Prop := -2 ^ 63 ≤ n ∧ n ≤ 2 ^ 63 - 1

theorem fits_toInt (n : Int64) : Fits n.toInt :=
  ⟨n.minValue_le_toInt, n.toInt_le⟩

theorem int64?_of_fits {n : Int} (h : Fits n) : ∃ m : Int64, int64? n = some m ∧ m.toInt = n := by
  refine ⟨Int64.ofInt n, if_pos h, Int64.toInt_ofInt_of_le h.1 ?_⟩
  exact Int.lt_of_le_sub_one h.2

theorem int64?_of_not_fits {n : Int} (h : ¬ Fits n) : int64? n = none := if_neg h

/-- What a literal comes to. -/
inductive OfLiteral (l : Literal) (text : List Char) : Prop where
  /-- An integer of 64 bits. -/
  | int {n : Int64} (h : IntegerText text n.toInt) (hvalue : ofLiteral l = .int n)
  /-- Another number. -/
  | float (h : ∀ n, IntegerText text n → ¬ Fits n) (hvalue : ofLiteral l = .float l.toFloat)

theorem ofLiteral_cases {l : Literal} (h : l.Spells text) : OfLiteral l text := by
  cases hint : l.toInt? with
  | none =>
    refine .float (fun n hn => ?_) (by rw [ofLiteral, hint]; rfl)
    rw [h.toInt?_eq_some_iff.2 hn] at hint
    cases hint
  | some k =>
    have htext := h.toInt?_eq_some_iff.1 hint
    by_cases hfits : Fits k
    · obtain ⟨n, hn, rfl⟩ := int64?_of_fits hfits
      refine .int htext ?_
      rw [ofLiteral, hint, Option.bind_some, hn]
    · refine .float (fun n hn => ?_) ?_
      · rw [h.toInt?_eq_some_iff.2 hn] at hint
        cases hint
        exact hfits
      · rw [ofLiteral, hint, Option.bind_some, int64?_of_not_fits hfits]

/-! ## The type of a text -/

/-- The value has the type that the text asks for, and is what the text says. -/
structure Typed (text : List Char) (v : Value) : Prop where
  /-- Words are truth values. -/
  bool_iff (b : Bool) : v = .bool b ↔ TruthText text b
  /-- A sign and digits are an integer, if it has 64 bits. -/
  int_iff (n : Int64) :
    v = .int n ↔ (∀ b, ¬ TruthText text b) ∧ IntegerText (Text.trim text) n.toInt
  /-- Any other literal is a floating-point number. -/
  float_iff (x : Float) :
    v = .float x ↔ (∀ b, ¬ TruthText text b) ∧ (∀ n, IntegerText (Text.trim text) n → ¬ Fits n) ∧
      ∃ l : Literal, l.Spells (Text.trim text) ∧ l.toFloat = x
  /-- Any other text is a string, blank characters included. -/
  string_iff (s : String) :
    v = .string s ↔ (∀ b, ¬ TruthText text b) ∧ (∀ l, ¬ Literal.Spells l (Text.trim text)) ∧
      s.toList = text
  /-- No text is a composite. -/
  scalar : v.isComposite = false
  /-- A text without a digit is no number. -/
  digitless (h : ∀ c ∈ text, c.isDigit = false) :
    (∃ b, v = .bool b) ∨ v = .string (String.ofList text)

theorem Typed.of_word (h : TruthText text b) : Typed text (.bool b) where
  bool_iff b' := ⟨fun hb => by cases hb; exact h, fun h' => by rw [h.unique h']⟩
  int_iff n := iff_of_false (by simp) fun hn => hn.1 b h
  float_iff x := iff_of_false (by simp) fun hx => hx.1 b h
  string_iff s := iff_of_false (by simp) fun hs => hs.1 b h
  scalar := rfl
  digitless _ := .inl ⟨b, rfl⟩

theorem Typed.of_string (hword : ∀ b, ¬ TruthText text b)
    (hnumber : ∀ l, ¬ Literal.Spells l (Text.trim text)) :
    Typed text (.string (String.ofList text)) where
  bool_iff b := iff_of_false (by simp) (hword b)
  int_iff n := iff_of_false (by simp) fun hn => by
    obtain ⟨l, hl, -⟩ := hn.2.exists_spells
    exact hnumber l hl
  float_iff x := iff_of_false (by simp) fun hx => by
    obtain ⟨l, hl, -⟩ := hx.2.2
    exact hnumber l hl
  string_iff s := by
    rw [string.injEq, ← String.toList_inj, String.toList_ofList]
    exact ⟨fun hs => ⟨hword, hnumber, hs.symm⟩, fun hs => hs.2.2.symm⟩
  scalar := rfl
  digitless _ := .inr rfl

theorem Typed.of_literal {l : Literal} (hword : ∀ b, ¬ TruthText text b)
    (hl : l.Spells (Text.trim text)) : Typed text (ofLiteral l) := by
  have hdigit {p : Prop} (h : ∀ c ∈ text, c.isDigit = false) : p := by
    obtain ⟨c, hc, hdigit⟩ := hl.exists_digit
    rw [h c (Text.mem_of_mem_trim hc)] at hdigit
    cases hdigit
  cases ofLiteral_cases hl with
  | @int n hn hvalue =>
    rw [hvalue]
    exact {
      bool_iff := fun b => iff_of_false (by simp) (hword b)
      int_iff := fun m => by
        refine ⟨fun hm => ?_, fun hm => ?_⟩
        · cases hm
          exact ⟨hword, hn⟩
        · rw [Int64.toInt_inj.1 (hn.unique hm.2)]
      float_iff := fun x => iff_of_false (by simp) fun hx => hx.2.1 _ hn (fits_toInt n)
      string_iff := fun s => iff_of_false (by simp) fun hs => hs.2.1 l hl
      scalar := rfl
      digitless := hdigit }
  | float hint hvalue =>
    rw [hvalue]
    exact {
      bool_iff := fun b => iff_of_false (by simp) (hword b)
      int_iff := fun n => iff_of_false (by simp) fun hn => hint _ hn.2 (fits_toInt n)
      float_iff := fun x => by
        refine ⟨fun hx => ?_, fun hx => ?_⟩
        · cases hx
          exact ⟨hword, hint, l, hl, rfl⟩
        · obtain ⟨-, -, l', hl', rfl⟩ := hx
          rw [hl.unique hl']
      string_iff := fun s => iff_of_false (by simp) fun hs => hs.2.1 l hl
      scalar := rfl
      digitless := hdigit }

/-- Every text has its type. -/
theorem typed_ofText (text : List Char) : Typed text (ofText text) := by
  rw [ofText]
  split
  · rename_i h
    exact .of_word (isWord_true_iff.1 h)
  · rename_i htrue
    split
    · rename_i h
      exact .of_word (isWord_false_iff.1 h)
    · rename_i hfalse
      have hword (b : Bool) : ¬ TruthText text b := by
        cases b with
        | false => exact mt isWord_false_iff.2 hfalse
        | true => exact mt isWord_true_iff.2 htrue
      split
      · rename_i l hl
        exact .of_literal hword (Literal.read?_eq_some_iff.1 hl)
      · rename_i hnone
        exact .of_string hword (Literal.read?_eq_none_iff.1 hnone)

/-- **The type of what is cast** is that of the text without its backslashes, and the text of an
integer is read back as that integer. -/
theorem cast_typed (raw : String) (quoted : Bool) :
    Typed (Text.unescape (if quoted then raw.toList else Text.trim raw.toList)) (cast raw quoted) ∧
      ∀ n : Int64, cast (display (.int n)) quoted = .int n :=
  ⟨typed_ofText _, fun n => cast_integer n quoted⟩

example : cast " -9223372036854775808 " true = .int Int64.minValue := by decide +kernel

end Value

end DocFacts
