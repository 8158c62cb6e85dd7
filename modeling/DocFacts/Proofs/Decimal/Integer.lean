import DocFacts.Json
import DocFacts.Proofs.Decimal.Grammar
import DocFacts.Proofs.Text.Guarded
import DocFacts.Value.Cast

/-!
# The decimal text of an integer

The text of an integer is bare, and it is a sign and digits whose value is the integer.  So an
integer of 64 bits is read back from its text.
-/

namespace DocFacts

namespace Decimal

theorem allDigits_toDigits (n : Nat) : AllDigits (Nat.toDigits 10 n) := fun _ =>
  Nat.isDigit_of_mem_toDigits (by decide) (by decide)

/-- The text of an integer is a sign and its digits. -/
theorem integerText_integer (n : Int) : IntegerText (Json.integer n) n := by
  have hvalue : Nat.ofDigitChars 10 (Nat.toDigits 10 n.natAbs) 0 = n.natAbs :=
    Nat.ofDigitChars_ten_toDigits
  rw [Json.integer]
  split
  · refine ⟨['-'], true, _, .minus, Nat.toDigits_ne_nil, allDigits_toDigits _, rfl, ?_⟩
    rw [if_pos rfl, hvalue]
    omega
  · refine ⟨[], false, _, .none, Nat.toDigits_ne_nil, allDigits_toDigits _, rfl, ?_⟩
    rw [if_neg Bool.false_ne_true, hvalue]
    omega

theorem mem_integer {n : Int} {c : Char} (h : c ∈ Json.integer n) :
    c = '-' ∨ c.isDigit = true := by
  rw [Json.integer] at h
  split at h
  · rcases List.mem_cons.1 h with rfl | h
    · exact .inl rfl
    · exact .inr (allDigits_toDigits _ _ h)
  · exact .inr (allDigits_toDigits _ _ h)

theorem integer_ne_nil (n : Int) : Json.integer n ≠ [] := by
  rw [Json.integer]
  split
  · simp
  · exact Nat.toDigits_ne_nil

end Decimal

theorem Text.isBare_of_isDigit {c : Char} (h : c.isDigit = true) : isBare c = true := by
  have hblank : isBlank c = false := by
    have hc := Char.isDigit_iff_toNat.1 h
    simp only [Char.reduceToNat] at hc
    simp [isBlank]
    omega
  have hmarks : c ∉ ['"', '{', '}', '\\', ')', '*'] := not_mem_of_class h (by decide)
  have hseparators : c ∉ [',', '='] := not_mem_of_class h (by decide)
  simp only [List.mem_cons, List.not_mem_nil, or_false, not_or] at hmarks hseparators
  simp [isBare, isPlain, hblank, hmarks, hseparators]

/-- The text of an integer is bare. -/
theorem Text.isBare_of_mem_integer {n : Int} {c : Char} (h : c ∈ Json.integer n) :
    isBare c = true := by
  rcases Decimal.mem_integer h with rfl | h
  · decide
  · exact isBare_of_isDigit h

namespace Value

/-- No word has the text of an integer. -/
theorem isWord_integer {word : List Char} (hw : 'e' ∈ word) (n : Int) :
    isWord word (Json.integer n) = false := by
  have hne : (Json.integer n).map Char.toLower ≠ word := by
    rintro rfl
    obtain ⟨c, hc, hlower⟩ := List.mem_map.1 hw
    rcases Decimal.mem_integer hc with rfl | hdigit
    · exact absurd hlower (by decide)
    · -- A digit has no lower case.
      have hsame : c.toLower = c := by
        have hbounds := Char.isDigit_iff_toNat.1 hdigit
        refine dif_neg ?_
        rintro ⟨hlow, -⟩
        have hlow : 'A'.toNat ≤ c.toNat := hlow
        simp only [Char.reduceToNat] at hlow hbounds
        omega
      rw [hsame] at hlower
      subst hlower
      exact absurd hdigit (by decide)
  simp [isWord, hne]

theorem int64?_toInt (n : Int64) : int64? n.toInt = some n := by
  rw [int64?, if_pos ⟨n.minValue_le_toInt, n.toInt_le⟩, Int64.ofInt_toInt]

/-- An integer is read back from its text, quoted or not. -/
theorem cast_integer (n : Int64) (quoted : Bool) :
    cast (String.ofList (Json.integer n.toInt)) quoted = .int n := by
  have hbare : ∀ c ∈ Json.integer n.toInt, Text.isBare c = true := fun _ =>
    Text.isBare_of_mem_integer
  have htrim := Text.trim_eq_of_bare hbare
  obtain ⟨l, hspells, hint⟩ := (Decimal.integerText_integer n.toInt).exists_spells
  simp only [cast, String.toList_ofList, htrim, ite_self]
  rw [Text.unescape_eq_of_bare hbare, ofText, isWord_integer (by decide),
    isWord_integer (by decide), htrim, hspells.read?_eq]
  simp [ofLiteral, hint, int64?_toInt]

end Value

end DocFacts
