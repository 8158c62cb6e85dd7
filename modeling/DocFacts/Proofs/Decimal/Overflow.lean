import DocFacts.Decimal.Literal
import DocFacts.Proofs.Decimal.Range

/-!
# Literals out of range

A literal is read as a finite number exactly if it stands for one below the limit, and as infinity
with its sign if not (`Literal.isFinite_toFloat`, `Literal.toFloat_infinite`).  It is never read as
a value that is no number.

Three ways lead from the digits of a literal to a number, and `Converts` holds of each.  A decimal
far off the range is not computed.  A small one is the product or the quotient of two numbers that
need no rounding, whose exponents are far from the last one that fits.  Any other one is the exact
decimal, rounded once.
-/

namespace DocFacts.Decimal

open Float.Model (Format totalExponent UnpackedFloat)
open Float.Model.UnpackedFloat

/-- Positive infinity. -/
def infinity : Float := Float.ofBits 0x7FF0000000000000

/-- A number is converted to a finite one if it is below the limit, and to infinity if not. -/
structure Converts (v : ℚ) (x : Float) : Prop where
  /-- The number is below the limit. -/
  isFinite : v < limit → isFinite x = true
  /-- The number is not below the limit. -/
  eq_infinity : limit ≤ v → x = infinity

theorem Rounds.converts {v : ℚ} {u : UnpackedFloat} (h : Rounds .positive v u) :
    Converts v (Float.ofModel (Float.Model.pack u)) := by
  refine ⟨fun hlt => isFinite_pack (h.inRange hlt), fun hge => ?_⟩
  obtain ⟨m, e, hm, he, hu⟩ := h.beyond hge
  have hpack : pack Format.binary64 u = pack Format.binary64 (.infinity .positive) := by
    rw [hu, pack_infinity _ hm he]
    rfl
  have hmodel : Float.Model.pack u = Float.Model.pack (.infinity .positive) := by
    simp only [Float.Model.pack, hpack]
  rw [hmodel, infinity]
  decide

theorem Converts.of_lt {v : ℚ} {x : Float} (hx : Decimal.isFinite x = true) (hv : v < limit) :
    Converts v x :=
  ⟨fun _ => hx, fun hge => absurd hge (not_le.2 hv)⟩

theorem Converts.of_le {v : ℚ} (hv : limit ≤ v) : Converts v infinity :=
  ⟨fun hlt => absurd hlt (not_lt.2 hv), fun _ => rfl⟩

/-! ## Decimals -/

section Decimals

variable {m : Nat} {e : Int}

/-- A decimal with more places than the digits have bits is below one. -/
theorem decimal_lt_limit (h : e + (m.log2 + 1 : Nat) ≤ 0) : (m * 10 ^ e : ℚ) < limit := by
  obtain ⟨k, rfl⟩ : ∃ k : Nat, e = -k := ⟨e.natAbs, by omega⟩
  have hlt : m < 10 ^ k := by
    calc m < 2 ^ (m.log2 + 1) := Nat.lt_log2_self
      _ ≤ 2 ^ k := Nat.pow_le_pow_right (by decide) (by omega)
      _ ≤ 10 ^ k := Nat.pow_le_pow_left (by decide) k
  have hpos : (0 : ℚ) < 10 ^ k := by positivity
  rw [zpow_neg, zpow_natCast, ← div_eq_mul_inv]
  refine lt_of_lt_of_le ?_ one_le_limit
  rw [div_lt_one hpos]
  exact_mod_cast hlt

/-- The product with a power of ten.  The digits are written with 53 bits more, and the exponent of
two takes them back. -/
theorem rounds_whole (hm : 0 < m) (he : 0 ≤ e) (h₁ : 0 < m <<< Format.binary64.mantissaBits)
    (h₂ : 0 < 10 ^ e.toNat) : Rounds .positive (m * 10 ^ e)
      (UnpackedFloat.mul Format.binary64
        (.finite .positive (m <<< Format.binary64.mantissaBits) (-Format.binary64.mantissaBits) h₁)
        (.finite .positive (10 ^ e.toNat) 0 h₂)) := by
  have hshift : m <<< Format.binary64.mantissaBits = m * 2 ^ 53 := Nat.shiftLeft_eq ..
  have hexponent : -(Format.binary64.mantissaBits : Int) + 0 = -(53 : Nat) := rfl
  refine rounds_mul .positive .positive h₁ h₂ ?_ ?_
  · rw [hshift, mul_right_comm]
    calc 2 ^ 52 ≤ 1 * 2 ^ 53 := by norm_num
      _ ≤ m * 10 ^ e.toNat * 2 ^ 53 := Nat.mul_le_mul_right _ (Nat.mul_pos hm h₂)
  · rw [hshift, hexponent, zpow_neg, zpow_natCast]
    nth_rewrite 2 [← Int.toNat_of_nonneg he]
    rw [zpow_natCast]
    push_cast
    field_simp
    norm_num

/-- The quotient by a power of ten. -/
theorem rounds_fraction (he : e < 0) (h₁ : 0 < m) (h₂ : 0 < 10 ^ (-e).toNat) :
    Rounds .positive (m * 10 ^ e) (UnpackedFloat.div Format.binary64
      (.finite .positive m 0 h₁) (.finite .positive (10 ^ (-e).toNat) 0 h₂)) := by
  refine rounds_div .positive .positive h₁ h₂ ?_
  have hneg : e = -((-e).toNat : Int) := by omega
  nth_rewrite 2 [hneg]
  rw [zpow_neg, zpow_natCast, sub_zero, zpow_zero, mul_one, div_eq_mul_inv, Nat.cast_pow,
    Nat.cast_ofNat]

/-- The conversion of a decimal by rounding its exact value once. -/
theorem converts_ofScientific (hm : 0 < m) (he : e ≤ 2048) :
    Converts (m * 10 ^ e) (Float.ofModel (Float.Model.ofScientific m e)) := by
  have hguard : ¬ e > 2 ^ Format.binary64.exponentBits := not_lt.2 he
  rw [Float.Model.ofScientific, UnpackedFloat.ofScientific, dif_neg hm.ne', if_neg hguard]
  split_ifs with hsmall hge
  · have hbits : (2 : Int) ^ Format.binary64.exponentBits = 2048 := rfl
    rw [hbits] at hsmall
    exact .of_lt (isFinite_pack (.zero _)) (decimal_lt_limit (by omega))
  · exact (rounds_whole hm hge _ _).converts
  · exact (rounds_fraction (not_le.1 hge) hm _).converts

end Decimals

/-! ## Small decimals -/

/-- A number whose leading digit is not stored. -/
def IsNormal (x : Float) (e : Int) : Prop :=
  ∃ s m hm, x.toModel.unpack = .finite s m e hm ∧ 2 ^ 52 ≤ m ∧ m < 2 ^ 53

theorem isNormal_of_exponent {x : Float} {k : Nat}
    (h : (@unpackExponent Format.binary64 x.toModel.toBits.toBitVec).toNat = k) (hpos : 0 < k)
    (hlt : k < 2047) : IsNormal x (k - 1075) := by
  have hones : ¬ @unpackExponent Format.binary64 x.toModel.toBits.toBitVec = -1#11 := by
    intro heq
    rw [heq] at h
    exact absurd (h.symm.trans rfl) hlt.ne
  have hzero : ¬ @unpackExponent Format.binary64 x.toModel.toBits.toBitVec = 0#11 := by
    intro heq
    rw [heq] at h
    exact absurd (h.symm.trans rfl) hpos.ne'
  have hmantissa (v : BitVec 52) : (1#1 ++ v).toNat = 2 ^ 52 + v.toNat := by
    have hor := Nat.two_pow_add_eq_or_of_lt v.isLt 1
    rw [mul_one] at hor
    rw [BitVec.toNat_append, hor]
    rfl
  have hbounds (v : BitVec 52) : 2 ^ 52 ≤ (1#1 ++ v).toNat ∧ (1#1 ++ v).toNat < 2 ^ 53 := by
    rw [hmantissa]
    omega
  have hbias : (k : Int) - (Format.binary64.exponentBias + (52 : Nat) : Int) = k - 1075 := rfl
  rw [IsNormal, Float.Model.unpack, UnpackedFloat.unpack]
  simp only [if_neg hones, if_neg hzero, h, hbias]
  exact ⟨_, _, Nat.lt_of_lt_of_le (Nat.two_pow_pos 52) (hbounds _).1, rfl, hbounds _⟩

/-- A product of a number of at most 106 bits and a small power of two. -/
theorem mul_two_zpow_lt_limit {a : ℚ} {e : Int} (ha : a ≤ 2 ^ 106) (he : e ≤ 900) :
    a * 2 ^ e < limit := by
  have hpow : (2 : ℚ) ^ e ≤ 2 ^ 900 := by
    have hmono : (2 : ℚ) ^ e ≤ 2 ^ (900 : Int) := zpow_le_zpow_right₀ one_le_two he
    exact_mod_cast hmono
  have hpos : (0 : ℚ) < 2 ^ e := by positivity
  calc a * 2 ^ e ≤ 2 ^ 106 * 2 ^ e := mul_le_mul_of_nonneg_right ha hpos.le
    _ ≤ 2 ^ 106 * 2 ^ 900 := mul_le_mul_of_nonneg_left hpow (by positivity)
    _ = 2 ^ 36 * 2 ^ 970 := by rw [← pow_add, ← pow_add]
    _ < limit := by
      have hunit : (0 : ℚ) < 2 ^ 970 := by positivity
      rw [limit_eq]
      generalize (2 : ℚ) ^ 970 = u at hunit ⊢
      linarith

theorem isFinite_mul {x y : Float} {e₁ e₂ : Int} (hx : IsNormal x e₁) (hy : IsNormal y e₂)
    (he : e₁ + e₂ ≤ 900) : isFinite (x * y) = true := by
  obtain ⟨s₁, m₁, h₁, hx, hlow₁, hhigh₁⟩ := hx
  obtain ⟨s₂, m₂, h₂, hy, hlow₂, hhigh₂⟩ := hy
  have hproduct : x * y = Float.ofModel (Float.Model.pack
      (UnpackedFloat.mul Format.binary64 x.toModel.unpack y.toModel.unpack)) := rfl
  rw [hproduct, hx, hy]
  have hbits : 2 ^ 52 ≤ m₁ * m₂ := by
    calc 2 ^ 52 = 2 ^ 52 * 1 := by norm_num
      _ ≤ m₁ * m₂ := Nat.mul_le_mul hlow₁ h₂
  have hproduct' : (m₁ * m₂ : ℚ) ≤ 2 ^ 106 := by
    have hmul := Nat.mul_le_mul hhigh₁.le hhigh₂.le
    exact_mod_cast hmul
  exact isFinite_pack ((rounds_mul s₁ s₂ h₁ h₂ hbits rfl).inRange
    (mul_two_zpow_lt_limit hproduct' he))

theorem isFinite_div {x y : Float} {e₁ e₂ : Int} (hx : IsNormal x e₁) (hy : IsNormal y e₂)
    (he : e₁ - e₂ ≤ 900) : isFinite (x / y) = true := by
  obtain ⟨s₁, m₁, h₁, hx, hlow₁, hhigh₁⟩ := hx
  obtain ⟨s₂, m₂, h₂, hy, hlow₂, hhigh₂⟩ := hy
  have hquotient : x / y = Float.ofModel (Float.Model.pack
      (UnpackedFloat.div Format.binary64 x.toModel.unpack y.toModel.unpack)) := rfl
  rw [hquotient, hx, hy]
  have hquotient' : (m₁ / m₂ : ℚ) ≤ 2 ^ 106 := by
    calc (m₁ / m₂ : ℚ) ≤ m₁ := div_le_self (Nat.cast_nonneg _) (by exact_mod_cast h₂)
      _ ≤ 2 ^ 106 := by exact_mod_cast hhigh₁.le.trans (by norm_num)
  exact isFinite_pack ((rounds_div s₁ s₂ h₁ h₂ rfl).inRange
    (mul_two_zpow_lt_limit hquotient' he))

/-- A mantissa of 53 bits needs no rounding. -/
theorem roundWithAccuracy_exact (s : Sign) {m : Nat} {e : Int} (hm : m.log2 = 52)
    (he : -1074 ≤ e) : ∃ hpos, roundWithAccuracy Format.binary64 s m e .exact =
      .finite s m e hpos := by
  have hpos : m ≠ 0 := by
    rintro rfl
    cases hm
  have htarget : Format.binary64.targetExponent (totalExponent m e) = e := by
    rw [targetExponent_eq, totalExponent, hm]
    omega
  have hshift : shiftToTargetExponent Format.binary64 m e .exact =
      (ExtendedMantissa.ofMantissaAndAccuracy m .exact, e) := by
    rw [shiftToTargetExponent, htarget, shiftToExponent, sub_self]
    simp
    rfl
  refine ⟨Nat.pos_of_ne_zero hpos, ?_⟩
  rw [roundWithAccuracy, hshift]
  change finished s m e = _
  simp only [finished, hshift, mantissa_ofMantissaAndAccuracy, dif_neg hpos]

/-- A mantissa of 53 bits is packed without its leading digit, and with its exponent. -/
theorem unpackExponent_pack (s : Sign) {m : Nat} {e : Int} (hpos : 0 < m) (hm : m.log2 = 52)
    (he : -1074 ≤ e ∧ e ≤ 971) :
    (unpackExponent (pack Format.binary64 (.finite s m e hpos))).toNat = (e + 1075).toNat := by
  have hfits := mt (full_exponent_iff e).1 (not_le.2 (Int.lt_of_le_sub_one he.2))
  have hbits : m.log2 + 1 = Format.binary64.mantissaBits := by
    rw [hm]
    rfl
  rw [pack]
  simp only [if_neg hfits, if_pos hbits, unpackExponent_packComponents, BitVec.toNat_ofNat]
  change (e + 1023 + 52).toNat % 2048 = (e + 1075).toNat
  omega

theorem log2_mul_two_pow {m : Nat} (hm : 0 < m) (k : Nat) : (m * 2 ^ k).log2 = m.log2 + k := by
  have hpos : m * 2 ^ k ≠ 0 := (Nat.mul_pos hm (Nat.two_pow_pos k)).ne'
  have hlow := Nat.mul_le_mul_right (2 ^ k) (Nat.log2_self_le hm.ne')
  have hhigh := Nat.mul_lt_mul_of_pos_right (@Nat.lt_log2_self m) (Nat.two_pow_pos k)
  rw [← pow_add] at hlow
  rw [← pow_add, Nat.add_right_comm] at hhigh
  exact (Nat.log2_eq_iff hpos).2 ⟨hlow, hhigh⟩

/-- A natural number of 53 bits at most needs no rounding. -/
theorem ofUInt64_eq {m k : Nat} (hm : 0 < m) (hk : m.log2 + k = 52) :
    ∃ hpos, UnpackedFloat.ofUInt64 Format.binary64 m.toUInt64 =
      .finite .positive (m * 2 ^ k) (-k) hpos := by
  have hlt : m < 2 ^ 53 := (Nat.log2_lt hm.ne').1 (by omega)
  have htoNat : m.toUInt64.toNat = m := UInt64.toNat_ofNat_of_lt' (hlt.trans (by decide))
  have hlow : (-1074 : Int) ≤ -k := by omega
  obtain ⟨hpos, hexact⟩ :=
    roundWithAccuracy_exact .positive ((log2_mul_two_pow hm k).trans hk) hlow
  have htarget : Format.binary64.targetExponent (totalExponent m 0) = -k := by
    rw [targetExponent_eq, totalExponent]
    omega
  have hcompare : compare (m : Int) 0 = .gt := compare_gt_iff_gt.2 (by omega)
  refine ⟨hpos, ?_⟩
  rw [UnpackedFloat.ofUInt64, htoNat, UnpackedFloat.ofNat, UnpackedFloat.ofInt,
    Float.Model.UnpackedFloat.normalize]
  simp only [hcompare, Int.toNat_natCast]
  rw [Float.Model.UnpackedFloat.round, htarget]
  simp only [decreaseExponent, zero_sub, neg_neg, Int.toNat_natCast, Nat.shiftLeft_eq]
  exact hexact

theorem isNormal_toFloat {m : Nat} (hm : 0 < m) (hlt : m < 2 ^ 53) :
    IsNormal m.toUInt64.toFloat (m.log2 - 52) := by
  obtain ⟨k, hk⟩ := Nat.exists_eq_add_of_le (Nat.lt_succ_iff.1 ((Nat.log2_lt hm.ne').2 hlt))
  obtain ⟨hpos, heq⟩ := ofUInt64_eq hm hk.symm
  have hfield : (@unpackExponent Format.binary64
      m.toUInt64.toFloat.toModel.toBits.toBitVec).toNat = (-(k : Int) + 1075).toNat := by
    change (unpackExponent (pack Format.binary64
      (UnpackedFloat.ofUInt64 Format.binary64 m.toUInt64))).toNat = _
    rw [heq]
    exact unpackExponent_pack .positive hpos ((log2_mul_two_pow hm k).trans hk.symm) (by omega)
  have hnormal := isNormal_of_exponent hfield (by omega) (by omega)
  have hexponent : ((-(k : Int) + 1075).toNat : Int) - 1075 = m.log2 - 52 := by omega
  rwa [hexponent] at hnormal

theorem isNormal_powerOfTen (k : Fin 23) :
    ∃ e, IsNormal Float.exactlyRepresentablePowersOfTen[k] e ∧ -52 ≤ e ∧ e ≤ 21 := by
  have hfield : ∀ k : Fin 23, 1023 ≤ (@unpackExponent Format.binary64
      Float.exactlyRepresentablePowersOfTen[k].toModel.toBits.toBitVec).toNat ∧
      (@unpackExponent Format.binary64
        Float.exactlyRepresentablePowersOfTen[k].toModel.toBits.toBitVec).toNat ≤ 1096 := by
    decide +kernel
  obtain ⟨hlow, hhigh⟩ := hfield k
  exact ⟨_, isNormal_of_exponent rfl (by omega) (by omega), by omega, by omega⟩

theorem digits_zpow_lt_limit {m : Nat} {e : Int} (hm : m < 2 ^ 53) (he : e ≤ 22) :
    (m * 10 ^ e : ℚ) < limit := by
  have hpow : (10 : ℚ) ^ e ≤ 10 ^ 22 := by
    have hmono : (10 : ℚ) ^ e ≤ 10 ^ (22 : Int) := zpow_le_zpow_right₀ (by norm_num) he
    exact_mod_cast hmono
  have hm' : (m : ℚ) ≤ 2 ^ 53 := by exact_mod_cast hm.le
  have hpos : (0 : ℚ) < 10 ^ e := by positivity
  calc (m * 10 ^ e : ℚ) ≤ 2 ^ 53 * 10 ^ 22 := mul_le_mul hm' hpow hpos.le (by norm_num)
    _ ≤ 2 ^ 106 * 2 ^ (21 : Int) := by norm_num
    _ < limit := mul_two_zpow_lt_limit le_rfl (by norm_num)

/-- The conversion of a decimal, which takes a shorter way for small ones. -/
theorem converts_decimal {m : Nat} {e : Int} (hm : 0 < m) (he : e ≤ 2048) :
    Converts (m * 10 ^ e) (Float.ofScientific m (decide (e < 0)) e.natAbs) := by
  rw [Float.ofScientific]
  split
  · rename_i hsmall
    obtain ⟨hlt, hnat⟩ := hsmall
    obtain ⟨k, hk, hlow, hhigh⟩ := isNormal_powerOfTen ⟨e.natAbs, by omega⟩
    have hnormal := isNormal_toFloat hm hlt
    have hlog : m.log2 < 53 := (Nat.log2_lt hm.ne').2 hlt
    have hbelow := digits_zpow_lt_limit hlt (show e ≤ 22 by omega)
    refine .of_lt ?_ hbelow
    cases hsign : decide (e < 0) with
    | true => exact isFinite_div hnormal hk (by omega)
    | false => exact isFinite_mul hnormal hk (by omega)
  · have hexponent : (if decide (e < 0) = true then Int.negOfNat e.natAbs else Int.ofNat e.natAbs) =
        e := by
      rcases lt_or_ge e 0 with hneg | hpos
      · rw [if_pos (decide_eq_true hneg), Int.negOfNat_eq]
        change -(e.natAbs : Int) = e
        omega
      · rw [if_neg (by simpa using hpos)]
        exact Int.natAbs_of_nonneg hpos
    simp only [hexponent]
    exact converts_ofScientific hm he

theorem lt_ten_pow_length (m : Nat) : m < 10 ^ (Nat.toDigits 10 m).length :=
  (Nat.length_toDigits_le_iff (by decide) Nat.length_toDigits_pos).1 le_rfl

theorem ten_pow_length_le {m : Nat} (hm : 0 < m) : 10 ^ ((Nat.toDigits 10 m).length - 1) ≤ m := by
  rcases Nat.eq_zero_or_pos ((Nat.toDigits 10 m).length - 1) with hone | hmore
  · rw [hone]
    exact hm
  · by_contra hlt
    have hshort := (Nat.length_toDigits_le_iff (by decide) hmore).2 (not_le.1 hlt)
    omega

theorem limit_le_ten_zpow {k : Int} (hk : 400 ≤ k) : limit ≤ 10 ^ k := by
  have hunit : (0 : ℚ) < 2 ^ 970 := by positivity
  calc limit ≤ 2 ^ 1024 := by
        rw [limit]
        exact sub_le_self _ hunit.le
    _ ≤ 2 ^ (3 * 400) := pow_le_pow_right₀ one_le_two (by norm_num)
    _ = (2 ^ 3) ^ 400 := pow_mul ..
    _ ≤ 10 ^ 400 := pow_le_pow_left₀ (by norm_num) (by norm_num) _
    _ = 10 ^ (400 : Int) := (zpow_natCast (10 : ℚ) 400).symm
    _ ≤ 10 ^ k := zpow_le_zpow_right₀ (by norm_num) hk

/-- **The nearest number.**  A decimal is converted to a finite number exactly if it is below the
limit.  The decimals that are not computed are on the side of the limit where they are put. -/
theorem converts_nearest (m : Nat) (e : Int) : Converts (m * 10 ^ e) (nearest m e) := by
  have hzero : isFinite (Float.ofBits 0) = true := by decide
  have hten : (1 : ℚ) ≤ 10 := by norm_num
  have hunit : (0 : ℚ) < 10 ^ e := by positivity
  rw [nearest]
  rcases Nat.eq_zero_or_pos m with rfl | hm
  · rw [if_pos (.inl rfl), Nat.cast_zero, zero_mul]
    exact .of_lt hzero (zero_lt_one.trans_le one_le_limit)
  have hlength : 0 < (Nat.toDigits 10 m).length := Nat.length_toDigits_pos
  have hlt := lt_ten_pow_length m
  have hle := ten_pow_length_le hm
  generalize (Nat.toDigits 10 m).length = n at hlength hlt hle ⊢
  split_ifs with hlow hhigh
  · have hposition := hlow.resolve_left hm.ne'
    refine .of_lt hzero ?_
    have hlt' : (m : ℚ) ≤ 10 ^ n := by exact_mod_cast hlt.le
    calc (m * 10 ^ e : ℚ) ≤ 10 ^ n * 10 ^ e := mul_le_mul_of_nonneg_right hlt' hunit.le
      _ = 10 ^ (n + e : Int) := by rw [zpow_add₀ (by norm_num), zpow_natCast]
      _ ≤ 10 ^ (-1 : Int) := zpow_le_zpow_right₀ hten (by omega)
      _ < 1 := by norm_num
      _ ≤ limit := one_le_limit
  · refine .of_le ?_
    have hle' : (10 : ℚ) ^ (n - 1) ≤ m := by exact_mod_cast hle
    calc limit ≤ 10 ^ ((n - 1 : Nat) + e : Int) := limit_le_ten_zpow (by omega)
      _ = 10 ^ (n - 1) * 10 ^ e := by rw [zpow_add₀ (by norm_num), zpow_natCast]
      _ ≤ m * 10 ^ e := mul_le_mul_of_nonneg_right hle' hunit.le
  · exact converts_decimal hm (by omega)

/-! ## Literals -/

/-- Negative infinity. -/
def negativeInfinity : Float := Float.ofBits 0xFFF0000000000000

/-- The number that a literal stands for, without its sign. -/
def Literal.magnitude (l : Literal) : ℚ := l.significand * 10 ^ l.scale

/-- **Finite literals.**  The number that a literal is read as is finite below the limit. -/
theorem Literal.isFinite_toFloat {l : Literal} (h : l.magnitude < limit) :
    isFinite l.toFloat = true := by
  have hfinite := (converts_nearest l.significand l.scale).isFinite h
  rw [Literal.toFloat]
  cases l.negative with
  | true => exact isFinite_neg hfinite
  | false => exact hfinite

/-- **Infinite literals.**  From the limit on a literal is read as infinity with its sign. -/
theorem Literal.toFloat_infinite {l : Literal} (h : limit ≤ l.magnitude) :
    l.toFloat = if l.negative then negativeInfinity else infinity := by
  rw [Literal.toFloat, (converts_nearest l.significand l.scale).eq_infinity h]
  cases l.negative with
  | true => decide
  | false => rfl

theorem Literal.isFinite_toFloat_iff {l : Literal} :
    isFinite l.toFloat = true ↔ l.magnitude < limit := by
  refine ⟨fun h => ?_, Literal.isFinite_toFloat⟩
  by_contra hnot
  rw [Literal.toFloat_infinite (not_lt.1 hnot)] at h
  cases hsign : l.negative with
  | true =>
    rw [hsign] at h
    exact absurd h (by decide)
  | false =>
    rw [hsign] at h
    exact absurd h (by decide)

/-- A literal is read as a finite number or as one of the infinities. -/
theorem Literal.toFloat_cases (l : Literal) :
    isFinite l.toFloat = true ∨ l.toFloat = infinity ∨ l.toFloat = negativeInfinity := by
  rcases lt_or_ge l.magnitude limit with hlt | hge
  · exact .inl (Literal.isFinite_toFloat hlt)
  · rw [Literal.toFloat_infinite hge]
    cases l.negative with
    | true => exact .inr (.inr rfl)
    | false => exact .inr (.inl rfl)

theorem Literal.magnitude_eq_natAbs {l : Literal} {n : Int} (h : l.toInt? = some n) :
    l.magnitude = n.natAbs := by
  obtain ⟨negative, whole, fraction, exponent⟩ := l
  cases fraction with
  | some _ => cases h
  | none =>
    cases exponent with
    | some _ => cases h
    | none =>
      have hscale : Literal.scale ⟨negative, whole, none, none⟩ = 0 := rfl
      have hsignificand : Literal.significand ⟨negative, whole, none, none⟩ = natOfDigits whole :=
        congrArg natOfDigits (List.append_nil whole)
      rw [Literal.magnitude, hscale, hsignificand, zpow_zero, mul_one]
      obtain rfl := Option.some.inj h
      cases negative with
      | true => simp
      | false => simp

/-- The integers of 64 bits are far below the limit. -/
theorem Literal.magnitude_lt_of_int64 {l : Literal} {n : Int64} (h : l.toInt? = some n.toInt) :
    l.magnitude < limit := by
  have hlow : -2 ^ 63 ≤ n.toInt := n.minValue_le_toInt
  have hhigh : n.toInt ≤ 2 ^ 63 - 1 := n.toInt_le
  have hbits : n.toInt.natAbs ≤ 2 ^ 106 := by omega
  have hsmall : (n.toInt.natAbs : ℚ) * 2 ^ (0 : Int) < limit :=
    mul_two_zpow_lt_limit (by exact_mod_cast hbits) (by norm_num)
  rwa [zpow_zero, mul_one, ← Literal.magnitude_eq_natAbs h] at hsmall

end DocFacts.Decimal
