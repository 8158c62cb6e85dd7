import DocFacts.Proofs.Decimal.Rounding

/-!
# Numbers in range

A number is in range when it is zero or its exponent fits.  Such a number is packed into bits that
are those of a finite number (`isFinite_pack`), and any other one into those of an infinity
(`pack_infinity`).  Conversely the bits of a finite number are those of a number in range, so a
sign does not matter (`isFinite_neg`).

`Rounds` says that a number below the limit was rounded to one in range, and any other one to one
out of range.  Products and quotients are rounded once, so it holds of them.
-/

namespace DocFacts.Decimal

open Float.Model (Format totalExponent UnpackedFloat)
open Float.Model.UnpackedFloat

/-! ## Bits -/

/-- A number is finite unless all bits of its exponent are set. -/
theorem isFinite_iff (x : Float) :
    isFinite x = true ↔ @unpackExponent Format.binary64 x.toModel.toBits.toBitVec ≠ -1#11 := by
  have hbits : (@unpackExponent Format.binary64 x.toModel.toBits.toBitVec).toNat =
      (x.toBits.toNat >>> 52) % 2 ^ 11 := rfl
  rw [isFinite, Bool.not_eq_true', beq_eq_false_iff_ne, not_iff_not, ← UInt64.toNat_inj,
    ← BitVec.toNat_inj, hbits, UInt64.toNat_and, UInt64.toNat_shiftRight]
  change x.toBits.toNat >>> 52 &&& (2 ^ 11 - 1) = 2047 ↔ _ = 2047
  rw [Nat.and_two_pow_sub_one_eq_mod]

/-- What is packed as a finite number. -/
inductive InRange : UnpackedFloat → Prop where
  /-- Zero, with either sign. -/
  | zero (s : Sign) : InRange (.zero s)
  /-- A number whose exponent fits. -/
  | finite (s : Sign) {m : Nat} {e : Int} (hm : 0 < m) (he : e ≤ 971) : InRange (.finite s m e hm)

/-- The exponent field is full from the first exponent on that does not fit. -/
theorem full_exponent_iff (e : Int) :
    2 ^ Format.binary64.exponentBits ≤ (e + Format.binary64.exponentBias +
      Format.binary64.mantissaBitsWithoutImplicit).toNat + 1 ↔ 972 ≤ e := by
  change 2048 ≤ (e + 1023 + 52).toNat + 1 ↔ 972 ≤ e
  omega

theorem unpackExponent_pack_ne {u : UnpackedFloat} (h : InRange u) :
    unpackExponent (pack Format.binary64 u) ≠ -1#11 := by
  cases h with
  | zero s =>
    simp only [pack, packedZero, unpackExponent_packComponents]
    decide
  | @finite s m e hm he =>
    have hfits := mt (full_exponent_iff e).1 (not_le.2 (Int.lt_of_le_sub_one he))
    rw [pack]
    simp only [if_neg hfits]
    split
    · rw [unpackExponent_packComponents, ne_eq, ← BitVec.toNat_inj, BitVec.toNat_ofNat]
      change ¬ (e + 1023 + 52).toNat % 2048 = 2047
      omega
    · rw [unpackExponent_packComponents]
      decide

theorem pack_infinity (s : Sign) {m : Nat} {e : Int} (hm : 0 < m) (he : 972 ≤ e) :
    pack Format.binary64 (.finite s m e hm) = packedInfinity Format.binary64 s := by
  rw [pack]
  simp only [if_pos ((full_exponent_iff e).2 he)]

theorem isFinite_pack {u : UnpackedFloat} (h : InRange u) :
    isFinite (Float.ofModel (Float.Model.pack u)) = true :=
  (isFinite_iff _).2 (unpackExponent_pack_ne h)

theorem inRange_unpack {x : Float} (h : isFinite x = true) : InRange x.toModel.unpack := by
  have hones := (isFinite_iff x).1 h
  have hfield := (@unpackExponent Format.binary64 x.toModel.toBits.toBitVec).isLt
  have hlast : (@unpackExponent Format.binary64 x.toModel.toBits.toBitVec).toNat ≠ 2047 := by
    intro heq
    exact hones (BitVec.toNat_inj.1 heq)
  have hbias (k : Nat) : (k : Int) - (Format.binary64.exponentBias + (52 : Nat) : Int) = k - 1075 :=
    rfl
  change _ < 2048 at hfield
  rw [Float.Model.unpack, UnpackedFloat.unpack]
  simp only [if_neg hones]
  split
  · split
    · exact .zero _
    · rename_i hzero _
      rw [hzero]
      exact .finite _ _ (by decide)
  · refine .finite _ _ ?_
    change ((@unpackExponent Format.binary64 x.toModel.toBits.toBitVec).toNat : Int) -
      (Format.binary64.exponentBias + (52 : Nat)) ≤ 971
    rw [hbias]
    omega

theorem InRange.neg {u : UnpackedFloat} (h : InRange u) : InRange u.neg := by
  cases h with
  | zero s => exact .zero (-s)
  | finite s hm he => exact .finite (-s) hm he

theorem isFinite_neg {x : Float} (h : isFinite x = true) : isFinite (-x) = true :=
  isFinite_pack (inRange_unpack h).neg

/-! ## Rounding into range -/

theorem le_targetExponent {m : Nat} {e : Int} (h : 2 ^ 52 ≤ m ∨ e ≤ -1074) :
    e ≤ Format.binary64.targetExponent (totalExponent m e) := by
  rw [targetExponent_eq, totalExponent]
  rcases h with hm | he
  · have hlog : 52 ≤ m.log2 := (Nat.le_log2 (by omega)).2 hm
    omega
  · omega

/-- A number below the limit is rounded to one in range, and any other one to one whose exponent is
too large. -/
structure Rounds (s : Sign) (v : ℚ) (u : UnpackedFloat) : Prop where
  /-- The number is below the limit. -/
  inRange : v < limit → InRange u
  /-- The number is not below the limit. -/
  beyond : limit ≤ v → ∃ m e hm, 972 ≤ e ∧ u = .finite s m e hm

theorem rounds_roundWithAccuracy {m : Nat} {e : Int} {acc : Accuracy} {w v : ℚ}
    (h : Holds (ExtendedMantissa.ofMantissaAndAccuracy m acc) w) (hv : w * 2 ^ e = v)
    (he : 2 ^ 52 ≤ m ∨ e ≤ -1074) (s : Sign) :
    Rounds s v (roundWithAccuracy Format.binary64 s m e acc) := by
  obtain ⟨r, hr, hround⟩ := exists_rounded h s (le_targetExponent he) rfl
  rw [hv] at hr
  have hhigh : v < 2 ^ totalExponent m e := hv ▸ lt_two_zpow h
  have hlow : 2 ^ (totalExponent m e - 1) ≤ v ∨ totalExponent m e ≤ -1073 := by
    rcases Nat.eq_zero_or_pos m with rfl | hm
    · right
      rcases he with hm | he
      · exact absurd hm (by decide)
      · have hlog : Nat.log2 0 = 0 := rfl
        rw [totalExponent, hlog]
        omega
    · exact .inl (hv ▸ two_zpow_le h hm)
  obtain ⟨hexponent, hpos⟩ := exponent_rounded hr (targetExponent_eq _) hhigh hlow
  refine ⟨fun hlt => ?_, fun hge => ?_⟩
  · rcases hround with ⟨-, hzero⟩ | ⟨f, hf, -, hfinite⟩
    · rw [hzero]
      exact .zero s
    · rw [hfinite]
      have hnot := mt hexponent.1 (not_le.2 hlt)
      exact .finite s hf (by omega)
  · rcases hround with ⟨hzero, -⟩ | ⟨f, hf, -, hfinite⟩
    · exact absurd (hpos hge) (by omega)
    · exact ⟨f, _, hf, hexponent.2 hge, hfinite⟩

theorem divCore_holds {m₁ m₂ : Nat} {e₁ e₂ : Int} (h₁ : 0 < m₁) (h₂ : 0 < m₂) {q : Nat} {e : Int}
    {acc : Accuracy} (h : divCore Format.binary64 m₁ e₁ m₂ e₂ = (q, e, acc)) :
    ∃ w : ℚ, Holds (ExtendedMantissa.ofMantissaAndAccuracy q acc) w ∧
      w * 2 ^ e = m₁ / m₂ * 2 ^ (e₁ - e₂) ∧ (2 ^ 52 ≤ q ∨ e ≤ -1074) := by
  simp only [divCore, Prod.mk.injEq] at h
  obtain ⟨hq, he, hacc⟩ := h
  rw [he] at hq hacc
  rw [targetExponent_eq, totalExponent, totalExponent] at he
  obtain ⟨k, hk⟩ : ∃ k : Nat, e₁ - e₂ - e = k := Int.eq_ofNat_of_zero_le (by omega)
  rw [hk, Int.toNat_natCast, Nat.shiftLeft_eq] at hq hacc
  subst hq
  subst hacc
  refine ⟨_, holds_div (m₁ * 2 ^ k) h₂, ?_, ?_⟩
  · have hexponent : e₁ - e₂ = k + e := by omega
    rw [hexponent, zpow_add₀ two_ne_zero, zpow_natCast]
    push_cast
    ring
  · rcases le_or_gt e (-1074) with hle | hgt
    · exact .inr hle
    · left
      have hlog : 52 + (m₂.log2 + 1) ≤ m₁.log2 + k := by omega
      rw [Nat.le_div_iff_mul_le h₂]
      calc 2 ^ 52 * m₂ ≤ 2 ^ 52 * 2 ^ (m₂.log2 + 1) :=
            Nat.mul_le_mul_left _ Nat.lt_log2_self.le
        _ = 2 ^ (52 + (m₂.log2 + 1)) := (pow_add ..).symm
        _ ≤ 2 ^ (m₁.log2 + k) := Nat.pow_le_pow_right (by decide) hlog
        _ = 2 ^ m₁.log2 * 2 ^ k := pow_add ..
        _ ≤ m₁ * 2 ^ k := Nat.mul_le_mul_right _ (Nat.log2_self_le h₁.ne')

section Arithmetic

variable {m₁ m₂ : Nat} {e₁ e₂ : Int} {v : ℚ}

theorem rounds_mul (s₁ s₂ : Sign) (h₁ : 0 < m₁) (h₂ : 0 < m₂) (hbits : 2 ^ 52 ≤ m₁ * m₂)
    (hv : m₁ * m₂ * 2 ^ (e₁ + e₂) = v) : Rounds (s₁ * s₂) v
      (UnpackedFloat.mul Format.binary64 (.finite s₁ m₁ e₁ h₁) (.finite s₂ m₂ e₂ h₂)) := by
  refine rounds_roundWithAccuracy (holds_exact _) ?_ (.inl hbits) _
  rw [Nat.cast_mul]
  exact hv

theorem rounds_div (s₁ s₂ : Sign) (h₁ : 0 < m₁) (h₂ : 0 < m₂)
    (hv : m₁ / m₂ * 2 ^ (e₁ - e₂) = v) : Rounds (s₁ / s₂) v
      (UnpackedFloat.div Format.binary64 (.finite s₁ m₁ e₁ h₁) (.finite s₂ m₂ e₂ h₂)) := by
  rcases hdiv : divCore Format.binary64 m₁ e₁ m₂ e₂ with ⟨q, e, acc⟩
  obtain ⟨w, hw, hwv, hbits⟩ := divCore_holds h₁ h₂ hdiv
  have hround : UnpackedFloat.div Format.binary64 (.finite s₁ m₁ e₁ h₁) (.finite s₂ m₂ e₂ h₂) =
      roundWithAccuracy Format.binary64 (s₁ / s₂) q e acc := by
    simp only [UnpackedFloat.div, hdiv]
  rw [hround]
  exact rounds_roundWithAccuracy hw (hwv.trans hv) hbits _

end Arithmetic

end DocFacts.Decimal
