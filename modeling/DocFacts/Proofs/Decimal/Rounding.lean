import DocFacts.Decimal.Layout
import Mathlib

/-!
# Rounding to a binary number

Rounding keeps of a number a mantissa, the half unit behind it, and whether anything is left.
`Holds` says that the three are those of a number.  Shifting the mantissa halves the number, and
the mantissa is rounded up from half a unit on, so whether a rounded mantissa reaches an even bound
is decided by the number itself (`Holds.le_roundedMantissa_iff`).

An exponent fits into 64 bits up to 971.  A number is rounded to one with a larger exponent exactly
from the `limit` on, which lies half a unit behind the largest number that fits
(`exponent_rounded`).  Just below that, the carry of the rounding decides.
-/

namespace DocFacts.Decimal

open Float.Model (Format totalExponent UnpackedFloat)
open Float.Model.UnpackedFloat

/-! ## Extended mantissas -/

/-- The half units in an extended mantissa. -/
def halves (em : ExtendedMantissa) : Nat := 2 * em.mantissa + em.roundBit.toNat

/-- An extended mantissa holds of a number its half units, and whether there is more. -/
structure Holds (em : ExtendedMantissa) (w : ℚ) : Prop where
  halves_le : (halves em : ℚ) ≤ 2 * w
  lt_halves : 2 * w < halves em + 1
  sticky_iff : em.stickyBit = true ↔ (halves em : ℚ) < 2 * w

variable {em : ExtendedMantissa} {w : ℚ}

theorem Holds.mantissa_le (h : Holds em w) : (em.mantissa : ℚ) ≤ w := by
  have hle := h.halves_le
  rw [halves] at hle
  push_cast at hle
  have hbit : (0 : ℚ) ≤ (em.roundBit.toNat : ℚ) := Nat.cast_nonneg _
  linarith

theorem Holds.lt_mantissa (h : Holds em w) : w < em.mantissa + 1 := by
  have hlt := h.lt_halves
  rw [halves] at hlt
  push_cast at hlt
  have hbit : (em.roundBit.toNat : ℚ) ≤ 1 := by exact_mod_cast Bool.toNat_le em.roundBit
  linarith

theorem halves_shiftRightOne (em : ExtendedMantissa) : halves em.shiftRightOne = em.mantissa := by
  have hbit : (em.mantissa % 2 != 0).toNat = em.mantissa % 2 := by
    rcases Nat.mod_two_eq_zero_or_one em.mantissa with h | h
    · rw [h]; rfl
    · rw [h]; rfl
  rw [halves, ExtendedMantissa.shiftRightOne, hbit]
  exact Nat.div_add_mod em.mantissa 2

theorem Holds.shiftRightOne (h : Holds em w) : Holds em.shiftRightOne (w / 2) := by
  have hhalf : 2 * (w / 2) = w := by ring
  refine ⟨?_, ?_, ?_⟩
  · rw [halves_shiftRightOne, hhalf]
    exact h.mantissa_le
  · rw [halves_shiftRightOne, hhalf]
    exact h.lt_mantissa
  · rw [halves_shiftRightOne, hhalf]
    have hle := h.halves_le
    have hsticky := h.sticky_iff
    rw [halves] at hle hsticky
    rw [ExtendedMantissa.shiftRightOne]
    cases hbit : em.roundBit with
    | true =>
      rw [hbit] at hle
      push_cast at hle
      simp only [Bool.toNat_true, Nat.cast_one] at hle
      simp only [Bool.true_or, true_iff]
      linarith
    | false =>
      rw [hbit] at hsticky
      push_cast at hsticky
      simp only [Bool.toNat_false, Nat.cast_zero, add_zero] at hsticky
      rw [Bool.false_or, hsticky]
      constructor
      · intro hlt
        linarith
      · intro hlt
        linarith

theorem Holds.shiftRight (h : Holds em w) (n : Nat) : Holds (em >>> n) (w / 2 ^ n) := by
  induction n with
  | zero =>
    rw [pow_zero, div_one]
    exact h
  | succ n ih =>
    have hnext := ih.shiftRightOne
    rwa [div_div, ← pow_succ] at hnext

/-- A number that is rounded to a multiple of two at least lies at most half a unit below it. -/
theorem Holds.le_roundedMantissa_iff (h : Holds em w) {n : Nat} (hn : n % 2 = 0) :
    n ≤ em.roundedMantissa ↔ (2 * n : ℚ) ≤ 2 * w + 1 := by
  have hle := h.halves_le
  have hlt := h.lt_halves
  have hhalves : (2 * n : ℚ) ≤ 2 * w + 1 ↔ 2 * n ≤ halves em + 1 := by
    constructor
    · intro h
      have hcast : ((2 * n : Nat) : ℚ) < (halves em + 2 : Nat) := by
        push_cast
        linarith
      exact Nat.lt_succ_iff.1 (Nat.cast_lt.1 hcast)
    · intro h
      have hcast : ((2 * n : Nat) : ℚ) ≤ (halves em + 1 : Nat) := Nat.cast_le.2 h
      push_cast at hcast
      linarith
  rw [hhalves, halves, ExtendedMantissa.roundedMantissa]
  obtain ⟨m, r, s⟩ := em
  cases r with
  | false =>
    cases s with
    | false => simp [ExtendedMantissa.accuracy, Accuracy.roundToNearestEven]; omega
    | true => simp [ExtendedMantissa.accuracy, Accuracy.roundToNearestEven]; omega
  | true =>
    cases s with
    | false => simp [ExtendedMantissa.accuracy, Accuracy.roundToNearestEven]; omega
    | true => simp [ExtendedMantissa.accuracy, Accuracy.roundToNearestEven]; omega

theorem holds_exact (m : Nat) : Holds (ExtendedMantissa.ofMantissaAndAccuracy m .exact) m := by
  have hhalves : halves (ExtendedMantissa.ofMantissaAndAccuracy m .exact) = 2 * m := rfl
  refine ⟨?_, ?_, ?_⟩
  · rw [hhalves]; push_cast; linarith
  · rw [hhalves]; push_cast; linarith
  · rw [hhalves]; push_cast
    exact iff_of_false Bool.false_ne_true (lt_irrefl _)

/-- Half units of a quotient, and what is left. -/
theorem holds_of_split {a d rest : Nat} (hd : 0 < d) (hsplit : 2 * a = halves em * d + rest)
    (hrest : rest < d) (hsticky : em.stickyBit = true ↔ 0 < rest) : Holds em (a / d : ℚ) := by
  have hd' : (0 : ℚ) < d := Nat.cast_pos.2 hd
  have htwice : 2 * (a / d : ℚ) = halves em + rest / d := by
    have hcast : (2 * a : ℚ) = halves em * d + rest := by exact_mod_cast hsplit
    rw [mul_div_assoc', hcast, add_div, mul_div_cancel_right₀ _ hd'.ne']
  refine ⟨?_, ?_, ?_⟩
  · rw [htwice]
    exact le_add_of_nonneg_right (by positivity)
  · rw [htwice, add_lt_add_iff_left, div_lt_one hd']
    exact_mod_cast hrest
  · rw [htwice, hsticky, lt_add_iff_pos_right, div_pos_iff_of_pos_right hd', Nat.cast_pos]

/-- A quotient with the accuracy of its remainder. -/
theorem holds_div (a : Nat) {d : Nat} (hd : 0 < d) :
    Holds (ExtendedMantissa.ofMantissaAndAccuracy (a / d) (accuracyOfFraction (a % d) d))
      (a / d : ℚ) := by
  have htwice : 2 * a = 2 * (a / d) * d + 2 * (a % d) := by
    have hsplit := Nat.div_add_mod' a d
    linarith
  have hnext : (2 * (a / d) + 1) * d = 2 * (a / d) * d + d := by ring
  have hmod := Nat.mod_lt a hd
  rw [accuracyOfFraction]
  split
  · rename_i hzero
    rw [hzero] at htwice
    exact @holds_of_split ⟨a / d, false, false⟩ a d 0 hd htwice hd (by simp)
  · rename_i hpos
    cases hcompare : compare (2 * (a % d)) d with
    | lt =>
      have hlt := Nat.compare_eq_lt.1 hcompare
      exact @holds_of_split ⟨a / d, false, true⟩ a d _ hd htwice hlt (by simp; omega)
    | eq =>
      have heq := Nat.compare_eq_eq.1 hcompare
      rw [heq, ← hnext] at htwice
      exact @holds_of_split ⟨a / d, true, false⟩ a d 0 hd htwice hd (by simp)
    | gt =>
      have hgt := Nat.compare_eq_gt.1 hcompare
      have hsplit : 2 * a = (2 * (a / d) + 1) * d + (2 * (a % d) - d) := by omega
      exact @holds_of_split ⟨a / d, true, true⟩ a d _ hd hsplit (by omega) (by simp; omega)

/-! ## The limit -/

/-- The bound: halfway from the last number with an exponent that fits to the next one. -/
def limit : ℚ := 2 ^ 1024 - 2 ^ 970

theorem limit_eq : limit = (2 ^ 54 - 1) * 2 ^ 970 := by
  rw [limit, sub_mul, ← pow_add, one_mul]

theorem one_le_limit : 1 ≤ limit := by
  rw [limit_eq]
  have hunit : (1 : ℚ) ≤ 2 ^ 970 := one_le_pow₀ one_le_two
  generalize (2 : ℚ) ^ 970 = u at hunit ⊢
  linarith

theorem zpow_eq {t : Int} {k : Nat} (h : t = 970 + k) : (2 : ℚ) ^ t = 2 ^ k * 2 ^ 970 := by
  have hcast : t = ((970 + k : Nat) : Int) := by
    rw [h]
    push_cast
    ring
  rw [hcast, zpow_natCast, pow_add, mul_comm]

/-! ## Rounding -/

section Round

variable {m : Nat} {e : Int} {acc : Accuracy}

theorem mantissa_ofMantissaAndAccuracy (m : Nat) (acc : Accuracy) :
    (ExtendedMantissa.ofMantissaAndAccuracy m acc).mantissa = m := by
  cases acc with
  | exact => rfl
  | inexact order => cases order <;> rfl

theorem lt_two_zpow (h : Holds (ExtendedMantissa.ofMantissaAndAccuracy m acc) w) :
    w * 2 ^ e < 2 ^ totalExponent m e := by
  have hlt := h.lt_mantissa
  rw [mantissa_ofMantissaAndAccuracy] at hlt
  have hlog : ((m + 1 : Nat) : ℚ) ≤ ((2 ^ (m.log2 + 1) : Nat) : ℚ) := Nat.cast_le.2 Nat.lt_log2_self
  push_cast at hlog
  have hw : w < 2 ^ (m.log2 + 1) := hlt.trans_le hlog
  rw [totalExponent, zpow_add₀ two_ne_zero]
  have hpos : (0 : ℚ) < 2 ^ e := by positivity
  refine mul_lt_mul_of_pos_right ?_ hpos
  exact_mod_cast hw

theorem two_zpow_le (h : Holds (ExtendedMantissa.ofMantissaAndAccuracy m acc) w) (hm : 0 < m) :
    (2 : ℚ) ^ (totalExponent m e - 1) ≤ w * 2 ^ e := by
  have hle := h.mantissa_le
  rw [mantissa_ofMantissaAndAccuracy] at hle
  have hlog : ((2 ^ m.log2 : Nat) : ℚ) ≤ (m : ℚ) := Nat.cast_le.2 (Nat.log2_self_le hm.ne')
  have hexponent : totalExponent m e - 1 = m.log2 + e := by
    rw [totalExponent]
    ring
  have hpos : (0 : ℚ) < 2 ^ e := by positivity
  rw [hexponent, zpow_add₀ two_ne_zero]
  refine mul_le_mul_of_nonneg_right ?_ hpos.le
  exact_mod_cast hlog.trans hle

theorem targetExponent_eq (t : Int) :
    Format.binary64.targetExponent t = max (t - 53) (-1074) := rfl

/-- What is made of a rounded mantissa. -/
def finished (s : Sign) (r : Nat) (t : Int) : UnpackedFloat :=
  let shifted := shiftToTargetExponent Format.binary64 r t .exact
  if h : shifted.1.mantissa = 0 then .zero s
  else .finite s shifted.1.mantissa shifted.2 (Nat.pos_of_ne_zero h)

theorem mantissa_shiftRight (em : ExtendedMantissa) (n : Nat) :
    (em >>> n).mantissa = em.mantissa / 2 ^ n := by
  induction n with
  | zero => exact (Nat.div_one _).symm
  | succ n ih =>
    have hnext : (em >>> (n + 1)).mantissa = (em >>> n).mantissa / 2 := rfl
    rw [hnext, ih, Nat.div_div_eq_div_mul, ← pow_succ]

theorem finished_zero (s : Sign) (t : Int) : finished s 0 t = .zero s := by
  have hzero : (shiftToTargetExponent Format.binary64 0 t .exact).1.mantissa = 0 := by
    rw [shiftToTargetExponent, shiftToExponent, mantissa_shiftRight]
    exact Nat.zero_div _
  rw [finished, dif_pos hzero]

/-- A mantissa that is not zero stays so. -/
theorem finished_pos (s : Sign) {r : Nat} {t : Int} (hr : 0 < r) (ht : -1074 ≤ t) :
    ∃ f hf, finished s r t = .finite s f (max t (max (totalExponent r t - 53) (-1074))) hf := by
  have hshift : (max (totalExponent r t - 53) (-1074) - t).toNat ≤ r.log2 := by
    rw [totalExponent]
    omega
  have hmantissa : (shiftToTargetExponent Format.binary64 r t .exact).1.mantissa =
      r / 2 ^ (max (totalExponent r t - 53) (-1074) - t).toNat := by
    rw [shiftToTargetExponent, shiftToExponent, mantissa_shiftRight,
      mantissa_ofMantissaAndAccuracy]
    rfl
  have hexponent : (shiftToTargetExponent Format.binary64 r t .exact).2 =
      max t (max (totalExponent r t - 53) (-1074)) := by
    rw [shiftToTargetExponent, shiftToExponent, targetExponent_eq]
    omega
  have hpos : (shiftToTargetExponent Format.binary64 r t .exact).1.mantissa ≠ 0 := by
    rw [hmantissa]
    refine (Nat.div_pos ?_ (Nat.two_pow_pos _)).ne'
    exact (Nat.pow_le_pow_right (by decide) hshift).trans (Nat.log2_self_le hr.ne')
  rw [finished, dif_neg hpos, ← hexponent]
  exact ⟨_, _, rfl⟩

/-- The number is nearest to `r` units of `2 ^ t`, as far as even bounds tell. -/
def RoundsTo (v : ℚ) (r : Nat) (t : Int) : Prop :=
  ∀ n : Nat, n % 2 = 0 → (n ≤ r ↔ (2 * n : ℚ) * 2 ^ t ≤ 2 * v + 2 ^ t)

/-- What a number is rounded to.  The mantissa `r` is that of the first rounding, and the second
one does not bring it to zero. -/
theorem exists_rounded (h : Holds (ExtendedMantissa.ofMantissaAndAccuracy m acc) w) (s : Sign)
    (he : e ≤ Format.binary64.targetExponent (totalExponent m e)) {t : Int}
    (ht : Format.binary64.targetExponent (totalExponent m e) = t) :
    ∃ r : Nat, RoundsTo (w * 2 ^ e) r t ∧
      ((r = 0 ∧ roundWithAccuracy Format.binary64 s m e acc = .zero s) ∨
        ∃ f hf, 0 < r ∧ roundWithAccuracy Format.binary64 s m e acc =
          .finite s f (max t (max (totalExponent r t - 53) (-1074))) hf) := by
  have hk : e + ((t - e).toNat : Int) = t := by omega
  have hscale : w / 2 ^ (t - e).toNat * 2 ^ t = w * 2 ^ e := by
    have hpow : (2 : ℚ) ^ t = 2 ^ e * 2 ^ (t - e).toNat := by
      rw [← zpow_natCast, ← zpow_add₀ two_ne_zero, hk]
    rw [hpow]
    field_simp
  have hround := h.shiftRight (t - e).toNat
  generalize hem : ExtendedMantissa.ofMantissaAndAccuracy m acc >>> (t - e).toNat = em at hround
  refine ⟨em.roundedMantissa, fun n hn => ?_, ?_⟩
  · have hpos : (0 : ℚ) < 2 ^ t := by positivity
    rw [hround.le_roundedMantissa_iff hn, ← hscale, ← mul_le_mul_iff_left₀ hpos]
    ring_nf
  · have hfirst : roundWithAccuracy Format.binary64 s m e acc =
        finished s em.roundedMantissa t := by
      simp only [roundWithAccuracy, shiftToTargetExponent, shiftToExponent, ht, hem, hk]
      rfl
    rw [hfirst]
    rcases Nat.eq_zero_or_pos em.roundedMantissa with hzero | hpos
    · rw [hzero]
      exact .inl ⟨rfl, finished_zero s t⟩
    · have hlow : -1074 ≤ t := by
        rw [← ht, targetExponent_eq]
        exact le_max_right _ _
      obtain ⟨f, hf, hfinished⟩ := finished_pos s hpos hlow
      exact .inr ⟨f, hf, hpos, hfinished⟩

end Round

/-! ## Out of range -/

section Range

variable {t T : Int} {r : Nat} {v : ℚ}

/-- A mantissa of 53 bits has one more at most when the rounding carries. -/
theorem RoundsTo.log2_le (h : RoundsTo v r t) (hT : T ≤ 53 + t) (hv : v < 2 ^ T) : r.log2 ≤ 53 := by
  rcases Nat.eq_zero_or_pos r with rfl | hpos
  · exact Nat.zero_le _
  · refine Nat.lt_succ_iff.1 ((Nat.log2_lt hpos.ne').2 ?_)
    by_contra hnot
    have hbound := (h (2 ^ 54) (by norm_num)).1 (not_lt.1 hnot)
    have hpow : (2 : ℚ) ^ T ≤ 2 ^ 53 * 2 ^ t := by
      rw [← zpow_natCast, ← zpow_add₀ two_ne_zero]
      exact zpow_le_zpow_right₀ one_le_two hT
    have hunit : (0 : ℚ) < 2 ^ t := by positivity
    push_cast at hbound
    linarith

/-- With the last exponent that fits, the rounding carries from the limit on. -/
theorem RoundsTo.carry_iff (h : RoundsTo v r 971) : 53 ≤ r.log2 ↔ limit ≤ v := by
  have hround := h (2 ^ 53) (by norm_num)
  rw [Nat.cast_pow, Nat.cast_ofNat, @zpow_eq 971 1 rfl] at hround
  have hlog : 53 ≤ r.log2 ↔ 2 ^ 53 ≤ r := by
    rcases Nat.eq_zero_or_pos r with rfl | hpos
    · exact iff_of_false (by decide) (by decide)
    · exact Nat.le_log2 hpos.ne'
  rw [hlog, hround, limit_eq]
  generalize (2 : ℚ) ^ 970 = u
  constructor
  · intro h
    linarith
  · intro h
    linarith

theorem RoundsTo.pos (h : RoundsTo v r t) (hv : 2 ^ 52 * 2 ^ t ≤ v) : 0 < r := by
  have hunit : (0 : ℚ) < 2 ^ t := by positivity
  have htwo := (h 2 rfl).2 (by push_cast; linarith)
  omega

/-- Numbers of 53 bits with a larger exponent are not below the limit. -/
theorem limit_le_of_exponent (ht : 972 ≤ t) (hv : 2 ^ 52 * 2 ^ t ≤ v) : limit ≤ v := by
  have hunit : (0 : ℚ) < 2 ^ 970 := by positivity
  have hpow : (2 : ℚ) ^ (972 : Int) ≤ 2 ^ t := zpow_le_zpow_right₀ one_le_two ht
  rw [@zpow_eq 972 2 rfl] at hpow
  rw [limit_eq]
  generalize (2 : ℚ) ^ 970 = u at hunit hpow ⊢
  linarith

/-- Numbers that are not below the limit have 1024 binary digits in front of the point. -/
theorem exponent_of_limit_le (hv : v < 2 ^ T) (h : limit ≤ v) : 1024 ≤ T := by
  by_contra hnot
  have hunit : (0 : ℚ) < 2 ^ 970 := by positivity
  have hpow : (2 : ℚ) ^ T ≤ 2 ^ (1023 : Int) := zpow_le_zpow_right₀ one_le_two (by omega)
  rw [@zpow_eq 1023 53 rfl] at hpow
  rw [limit_eq] at h
  generalize (2 : ℚ) ^ 970 = u at hunit hpow h
  linarith

/-- **Rounding goes out of range from the limit on.**  The number has its first binary digit at `T`,
and `t` is the exponent that the target format asks for. -/
theorem exponent_rounded (h : RoundsTo v r t) (ht : t = max (T - 53) (-1074)) (hhigh : v < 2 ^ T)
    (hlow : 2 ^ (T - 1) ≤ v ∨ T ≤ -1073) :
    (972 ≤ max t (max (totalExponent r t - 53) (-1074)) ↔ limit ≤ v) ∧ (limit ≤ v → 0 < r) := by
  have hlog := h.log2_le (by omega) hhigh
  have hlarge (hlast : 971 ≤ t) : 2 ^ 52 * 2 ^ t ≤ v := by
    have hT : T - 1 = 52 + t := by omega
    rcases hlow with hv | hT'
    · rw [hT, zpow_add₀ two_ne_zero] at hv
      exact_mod_cast hv
    · omega
  have hlast (hv : limit ≤ v) : 971 ≤ t := by
    have hT := exponent_of_limit_le hhigh hv
    omega
  rw [totalExponent]
  refine ⟨⟨fun hbeyond => ?_, fun hv => ?_⟩, fun hv => h.pos (hlarge (hlast hv))⟩
  · rcases lt_or_ge t 972 with hlt | hge
    · obtain rfl : t = 971 := by omega
      exact h.carry_iff.1 (by omega)
    · exact limit_le_of_exponent hge (hlarge (by omega))
  · have hge := hlast hv
    rcases lt_or_ge t 972 with hlt | hge
    · obtain rfl : t = 971 := by omega
      have hcarry := h.carry_iff.2 hv
      omega
    · omega

end Range

end DocFacts.Decimal
