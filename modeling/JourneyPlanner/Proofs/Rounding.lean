import JourneyPlanner.Proofs.ExactNumbers
import JourneyPlanner.Proofs.FiniteFloats
import Mathlib

/-!
# Rounding keeps lower bounds

A number that a float holds exactly is a bound that rounding respects: what is not less than it
before rounding is not less than it afterwards, whether the sum or product is rounded to digits
that fit or becomes infinite, and packing the result into bits changes nothing. So a product with
a factor of one at least is no less than the other factor, and a sum with a number that is not
negative no less than the other number.
-/

namespace JourneyPlanner.Decimal

open Float.Model (Format UnpackedFloat totalExponent)
open Float.Model.UnpackedFloat

/-- Digits and an exponent as a float holds them: as many binary digits as there is room for,
unless the exponent is the least one. -/
structure Canonical (digits : Nat) (exponent : Int) : Prop where
  /-- The digits fit. -/
  below : digits < 2 ^ 53
  /-- So does the exponent. -/
  least : -1074 ≤ exponent
  /-- There is no room for another digit, unless the exponent is the least one. -/
  full : 2 ^ 52 ≤ digits ∨ exponent = -1074

/-- A float is at least a number: it is infinite, or holds a number that is not less. -/
inductive AtLeast (q : ℚ) : UnpackedFloat → Prop
  /-- Infinity is at least any number. -/
  | infinity : AtLeast q (.infinity .positive)
  /-- So is a larger number. -/
  | finite {digits : Nat} {exponent : Int} {hpos : 0 < digits} (h : Canonical digits exponent)
      (hle : q ≤ digits * 2 ^ exponent) : AtLeast q (.finite .positive digits exponent hpos)

/-- A float is zero, of either sign, or positive. -/
inductive Nonneg : UnpackedFloat → Prop
  /-- Zero is not negative, not even the one with a minus sign. -/
  | zero {sign : Sign} : Nonneg (.zero sign)
  /-- Infinity is positive. -/
  | infinity : Nonneg (.infinity .positive)
  /-- So are numbers without a minus sign. -/
  | finite {digits : Nat} {exponent : Int} {hpos : 0 < digits} :
      Nonneg (.finite .positive digits exponent hpos)

variable {m m₀ : Nat} {e e₀ : Int}

/-! ### The order of canonical numbers -/

/-- Powers of two are positive. -/
theorem two_zpow_pos (e : Int) : (0 : ℚ) < 2 ^ e :=
  zpow_pos (by norm_num) e

/-- What is no less than a positive number has digits. -/
theorem digits_pos (hpos : 0 < m₀) (hle : (m₀ : ℚ) * 2 ^ e₀ ≤ m * 2 ^ e) : 0 < m := by
  have hpositive : (0 : ℚ) < m * 2 ^ e :=
    lt_of_lt_of_le (mul_pos (Nat.cast_pos.2 hpos) (two_zpow_pos e₀)) hle
  exact_mod_cast pos_of_mul_pos_left hpositive (two_zpow_pos e).le

/-- A number with all its digits is larger than one with a smaller exponent. -/
theorem lt_of_exponent_lt (hm : m₀ < 2 ^ 53) (hfull : 2 ^ 52 ≤ m) (he : e₀ < e) :
    (m₀ : ℚ) * 2 ^ e₀ < m * 2 ^ e := by
  have hm : (m₀ : ℚ) < 2 ^ 53 := by exact_mod_cast hm
  have hfull : (2 : ℚ) ^ 52 ≤ m := by exact_mod_cast hfull
  calc (m₀ : ℚ) * 2 ^ e₀ < 2 ^ 53 * 2 ^ e₀ := by gcongr
    _ = 2 ^ 52 * 2 ^ (e₀ + 1) := by rw [zpow_add₀ (by norm_num)]; norm_num; ring
    _ ≤ 2 ^ 52 * 2 ^ e := by
      gcongr
      · norm_num
      · omega
    _ ≤ m * 2 ^ e := by gcongr

/-- Floats are compared as the numbers they hold. -/
theorem le_finite_iff {hpos₀ : 0 < m₀} {hpos : 0 < m} (h₀ : Canonical m₀ e₀)
    (h : Canonical m e) :
    (UnpackedFloat.finite .positive m₀ e₀ hpos₀).le (.finite .positive m e hpos) = true ↔
      (m₀ : ℚ) * 2 ^ e₀ ≤ m * 2 ^ e := by
  change ((compare e₀ e).then (compare m₀ m)).isLE = true ↔ _
  rcases lt_trichotomy e₀ e with hlt | rfl | hgt
  · have hfull : 2 ^ 52 ≤ m := h.full.resolve_right (by have := h₀.least; omega)
    rw [compare_lt_iff_lt.2 hlt]
    exact iff_of_true rfl (lt_of_exponent_lt h₀.below hfull hlt).le
  · rw [compare_eq_iff_eq.2 rfl, Ordering.eq_then, Nat.isLE_compare,
      mul_le_mul_iff_of_pos_right (two_zpow_pos e₀), Nat.cast_le]
  · have hfull : 2 ^ 52 ≤ m₀ := h₀.full.resolve_right (by have := h.least; omega)
    rw [compare_gt_iff_gt.2 hgt]
    exact iff_of_false Bool.false_ne_true (not_le.2 (lt_of_exponent_lt h.below hfull hgt))

/-- A float that is at least a number is not less than the float that holds it. -/
theorem AtLeast.le {f : UnpackedFloat} {hpos : 0 < m₀} (h₀ : Canonical m₀ e₀)
    (h : AtLeast (m₀ * 2 ^ e₀) f) : (UnpackedFloat.finite .positive m₀ e₀ hpos).le f = true := by
  cases h with
  | infinity => rfl
  | finite h hle => exact (le_finite_iff h₀ h).2 hle

/-- A float that is at least some number is positive. -/
theorem AtLeast.nonneg {q : ℚ} {f : UnpackedFloat} (h : AtLeast q f) : Nonneg f := by
  cases h with
  | infinity => exact .infinity
  | finite => exact .finite

/-- Zero is not larger than what is not negative. -/
theorem Nonneg.zero_le {f : UnpackedFloat} (h : Nonneg f) :
    (UnpackedFloat.zero .positive).le f = true := by
  cases h <;> rfl

/-- What is not less than zero is not negative. -/
theorem nonneg_of_zero_le {f : UnpackedFloat}
    (h : (UnpackedFloat.zero .negative).le f = true) : Nonneg f := by
  rcases f with ⟨_ | _⟩ | _ | _ | ⟨_ | _, m, e, hpos⟩
  all_goals first | constructor | cases h

/-! ### Rounding -/

/-- The binary digits that are left after some have been shifted out. -/
theorem mantissa_shiftRight (em : ExtendedMantissa) (k : Nat) :
    (em >>> k).mantissa = em.mantissa / 2 ^ k := by
  induction k with
  | zero => rw [Nat.pow_zero, Nat.div_one]; rfl
  | succ k ih =>
    have hstep : (em >>> (k + 1)).mantissa = (em >>> k).mantissa / 2 := rfl
    rw [hstep, ih, Nat.div_div_eq_div_mul, Nat.pow_succ]

/-- Digits are rounded down or up by one. -/
theorem roundedMantissa_bounds (em : ExtendedMantissa) :
    em.mantissa ≤ em.roundedMantissa ∧ em.roundedMantissa ≤ em.mantissa + 1 := by
  obtain ⟨digits, half, rest⟩ := em
  have hparity : digits % 2 ≤ 1 := Nat.lt_succ_iff.1 (Nat.mod_lt _ (by decide))
  cases half <;> cases rest
  · exact ⟨Nat.le_refl _, Nat.le_succ _⟩
  · exact ⟨Nat.le_refl _, Nat.le_succ _⟩
  · exact ⟨Nat.le_add_right _ _, Nat.add_le_add_left hparity _⟩
  · exact ⟨Nat.le_succ _, Nat.le_refl _⟩

/-- The exponent a number is rounded to leaves room for 53 digits. -/
theorem targetExponent_eq (m : Nat) (e : Int) :
    Format.binary64.targetExponent (totalExponent m e) = max (m.log2 + e - 52) (-1074) := by
  have hleast : Format.binary64.minExponent = -1074 := by decide
  have hdigits : (Format.binary64.mantissaBits : Int) = 53 := by decide
  rw [Format.targetExponent, hleast, hdigits, totalExponent]
  congr 1
  omega

/-- Digits that have been rounded up to one more than fit end in a zero, which is dropped. -/
theorem canonical_shifted {r k : Nat} {t : Int} (hr : r ≤ 2 ^ 53) (ht : -1074 ≤ t)
    (hfull : 2 ^ 52 ≤ r ∨ t = -1074)
    (hk : k = (Format.binary64.targetExponent (totalExponent r t) - t).toNat) :
    Canonical (r / 2 ^ k) (t + k) ∧ ((r / 2 ^ k : Nat) : ℚ) * 2 ^ (t + k) = r * 2 ^ t := by
  rw [targetExponent_eq] at hk
  rcases Nat.lt_or_eq_of_le hr with hlt | rfl
  · have hlog : r.log2 ≤ 52 := by
      by_cases hzero : r = 0
      · rw [hzero]; decide
      · exact Nat.lt_succ_iff.1 ((Nat.log2_lt hzero).2 hlt)
    obtain rfl : k = 0 := by omega
    rw [Nat.pow_zero, Nat.div_one, Int.natCast_zero, Int.add_zero]
    exact ⟨⟨hlt, ht, hfull⟩, rfl⟩
  · have hlog : (2 ^ 53).log2 = 53 := Nat.log2_two_pow
    obtain rfl : k = 1 := by omega
    refine ⟨⟨by decide, by omega, Or.inl (by decide)⟩, ?_⟩
    rw [zpow_add₀ (by norm_num)]
    norm_num
    ring

/-- Rounding shifts digits out, rounds what is left and, if there is one digit too many then,
shifts once more. -/
theorem roundWithAccuracy_eq (m : Nat) (e : Int) :
    ∃ k r k' : Nat, k = (Format.binary64.targetExponent (totalExponent m e) - e).toNat ∧
      m / 2 ^ k ≤ r ∧ r ≤ m / 2 ^ k + 1 ∧
      k' = (Format.binary64.targetExponent (totalExponent r (e + k)) - (e + k)).toNat ∧
      ∀ h : 0 < r / 2 ^ k', roundWithAccuracy .binary64 .positive m e .exact =
        .finite .positive (r / 2 ^ k') (e + k + k') h := by
  have hshift : ∀ (n : Nat) (f : Int), shiftToTargetExponent .binary64 n f .exact =
      (ExtendedMantissa.mk n false false >>>
          (Format.binary64.targetExponent (totalExponent n f) - f).toNat,
        f + (Format.binary64.targetExponent (totalExponent n f) - f).toNat) := fun _ _ => rfl
  obtain ⟨hlow, hhigh⟩ := roundedMantissa_bounds (shiftToTargetExponent .binary64 m e .exact).1
  rw [hshift, mantissa_shiftRight] at hlow hhigh
  refine ⟨_, _, _, rfl, hlow, hhigh, rfl, fun h => ?_⟩
  unfold roundWithAccuracy
  simp only [hshift, mantissa_shiftRight]
  rw [dif_neg (Nat.ne_of_gt h)]

/-- The digits that are shifted out first leave as many as fit, or the least exponent. -/
theorem full_of_shifted {k : Nat} (hm : 0 < m) (hk : e + k = max (m.log2 + e - 52) (-1074)) :
    m / 2 ^ k < 2 ^ 53 ∧ (2 ^ 52 ≤ m / 2 ^ k ∨ e + k = -1074) := by
  constructor
  · rw [Nat.div_lt_iff_lt_mul (by positivity), ← Nat.pow_add]
    exact Nat.lt_of_lt_of_le Nat.lt_log2_self (Nat.pow_le_pow_right (by decide) (by omega))
  · by_cases hleast : e + k = -1074
    · exact Or.inr hleast
    · have hlog : m.log2 = 52 + k := by omega
      left
      rw [Nat.le_div_iff_mul_le (by positivity), ← Nat.pow_add, ← hlog]
      exact Nat.log2_self_le (Nat.ne_of_gt hm)

/-- Shifting digits out does not take a number below a canonical one. -/
theorem le_shifted {k : Nat} (h₀ : Canonical m₀ e₀) (hle : (m₀ : ℚ) * 2 ^ e₀ ≤ m * 2 ^ e)
    (hfull : 2 ^ 52 ≤ m / 2 ^ k ∨ e + k = -1074) :
    (m₀ : ℚ) * 2 ^ e₀ ≤ (m / 2 ^ k : Nat) * 2 ^ (e + k) := by
  rcases lt_or_ge e₀ (e + k) with hlt | hge
  · have hnormal : 2 ^ 52 ≤ m / 2 ^ k := hfull.resolve_right (by have := h₀.least; omega)
    exact (lt_of_exponent_lt h₀.below hnormal hlt).le
  · -- The canonical number is a multiple of the unit of the digits that are left.
    obtain ⟨d, hd⟩ := Int.eq_ofNat_of_zero_le (Int.sub_nonneg_of_le hge)
    obtain rfl : e₀ = e + k + d := by omega
    have hwhole : m₀ * 2 ^ d ≤ m / 2 ^ k := by
      rw [Nat.le_div_iff_mul_le (by positivity)]
      have hscaled : (m₀ * 2 ^ d * 2 ^ k : ℚ) * 2 ^ e ≤ m * 2 ^ e := by
        refine le_trans (le_of_eq ?_) hle
        rw [zpow_add₀ (by norm_num), zpow_add₀ (by norm_num), zpow_natCast, zpow_natCast]
        ring
      exact_mod_cast le_of_mul_le_mul_right hscaled (two_zpow_pos e)
    have hwhole : (m₀ : ℚ) * 2 ^ d ≤ (m / 2 ^ k : Nat) := by exact_mod_cast hwhole
    calc (m₀ : ℚ) * 2 ^ (e + k + d) = m₀ * 2 ^ d * 2 ^ (e + k) := by
          rw [zpow_add₀ (by norm_num), zpow_natCast]; ring
      _ ≤ (m / 2 ^ k : Nat) * 2 ^ (e + k) := by gcongr

/-- What is no less than a canonical number is rounded to no less, if it has all the digits that
can be kept. -/
theorem atLeast_roundWithAccuracy (h₀ : Canonical m₀ e₀) (hpos : 0 < m₀)
    (hle : (m₀ : ℚ) * 2 ^ e₀ ≤ m * 2 ^ e)
    (he : e ≤ Format.binary64.targetExponent (totalExponent m e)) :
    AtLeast (m₀ * 2 ^ e₀) (roundWithAccuracy .binary64 .positive m e .exact) := by
  obtain ⟨k, r, k', hk, hlow, hhigh, hk', hround⟩ := roundWithAccuracy_eq m e
  have htarget : e + k = max (m.log2 + e - 52) (-1074) := by
    rw [← targetExponent_eq]
    omega
  obtain ⟨hfit, hfull⟩ := full_of_shifted (digits_pos hpos hle) htarget
  obtain ⟨hcanonical, hvalue⟩ := canonical_shifted (by omega) (by omega)
    (hfull.imp_left fun h => Nat.le_trans h hlow) hk'
  have hrounded : (m₀ : ℚ) * 2 ^ e₀ ≤ (r / 2 ^ k' : Nat) * 2 ^ (e + k + k') := by
    have hlow : ((m / 2 ^ k : Nat) : ℚ) ≤ r := by exact_mod_cast hlow
    rw [hvalue]
    exact (le_shifted h₀ hle hfull).trans (by gcongr)
  rw [hround (digits_pos hpos hrounded)]
  exact .finite hcanonical hrounded

/-- Zeros put behind the last digit count as digits. -/
theorem log2_shiftLeft (hm : m ≠ 0) (k : Nat) : (m <<< k).log2 = m.log2 + k := by
  induction k with
  | zero => rfl
  | succ k ih =>
    have hne : m <<< k ≠ 0 := by
      rw [Nat.shiftLeft_eq]
      positivity
    rw [Nat.shiftLeft_succ, Nat.log2_two_mul hne, ih, Nat.add_assoc]

/-- Zeros put behind the last digit make up for a smaller exponent. -/
theorem shiftLeft_mul_zpow (m k : Nat) (e : Int) :
    ((m <<< k : Nat) : ℚ) * 2 ^ (e - k) = m * 2 ^ e := by
  rw [Nat.shiftLeft_eq, Nat.cast_mul, Nat.cast_pow, Nat.cast_ofNat, mul_assoc, ← zpow_natCast,
    ← zpow_add₀ (by norm_num), add_sub_cancel]

/-- What is no less than a canonical number is rounded to no less. -/
theorem atLeast_round (h₀ : Canonical m₀ e₀) (hpos : 0 < m₀)
    (hle : (m₀ : ℚ) * 2 ^ e₀ ≤ m * 2 ^ e) :
    AtLeast (m₀ * 2 ^ e₀) (round .binary64 .positive m e) := by
  refine atLeast_roundWithAccuracy h₀ hpos ?_ ?_
  · rwa [shiftLeft_mul_zpow]
  · have hm : m ≠ 0 := Nat.ne_of_gt (digits_pos hpos hle)
    rw [targetExponent_eq, targetExponent_eq, log2_shiftLeft hm]
    omega

/-! ### Packing -/

/-- The first digit, which is not stored, stands in front of the others. -/
theorem toNat_first_append (digits : BitVec 52) :
    (1#1 ++ digits).toNat = 2 ^ 52 + digits.toNat := by
  rw [BitVec.toNat_append, ← Nat.shiftLeft_add_eq_or_of_lt digits.isLt]
  rfl

/-- Infinity is unpacked as it was packed. -/
theorem unpack_packedInfinity (sign : Sign) :
    unpack .binary64 (packedInfinity .binary64 sign) = .infinity sign := by
  simp only [unpack, packedInfinity, unpackExponent_packComponents,
    unpackMantissa_packComponents, unpackSign_packComponents, Sign.ofBitVec_toBitVec]
  rfl

/-- A number with all its digits is unpacked with the first one. -/
theorem unpack_normal {sign : Sign} {exponent : Nat} (hpos : 0 < exponent)
    (hsmall : exponent < 2047) (hfull : 2 ^ 52 ≤ m) (hfit : m < 2 ^ 53) :
    unpack .binary64 (packComponents .binary64 sign (.ofNat 11 exponent) (.ofNat 52 m)) =
      .finite sign m (exponent - 1075) (by omega) := by
  have hexponent : (BitVec.ofNat 11 exponent).toNat = exponent := by
    rw [BitVec.toNat_ofNat, Nat.mod_eq_of_lt (by omega)]
  have hdigits : (1#1 ++ BitVec.ofNat 52 m).toNat = m := by
    rw [toNat_first_append, BitVec.toNat_ofNat]
    omega
  have hbias : (Format.binary64.exponentBias : Int) = 1023 := by decide
  have hbits : (Format.binary64.mantissaBitsWithoutImplicit : Int) = 52 := by decide
  simp only [unpack, unpackExponent_packComponents, unpackMantissa_packComponents,
    unpackSign_packComponents, Sign.ofBitVec_toBitVec]
  rw [if_neg, if_neg]
  · congr 1
    rw [hexponent, hbias, hbits]
    omega
  · rw [← BitVec.toNat_inj, hexponent]
    change ¬_ = 0
    omega
  · rw [← BitVec.toNat_inj, hexponent]
    change ¬_ = 2047
    omega

/-- A number of the least exponent is unpacked with the digits that are stored. -/
theorem unpack_subnormal {sign : Sign} (hpos : 0 < m) (hsmall : m < 2 ^ 52) :
    unpack .binary64 (packComponents .binary64 sign 0#11 (.ofNat 52 m)) =
      .finite sign m (-1074) hpos := by
  have hdigits : (BitVec.ofNat 52 m).toNat = m := by
    rw [BitVec.toNat_ofNat, Nat.mod_eq_of_lt hsmall]
  simp only [unpack, unpackExponent_packComponents, unpackMantissa_packComponents,
    unpackSign_packComponents, Sign.ofBitVec_toBitVec]
  rw [if_neg (by decide), if_pos trivial, dif_neg]
  · congr 1
  · rw [← BitVec.toNat_inj, hdigits]
    change ¬_ = 0
    omega

/-- A canonical number is unpacked as it was packed, unless its exponent is too large: it has
become infinite then. -/
theorem unpack_pack (h : Canonical m e) (hpos : 0 < m) (sign : Sign) :
    (Float.Model.pack (.finite sign m e hpos)).unpack = .infinity sign ∨
      (Float.Model.pack (.finite sign m e hpos)).unpack = .finite sign m e hpos := by
  have hpack : (Float.Model.pack (.finite sign m e hpos)).unpack =
      unpack .binary64 (pack .binary64 (.finite sign m e hpos)) := rfl
  have hbias : (Format.binary64.exponentBias : Int) = 1023 := by decide
  have hbits : (Format.binary64.mantissaBitsWithoutImplicit : Int) = 52 := by decide
  have hdigits : Format.binary64.mantissaBits = 53 := by decide
  rw [hpack, UnpackedFloat.pack]
  dsimp only
  rw [hbias, hbits, hdigits]
  obtain ⟨hbelow, hleast, hfull⟩ := h
  by_cases hlarge : 2 ^ Format.binary64.exponentBits ≤ (e + 1023 + 52).toNat + 1
  · left
    rw [if_pos hlarge, unpack_packedInfinity]
  · right
    rw [if_neg hlarge]
    change ¬2048 ≤ (e + 1023 + 52).toNat + 1 at hlarge
    by_cases hnormal : 2 ^ 52 ≤ m
    · have hlog : m.log2 + 1 = 53 := by
        rw [(Nat.log2_eq_iff (Nat.ne_of_gt hpos)).2 ⟨hnormal, hbelow⟩]
      rw [if_pos hlog, unpack_normal (by omega) (by omega) hnormal hbelow]
      congr 1
      omega
    · have hsmall : m < 2 ^ 52 := Nat.lt_of_not_le hnormal
      have hlog : m.log2 + 1 ≠ 53 := by
        have hlog := (Nat.log2_lt (Nat.ne_of_gt hpos)).2 hsmall
        omega
      obtain rfl := hfull.resolve_left hnormal
      rw [if_neg hlog, unpack_subnormal hpos hsmall]

/-- A number that is unpacked is canonical. -/
theorem canonical_of_unpack {x : Float.Model} {sign : Sign} {hpos : 0 < m}
    (h : x.unpack = .finite sign m e hpos) : Canonical m e := by
  have hbias : (Format.binary64.exponentBias : Int) = 1023 := by decide
  rw [Float.Model.unpack, unpack] at h
  dsimp only at h
  generalize hbits : x.toBits.toBitVec = bits at h
  have hdigits := (@unpackMantissa Format.binary64 bits).isLt
  by_cases hfull : @unpackExponent Format.binary64 bits = -.ofNat _ 1
  · rw [if_pos hfull] at h
    by_cases hzero : @unpackMantissa Format.binary64 bits = .ofNat _ 0
    · rw [if_pos hzero] at h
      cases h
    · rw [if_neg hzero] at h
      cases h
  · rw [if_neg hfull] at h
    by_cases hsmall : @unpackExponent Format.binary64 bits = .ofNat _ 0
    · rw [if_pos hsmall] at h
      by_cases hzero : @unpackMantissa Format.binary64 bits = .ofNat _ 0
      · rw [dif_pos hzero] at h
        cases h
      · rw [dif_neg hzero, hsmall] at h
        cases h
        refine ⟨?_, ?_, Or.inr ?_⟩
        · change _ < 2 ^ 52 at hdigits
          omega
        · rw [hbias]; decide
        · rw [hbias]; decide
    · rw [if_neg hsmall] at h
      cases h
      have hnormal := toNat_first_append (@unpackMantissa Format.binary64 bits)
      rw [hnormal, hbias]
      change _ < 2 ^ 52 at hdigits
      refine ⟨by omega, ?_, Or.inl (Nat.le_add_right _ _)⟩
      rw [← BitVec.toNat_inj] at hsmall
      change ¬_ = 0 at hsmall
      change -1074 ≤ _ - (1023 + 52 : Int)
      omega

/-- Packing a float leaves it at least a number. -/
theorem AtLeast.unpack_pack {q : ℚ} {f : UnpackedFloat} (h : AtLeast q f) :
    AtLeast q (Float.Model.pack f).unpack := by
  cases h with
  | infinity => exact .infinity
  | @finite digits exponent hpos hcanonical hle =>
    rcases Decimal.unpack_pack hcanonical hpos .positive with hinfinite | hsame
    · rw [hinfinite]
      exact .infinity
    · rw [hsame]
      exact .finite hcanonical hle

/-! ### Sums and products -/

/-- A product with a factor of one at least is no less than the other factor. -/
theorem atLeast_mul {k : UnpackedFloat} {hpos : 0 < m₀} (h₀ : Canonical m₀ e₀)
    (hk : AtLeast 1 k) :
    AtLeast (m₀ * 2 ^ e₀) (mul .binary64 k (.finite .positive m₀ e₀ hpos)) := by
  cases hk with
  | infinity => exact .infinity
  | @finite m e hpos' h hone =>
    refine atLeast_roundWithAccuracy h₀ hpos ?_ ?_
    · have hunit := two_zpow_pos e₀
      rw [Nat.cast_mul, zpow_add₀ (by norm_num)]
      calc (m₀ : ℚ) * 2 ^ e₀ = 1 * (m₀ * 2 ^ e₀) := (one_mul _).symm
        _ ≤ m * 2 ^ e * (m₀ * 2 ^ e₀) := by gcongr
        _ = m * m₀ * (2 ^ e * 2 ^ e₀) := by ring
    · rw [targetExponent_eq]
      by_cases hlarge : 2 ^ 52 ≤ m * m₀
      · have hlog : 52 ≤ (m * m₀).log2 := (Nat.le_log2 (by positivity)).2 hlarge
        omega
      · -- Neither number has all its digits, so both have the least exponent.
        have hm : m ≤ m * m₀ := Nat.le_mul_of_pos_right m hpos
        have hm₀ : m₀ ≤ m * m₀ := Nat.le_mul_of_pos_left m₀ hpos'
        have he : e = -1074 := h.full.resolve_left (by omega)
        have he₀ : e₀ = -1074 := h₀.full.resolve_left (by omega)
        omega

/-- A product of zero and a number that is one at least is zero. -/
theorem mul_zero_of_atLeast {k : UnpackedFloat} (hk : AtLeast 1 k) (hfinite : ¬Unbounded k) :
    mul .binary64 k (.zero .positive) = .zero .positive := by
  cases hk with
  | infinity => exact absurd trivial hfinite
  | finite => rfl

/-- A product of infinity and what is one at least is infinite. -/
theorem mul_infinity_of_atLeast {k : UnpackedFloat} (hk : AtLeast 1 k) :
    mul .binary64 k (.infinity .positive) = .infinity .positive := by
  cases hk <;> rfl

/-- A sum of infinity and what is not negative is infinite. -/
theorem add_infinity_of_nonneg {a : UnpackedFloat} (ha : Nonneg a) :
    add .binary64 a (.infinity .positive) = .infinity .positive := by
  cases ha <;> rfl

/-- The sum of two positive numbers is rounded to a positive one. -/
theorem add_finite {k m : Nat} {f e : Int} (hk : 0 < k) (hm : 0 < m) :
    add .binary64 (.finite .positive k f hk) (.finite .positive m e hm) =
      round .binary64 .positive (k <<< (f - min f e).toNat + m <<< (e - min f e).toNat)
        (min f e) := by
  have hk' : 0 < k <<< (f - min f e).toNat := by
    rw [Nat.shiftLeft_eq]
    positivity
  have hsign : compare ((k <<< (f - min f e).toNat : Nat) + (m <<< (e - min f e).toNat : Nat) :
      Int) 0 = .gt := compare_gt_iff_gt.2 (by positivity)
  change UnpackedFloat.normalize .binary64 ((k <<< (f - min f e).toNat : Nat) +
    (m <<< (e - min f e).toNat : Nat) : Int) (min f e) .positive = _
  rw [UnpackedFloat.normalize, hsign]
  rfl

/-- A sum with what is not negative is no less than the other number. -/
theorem atLeast_add {a y : UnpackedFloat} (h₀ : Canonical m₀ e₀) (hpos : 0 < m₀)
    (ha : Nonneg a) (hy : AtLeast (m₀ * 2 ^ e₀) y) :
    AtLeast (m₀ * 2 ^ e₀) (add .binary64 a y) := by
  cases hy with
  | infinity =>
    rw [add_infinity_of_nonneg ha]
    exact .infinity
  | @finite m e hpos' h hle =>
    cases ha with
    | zero => exact .finite h hle
    | infinity => exact .infinity
    | @finite k f hk =>
      rw [add_finite]
      refine atLeast_round h₀ hpos (hle.trans ?_)
      have hshifted := shiftLeft_mul_zpow m (e - min f e).toNat e
      rw [Int.toNat_of_nonneg (by omega), sub_sub_cancel] at hshifted
      rw [← hshifted, Nat.cast_add]
      exact mul_le_mul_of_nonneg_right (le_add_of_nonneg_left (Nat.cast_nonneg _))
        (two_zpow_pos _).le

/-! ### Whole numbers -/

/-- One has all its digits. -/
theorem canonical_one : Canonical (2 ^ 52) (-52) :=
  ⟨by decide, by decide, Or.inl (by decide)⟩

/-- The number that these digits hold. -/
theorem value_one : ((2 ^ 52 : Nat) : ℚ) * 2 ^ (-52 : Int) = 1 := by
  norm_num

/-- The first power of ten is one. -/
theorem unpack_powersOfTen : Float.exactlyRepresentablePowersOfTen[0].toModel.unpack =
    .finite .positive (2 ^ 52) (-52) (by decide) :=
  rfl

/-- A small whole number is converted by rounding it. -/
theorem ofUInt64_eq {n : Nat} (hn : 0 < n) (hsmall : n < 2 ^ 53) :
    UnpackedFloat.ofUInt64 .binary64 n.toUInt64 = round .binary64 .positive n 0 := by
  have hwhole : n.toUInt64.toNat = n := by
    rw [Nat.toUInt64_eq, UInt64.toNat_ofNat']
    omega
  rw [ofUInt64, ofNat, ofInt, hwhole, UnpackedFloat.normalize, compare_gt_iff_gt.2 (by omega)]
  dsimp only
  rw [Int.toNat_natCast]

/-- A large one is rounded with more digits than can be kept. -/
theorem ofScientific_eq {n : Nat} (hn : 0 < n) :
    UnpackedFloat.ofScientific .binary64 n 0 =
      roundWithAccuracy .binary64 .positive (n <<< 53) (-53) .exact := by
  have hroom : (0 : Int) ≤ 2 ^ Format.binary64.exponentBits := by decide
  rw [UnpackedFloat.ofScientific, dif_neg (by omega), if_neg (by decide), if_neg (by omega),
    if_pos (by decide)]
  change roundWithAccuracy .binary64 .positive (n <<< 53 * 1) (-53 + 0) .exact = _
  rw [Nat.mul_one, Int.add_zero]

/-- A whole number is converted in one of these two ways. -/
theorem ofNat_eq {n : Nat} (hn : 0 < n) : Float.ofNat n = Float.ofModel (Float.Model.pack
    (if n < 2 ^ 53 then
      mul .binary64 (Float.Model.pack (round .binary64 .positive n 0)).unpack
        (.finite .positive (2 ^ 52) (-52) (by decide))
    else roundWithAccuracy .binary64 .positive (n <<< 53) (-53) .exact)) := by
  change Float.ofScientific n false 0 = _
  rw [Float.ofScientific]
  by_cases hsmall : n < 2 ^ 53
  · rw [if_pos hsmall, dif_pos ⟨hsmall, by decide⟩]
    dsimp only
    rw [if_neg (by decide), ← unpack_powersOfTen, ← ofUInt64_eq hn hsmall]
    rfl
  · rw [if_neg hsmall, dif_neg (fun h => hsmall h.1)]
    dsimp only
    rw [if_neg (by decide), ← ofScientific_eq hn]
    rfl

/-- A whole number that is not zero is converted to a float that is at least one. -/
theorem atLeast_one_ofNat {n : Nat} (hn : 0 < n) : AtLeast 1 (Float.ofNat n).toModel.unpack := by
  have hone : ((2 ^ 52 : Nat) : ℚ) * 2 ^ (-52 : Int) ≤ n * 2 ^ (0 : Int) := by
    rw [value_one, zpow_zero, mul_one]
    exact_mod_cast hn
  have hdigits : 0 < 2 ^ 52 := by decide
  rw [ofNat_eq hn, ← value_one]
  refine AtLeast.unpack_pack ?_
  by_cases hsmall : n < 2 ^ 53
  · rw [if_pos hsmall]
    refine atLeast_mul canonical_one ?_
    rw [← value_one]
    exact AtLeast.unpack_pack (atLeast_round canonical_one hdigits hone)
  · rw [if_neg hsmall]
    refine atLeast_roundWithAccuracy canonical_one hdigits ?_ ?_
    · have hshifted := shiftLeft_mul_zpow n 53 0
      rw [zero_sub, Nat.cast_ofNat] at hshifted
      rwa [hshifted]
    · rw [targetExponent_eq, log2_shiftLeft (Nat.ne_of_gt hn)]
      omega

/-- A float that is not less than one is at least one. -/
theorem atLeast_one_of_le {x : Float.Model}
    (h : (Float.ofInt 1).toModel.unpack.le x.unpack = true) : AtLeast 1 x.unpack := by
  have hunpack : (Float.ofInt 1).toModel.unpack =
    .finite .positive (2 ^ 52) (-52) (by decide) := rfl
  rw [hunpack] at h
  generalize hx : x.unpack = f at h ⊢
  have hnonneg : Nonneg f := by
    rcases f with ⟨_ | _⟩ | _ | _ | ⟨_ | _, m, e, hpos⟩
    all_goals first | constructor | cases h
  cases hnonneg with
  | zero => cases h
  | infinity => exact .infinity
  | finite =>
    have hcanonical := canonical_of_unpack hx
    rw [le_finite_iff canonical_one hcanonical, value_one] at h
    exact .finite hcanonical h

/-! ### Limits -/

/-- Adding zero does not make negative what is not. -/
theorem nonneg_add_zero {x : Float.Model} (h : Nonneg x.unpack) :
    Nonneg (Float.Model.pack (add .binary64 x.unpack (.zero .positive))).unpack := by
  generalize hx : x.unpack = f at h ⊢
  cases h with
  | @zero sign => cases sign <;> exact .zero
  | infinity => exact .infinity
  | finite => exact (AtLeast.unpack_pack (.finite (canonical_of_unpack hx) le_rfl)).nonneg

section Parameters

variable {a k : Float}

/-- What is not less than zero stands for a number that is not. -/
theorem exactly_nonneg (ha : -0.0 ≤ a) : 0 ≤ exactly a := by
  have ha : Nonneg a.toModel.unpack := nonneg_of_zero_le (of_decide_eq_true ha)
  rw [exactly]
  generalize a.toModel.unpack = f at ha
  cases ha with
  | zero => exact le_rfl
  | infinity => exact le_rfl
  | @finite digits exponent _ =>
    exact mul_nonneg (Nat.cast_nonneg digits) (two_zpow_pos exponent).le

/-- What is finite and not less than one stands for a number that is not. -/
theorem one_le_exactly (hfinite : isFinite k = true) (hk : Float.ofInt 1 ≤ k) : 1 ≤ exactly k := by
  have hk : AtLeast 1 k.toModel.unpack := atLeast_one_of_le (of_decide_eq_true hk)
  rw [isFinite_iff_unpack] at hfinite
  rw [exactly]
  generalize k.toModel.unpack = f at hk hfinite
  cases hk with
  | infinity => exact absurd trivial hfinite
  | finite h hle => exact hle

/-- A whole number is no larger than its product with a finite number that is one at least, even
after another number has been added that is not negative. -/
theorem le_add_mul (hfinite : isFinite k = true) (ha : -0.0 ≤ a) (hk : Float.ofInt 1 ≤ k)
    (n : Nat) : Float.ofNat n ≤ a + k * Float.ofNat n := by
  have ha : Nonneg a.toModel.unpack := nonneg_of_zero_le (of_decide_eq_true ha)
  have hk : AtLeast 1 k.toModel.unpack := atLeast_one_of_le (of_decide_eq_true hk)
  rw [isFinite_iff_unpack] at hfinite
  suffices h : (Float.ofNat n).toModel.unpack.le (Float.Model.pack (add .binary64 a.toModel.unpack
      (Float.Model.pack (mul .binary64 k.toModel.unpack
        (Float.ofNat n).toModel.unpack)).unpack)).unpack = true from decide_eq_true h
  rcases Nat.eq_zero_or_pos n with rfl | hn
  · have hzero : (Float.ofNat 0).toModel.unpack = .zero .positive := rfl
    have hpacked : (Float.Model.pack (.zero .positive)).unpack = .zero .positive := rfl
    rw [hzero, mul_zero_of_atLeast hk hfinite, hpacked]
    exact (nonneg_add_zero ha).zero_le
  · have hn := atLeast_one_ofNat hn
    generalize hx : (Float.ofNat n).toModel.unpack = x at hn ⊢
    cases hn with
    | infinity =>
      have hpacked : (Float.Model.pack (.infinity .positive)).unpack = .infinity .positive := rfl
      rw [mul_infinity_of_atLeast hk, hpacked, add_infinity_of_nonneg ha, hpacked]
      rfl
    | @finite m e hpos =>
      have hcanonical := canonical_of_unpack hx
      exact AtLeast.le hcanonical (AtLeast.unpack_pack (atLeast_add hcanonical hpos ha
        (AtLeast.unpack_pack (atLeast_mul hcanonical hk))))

end Parameters

end JourneyPlanner.Decimal
