import BusinessAtlas.Number.Basic
import Mathlib

/-!
# The range of doubles

A quotient of whole numbers that stays below the largest double is rounded to a finite one, and one
that is at least one is not rounded to zero. The bits of the nearest double are bounded first; the
bits below those of infinity are then read back field by field.
-/

namespace BusinessAtlas

namespace Binary64

section

/-- The quotient of `num / den` by a power of two. -/
def scaled (num den : Nat) (e : Int) : Nat × Nat :=
  if e < 0 then (num * Nat.pow 2 e.natAbs, den) else (num, den * Nat.pow 2 e.natAbs)

def floorAt (num den : Nat) (e : Int) : Nat := (scaled num den e).1 / (scaled num den e).2

def roundedAt (num den : Nat) (e : Int) : Nat :=
  roundQuotient (scaled num den e).1 (scaled num den e).2

private theorem roundedAt_bounds (num den : Nat) (e : Int) :
    floorAt num den e ≤ roundedAt num den e ∧ roundedAt num den e ≤ floorAt num den e + 1 := by
  unfold roundedAt floorAt roundQuotient
  dsimp only
  split
  · omega
  · split <;> omega

private theorem floorAt_lt {num den : Nat} {e : Int} (hden : den ≠ 0)
    (he : (num.log2 : Int) - den.log2 - 53 ≤ e) : floorAt num den e < 2 ^ 54 := by
  have hnum : num < 2 ^ (num.log2 + 1) := Nat.lt_log2_self
  have hself : 2 ^ den.log2 ≤ den := Nat.log2_self_le hden
  unfold floorAt scaled
  split
  · rw [Nat.div_lt_iff_lt_mul (Nat.pos_of_ne_zero hden)]
    calc num * 2 ^ e.natAbs < 2 ^ (num.log2 + 1) * 2 ^ e.natAbs :=
          Nat.mul_lt_mul_of_pos_right hnum (Nat.two_pow_pos _)
      _ = 2 ^ (num.log2 + 1 + e.natAbs) := (Nat.pow_add ..).symm
      _ ≤ 2 ^ (54 + den.log2) := Nat.pow_le_pow_right (by decide) (by omega)
      _ = 2 ^ 54 * 2 ^ den.log2 := Nat.pow_add ..
      _ ≤ 2 ^ 54 * den := Nat.mul_le_mul_left _ hself
  · have hscale : 0 < den * 2 ^ e.natAbs := Nat.mul_pos (Nat.pos_of_ne_zero hden) (Nat.two_pow_pos _)
    refine (Nat.div_lt_iff_lt_mul hscale).mpr ?_
    calc num < 2 ^ (num.log2 + 1) := hnum
      _ ≤ 2 ^ (54 + (den.log2 + e.natAbs)) := Nat.pow_le_pow_right (by decide) (by omega)
      _ = 2 ^ 54 * (2 ^ den.log2 * 2 ^ e.natAbs) := by rw [Nat.pow_add, Nat.pow_add]
      _ ≤ 2 ^ 54 * (den * 2 ^ e.natAbs) := Nat.mul_le_mul_left _ (Nat.mul_le_mul_right _ hself)

theorem le_floorAt_iff {num den c : Nat} {e : Int} (hden : den ≠ 0) :
    c ≤ floorAt num den e ↔ c * (den * 2 ^ e.toNat) ≤ num * 2 ^ (-e).toNat := by
  unfold floorAt scaled
  split
  · have hzero : e.toNat = 0 := by omega
    have hneg : (-e).toNat = e.natAbs := by omega
    rw [hzero, hneg, Nat.pow_zero, Nat.mul_one]
    exact Nat.le_div_iff_mul_le (Nat.pos_of_ne_zero hden)
  · have hzero : (-e).toNat = 0 := by omega
    have hpos : e.toNat = e.natAbs := by omega
    rw [hzero, hpos, Nat.pow_zero, Nat.mul_one]
    exact Nat.le_div_iff_mul_le (Nat.mul_pos (Nat.pos_of_ne_zero hden) (Nat.two_pow_pos _))

/-- The bits hold a significand that is rounded at one of two neighbouring exponents: at the higher
one if there are too many bits at the lower one. -/
theorem nearestBits_cases {num : Nat} (hnum : num ≠ 0) (den : Nat) : ∃ low e,
    low = max ((num.log2 : Int) - den.log2 - 53) (-1074) ∧
      (e = low ∧ floorAt num den low < 2 ^ 53 ∨ e = low + 1 ∧ 2 ^ 53 ≤ floorAt num den low) ∧
      nearestBits num den = min (if roundedAt num den e < 2 ^ 52 then roundedAt num den e
        else (e + 1074).toNat * 2 ^ 52 + roundedAt num den e) (2047 * 2 ^ 52) := by
  let guess : Int := (num.log2 : Int) - den.log2 - 52
  let low : Int := max (guess - 1) (-1074)
  let e : Int := if (scaled num den low).1 / (scaled num den low).2 < Nat.pow 2 53 then low else low + 1
  have hbits : nearestBits num den =
      min (if roundedAt num den e < 2 ^ 52 then roundedAt num den e
        else (e + 1074).toNat * 2 ^ 52 + roundedAt num den e) (2047 * 2 ^ 52) := by
    rw [nearestBits, if_neg (by simpa using hnum)]
    simp only [← Nat.pow_eq]
    rfl
  have he : e = low ∧ floorAt num den low < 2 ^ 53 ∨ e = low + 1 ∧ 2 ^ 53 ≤ floorAt num den low := by
    simp only [e]
    split
    · next h => exact .inl ⟨rfl, h⟩
    · next h => exact .inr ⟨rfl, Nat.le_of_not_lt h⟩
  exact ⟨low, e, by simp only [low, guess]; omega, he, hbits⟩

theorem nearestBits_le (num den : Nat) : nearestBits num den ≤ 2047 * 2 ^ 52 := by
  by_cases hnum : num = 0
  · subst hnum
    simp [nearestBits]
  · obtain ⟨low, e, -, -, hbits⟩ := nearestBits_cases hnum den
    rw [hbits]
    exact Nat.min_le_right _ _

/-- The exponent of a rounded quotient is a few places above that of a power of two that the quotient
is below. -/
theorem nearestBits_div_lt {num den k : Nat} (hden : den ≠ 0) (hnum : num < 2 ^ k * den) :
    nearestBits num den / 2 ^ 52 < k + 1027 := by
  by_cases h0 : num = 0
  · subst h0
    simp [nearestBits]
  obtain ⟨low, e, hlow, he, hbits⟩ := nearestBits_cases h0 den
  obtain ⟨-, hm⟩ := roundedAt_bounds num den e
  have hfloor : floorAt num den e < 2 ^ 54 := floorAt_lt hden (by omega)
  have hlog : num.log2 < k + den.log2 + 1 := by
    rw [Nat.log2_lt h0]
    calc num < 2 ^ k * den := hnum
      _ ≤ 2 ^ k * 2 ^ (den.log2 + 1) := Nat.mul_le_mul_left _ (Nat.le_of_lt Nat.lt_log2_self)
      _ = 2 ^ (k + den.log2 + 1) := (Nat.pow_add ..).symm
  have hfield : (e + 1074).toNat ≤ k + 1022 := by omega
  rw [hbits, Nat.div_lt_iff_lt_mul (Nat.two_pow_pos 52), Nat.add_mul]
  refine Nat.lt_of_le_of_lt (Nat.min_le_left _ _) ?_
  clear hbits he hlow hnum hlog
  split
  · omega
  · omega

theorem le_nearestBits {num den : Nat} (hden : den ≠ 0) (hle : den ≤ num) :
    1023 * 2 ^ 52 ≤ nearestBits num den := by
  have h0 : num ≠ 0 := by omega
  have hlog : den.log2 ≤ num.log2 := by
    rw [Nat.le_log2 h0]
    exact Nat.le_trans (Nat.log2_self_le hden) hle
  have hself : 2 ^ num.log2 ≤ num := Nat.log2_self_le h0
  obtain ⟨low, e, hlow, he, hbits⟩ := nearestBits_cases h0 den
  obtain ⟨hm, -⟩ := roundedAt_bounds num den e
  have hall : -52 ≤ e ∧ 2 ^ 52 ≤ floorAt num den e := by
    rw [le_floorAt_iff hden]
    rcases he with ⟨rfl, hfew⟩ | ⟨rfl, hmany⟩
    · have hnear : num.log2 ≠ den.log2 := by
        intro heq
        have hlow : e = -53 := by omega
        rw [← Nat.not_le, le_floorAt_iff hden, hlow] at hfew
        exact hfew (Nat.mul_comm num _ ▸ Nat.mul_le_mul_left (2 ^ 53) (by simpa using hle))
      refine ⟨by omega, ?_⟩
      calc 2 ^ 52 * (den * 2 ^ e.toNat) ≤ 2 ^ 52 * (2 ^ (den.log2 + 1) * 2 ^ e.toNat) :=
            Nat.mul_le_mul_left _ (Nat.mul_le_mul_right _ (Nat.le_of_lt Nat.lt_log2_self))
        _ = 2 ^ (52 + (den.log2 + 1 + e.toNat)) := by rw [Nat.pow_add 2 52, Nat.pow_add 2 (den.log2 + 1)]
        _ = 2 ^ (num.log2 + (-e).toNat) := by congr 1; omega
        _ = 2 ^ num.log2 * 2 ^ (-e).toNat := Nat.pow_add ..
        _ ≤ num * 2 ^ (-e).toNat := Nat.mul_le_mul_right _ hself
    · refine ⟨by omega, ?_⟩
      rw [le_floorAt_iff hden] at hmany
      by_cases hneg : low < 0
      · have hzero : low.toNat = 0 ∧ (low + 1).toNat = 0 := by omega
        have hnext : (-low).toNat = (-(low + 1)).toNat + 1 := by omega
        rw [hzero.1, hnext, Nat.pow_succ 2 (-(low + 1)).toNat, ← Nat.mul_assoc num] at hmany
        rw [hzero.2]
        omega
      · have hzero : (-low).toNat = 0 ∧ (-(low + 1)).toNat = 0 := by omega
        have hnext : (low + 1).toNat = low.toNat + 1 := by omega
        rw [hzero.1] at hmany
        rw [hzero.2, hnext, Nat.pow_succ 2 low.toNat, ← Nat.mul_assoc den]
        omega
  have hfield : 1022 ≤ (e + 1074).toNat := by omega
  rw [hbits, if_neg (by omega)]
  refine Nat.le_min.mpr ⟨?_, Nat.mul_le_mul_right _ (by decide)⟩
  clear hbits hlow
  omega

end

section

open Float.Model
open Float.Model.UnpackedFloat (unpackSign unpackExponent unpackMantissa isNaNBits pack_unpack)

theorem toNat_signField (v : BitVec 64) :
    (@unpackSign Format.binary64 v).toNat = v.toNat / 2 ^ 63 := by
  simp only [unpackSign, BitVec.toNat_cast, BitVec.extractLsb_toNat, Nat.shiftRight_eq_div_pow]
  show v.toNat / 2 ^ 63 % 2 ^ 1 = v.toNat / 2 ^ 63
  have hv := v.isLt
  omega

theorem toNat_exponentField (v : BitVec 64) :
    (@unpackExponent Format.binary64 v).toNat = v.toNat / 2 ^ 52 % 2 ^ 11 := by
  simp only [unpackExponent, BitVec.toNat_cast, BitVec.extractLsb_toNat, Nat.shiftRight_eq_div_pow]

theorem toNat_fractionField (v : BitVec 64) :
    (@unpackMantissa Format.binary64 v).toNat = v.toNat % 2 ^ 52 := by
  simp only [unpackMantissa, BitVec.toNat_cast, BitVec.extractLsb_toNat, Nat.shiftRight_zero]

theorem toNat_implicit (m : BitVec 52) : (1#1 ++ m).toNat = 2 ^ 52 + m.toNat := by
  rw [BitVec.toNat_append, ← Nat.shiftLeft_add_eq_or_of_lt m.isLt]
  rfl

variable {b : Nat}

theorem toNat_unpackExponent (h : b < 2 ^ 63) :
    (@unpackExponent Format.binary64 (UInt64.ofNat b).toBitVec).toNat = b / 2 ^ 52 := by
  rw [toNat_exponentField]
  show b % 2 ^ 64 / 2 ^ 52 % 2 ^ 11 = b / 2 ^ 52
  omega

private theorem toNat_unpackMantissa (b : Nat) :
    (@unpackMantissa Format.binary64 (UInt64.ofNat b).toBitVec).toNat = b % 2 ^ 52 := by
  rw [toNat_fractionField]
  show b % 2 ^ 64 % 2 ^ 52 = b % 2 ^ 52
  omega

private theorem exponent_ne_of_lt (h : b < 2047 * 2 ^ 52) :
    @unpackExponent Format.binary64 (UInt64.ofNat b).toBitVec ≠ -1#11 := by
  intro he
  have hexponent := toNat_unpackExponent (b := b) (by omega)
  have hones : (-1#11).toNat = 2047 := rfl
  rw [he, hones] at hexponent
  omega

private theorem isNaNBits_eq_false (h : b ≤ 2047 * 2 ^ 52) :
    @isNaNBits Format.binary64 (UInt64.ofNat b).toBitVec = false := by
  apply decide_eq_false
  rintro ⟨he, hm⟩
  have hmantissa := toNat_unpackMantissa b
  rcases Nat.lt_or_eq_of_le h with hlt | rfl
  · exact exponent_ne_of_lt hlt he
  · exact hm (BitVec.eq_of_toNat_eq hmantissa)

theorem toBits_ofBits (h : b ≤ 2047 * 2 ^ 52) :
    (Float.ofBits (UInt64.ofNat b)).toBits = UInt64.ofNat b := by
  have hkept := @pack_unpack Format.binary64 (UInt64.ofNat b).toBitVec (by decide)
  rw [isNaNBits_eq_false h] at hkept
  exact UInt64.toBitVec_inj.mp hkept

theorem isInf_ofBits (h : b < 2047 * 2 ^ 52) : (Float.ofBits (UInt64.ofNat b)).isInf = false := by
  have hkept := congrArg UInt64.toBitVec (toBits_ofBits (Nat.le_of_lt h))
  show (UnpackedFloat.unpack Format.binary64 (Float.ofBits (UInt64.ofNat b)).toBits.toBitVec).isInf =
    false
  rw [hkept, UnpackedFloat.unpack]
  simp only [if_neg (exponent_ne_of_lt h)]
  split
  · split <;> rfl
  · rfl

theorem ofBits_ne_zero (hpos : 0 < b) (h : b ≤ 2047 * 2 ^ 52) :
    (Float.ofBits (UInt64.ofNat b) == 0) = false := by
  have hbits : (Float.ofBits (UInt64.ofNat b)).toBits.toNat = b := by
    rw [toBits_ofBits h]
    exact Nat.mod_eq_of_lt (by omega)
  have hzero : (0 : Float).toBits.toNat = 0 := by decide +kernel
  have hnegative : (-0 : Float).toBits.toNat = 2 ^ 63 := by decide +kernel
  apply Bool.eq_false_iff.mpr
  intro heq
  obtain ⟨-, -, hf | ⟨hf, -⟩ | ⟨hf, -⟩⟩ := Float.beq_iff_ne_nan_and_eq.mp heq
  · rw [hf, hzero] at hbits
    omega
  · rw [hf, hzero] at hbits
    omega
  · rw [hf, hnegative] at hbits
    omega

end

theorem isInf_ofQuotient {num den : Nat} (hden : den ≠ 0) (hnum : num < 2 ^ 64) :
    (ofQuotient num den).isInf = false := by
  have hexponent : nearestBits num den / 2 ^ 52 < 64 + 1027 := nearestBits_div_lt hden
    (Nat.lt_of_lt_of_le hnum (Nat.le_mul_of_pos_right _ (Nat.pos_of_ne_zero hden)))
  exact isInf_ofBits (b := nearestBits num den) (by omega)

theorem ofQuotient_ne_zero {num den : Nat} (hden : den ≠ 0) (hle : den ≤ num) :
    (ofQuotient num den == 0) = false :=
  ofBits_ne_zero (Nat.lt_of_lt_of_le (by decide) (le_nearestBits hden hle)) (nearestBits_le num den)

end Binary64

namespace Number

theorem overflows_int {n : Nat} (h : n < 2 ^ 64) : (int n).overflows = false :=
  Binary64.isInf_ofQuotient (by decide) h

theorem div_int (m n : Nat) : (int m).div (int n) = float (Binary64.ofQuotient m n) := rfl

end Number

end BusinessAtlas
