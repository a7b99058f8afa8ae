import BusinessAtlas.Proofs.Number.Order

/-!
# The nearest double

A positive number is rounded to the double whose neighbours are farther away. A number halfway between
two doubles is rounded to the one with the even significand. Below a power of two the neighbour is half
as far away as above it, and a number that is rounded up to the power has bits that carry over.
-/

namespace BusinessAtlas.Binary64

section Quotients

/-- A number that is rounded to a whole one. -/
structure RoundsTo (m : Nat) (u : ℚ) : Prop where
  low : m - 1 / 2 ≤ u
  high : u ≤ m + 1 / 2
  odd : m % 2 = 1 → m - 1 / 2 < u ∧ u < m + 1 / 2

/-- The same without a quotient. -/
private theorem RoundsTo.products {num den m : Nat} (hden : 0 < den) (h : RoundsTo m (num / den)) :
    den * (2 * m) ≤ 2 * num + den ∧ 2 * num ≤ den * (2 * m) + den ∧
      (m % 2 = 1 → den * (2 * m) < 2 * num + den ∧ 2 * num < den * (2 * m) + den) := by
  have hden' : (0 : ℚ) < den := by exact_mod_cast hden
  have hlow : (den * (2 * m) : ℚ) ≤ 2 * num + den := by
    have hle := (le_div_iff₀ hden').mp h.low
    linarith
  have hhigh : (2 * num : ℚ) ≤ den * (2 * m) + den := by
    have hle := (div_le_iff₀ hden').mp h.high
    linarith
  have hodd : m % 2 = 1 → (den * (2 * m) : ℚ) < 2 * num + den ∧ (2 * num : ℚ) < den * (2 * m) + den := by
    intro hm
    obtain ⟨hlt, hlt'⟩ := h.odd hm
    have hlt := (lt_div_iff₀ hden').mp hlt
    have hlt' := (div_lt_iff₀ hden').mp hlt'
    exact ⟨by linarith, by linarith⟩
  have hall := And.intro hlow (And.intro hhigh hodd)
  exact_mod_cast hall

theorem roundQuotient_eq {num den m : Nat} (hden : 0 < den) (h : RoundsTo m (num / den)) :
    roundQuotient num den = m := by
  obtain ⟨hlow, hhigh, hodd⟩ := h.products hden
  have hnum : den * (num / den) + num % den = num := Nat.div_add_mod num den
  have hrest : num % den < den := Nat.mod_lt num hden
  have hproduct : den * (2 * m) = 2 * (den * m) := by ring
  rw [hproduct] at hlow hhigh hodd
  have hge : num / den ≤ m := by
    by_contra hlt
    have hstep : den * (m + 1) ≤ den * (num / den) := Nat.mul_le_mul_left den (by omega)
    rw [Nat.mul_add] at hstep
    omega
  have hle : m ≤ num / den + 1 := by
    by_contra hlt
    have hstep : den * (num / den + 2) ≤ den * m := Nat.mul_le_mul_left den (by omega)
    rw [Nat.mul_add] at hstep
    omega
  unfold roundQuotient
  dsimp only
  obtain rfl | rfl : m = num / den ∨ m = num / den + 1 := by omega
  · split
    · rfl
    · split
      · omega
      · have heven : num / den % 2 ≠ 1 := fun hm => by have := hodd hm; omega
        omega
  · rw [Nat.mul_add den] at hlow hodd
    split
    · omega
    · split
      · rfl
      · have heven : (num / den + 1) % 2 ≠ 1 := fun hm => by have := hodd hm; omega
        omega

variable {num den : Nat} {e : Int}

private theorem scaled_pos (hden : den ≠ 0) : 0 < (scaled num den e).2 := by
  unfold scaled
  split
  · exact Nat.pos_of_ne_zero hden
  · exact Nat.mul_pos (Nat.pos_of_ne_zero hden) (Nat.two_pow_pos _)

private theorem scaled_eq : ((scaled num den e).1 / (scaled num den e).2 : ℚ) =
    num / den / (2 : ℚ) ^ e := by
  unfold scaled
  split
  · have hexponent : e = -(e.natAbs : Int) := by omega
    conv_rhs => rw [hexponent, zpow_neg, zpow_natCast, div_inv_eq_mul, div_mul_eq_mul_div]
    simp
  · have hexponent : e = (e.natAbs : Int) := by omega
    conv_rhs => rw [hexponent, zpow_natCast, div_div]
    simp

theorem floorAt_lt_iff (hden : den ≠ 0) {c : Nat} :
    floorAt num den e < c ↔ (num / den : ℚ) < c * (2 : ℚ) ^ e := by
  have hscale : (0 : ℚ) < 2 ^ e := zpow_pos two_pos _
  rw [← div_lt_iff₀ hscale, ← scaled_eq, div_lt_iff₀ (by exact_mod_cast scaled_pos hden), floorAt,
    Nat.div_lt_iff_lt_mul (scaled_pos hden)]
  exact_mod_cast Iff.rfl

theorem roundedAt_eq (hden : den ≠ 0) {m : Nat} (h : RoundsTo m (num / den / (2 : ℚ) ^ e)) :
    roundedAt num den e = m :=
  roundQuotient_eq (scaled_pos hden) (scaled_eq ▸ h)

private theorem log_bounds (hnum : num ≠ 0) (hden : den ≠ 0) :
    (2 : ℚ) ^ ((num.log2 : Int) - den.log2 - 1) < num / den ∧
      (num / den : ℚ) < (2 : ℚ) ^ ((num.log2 : Int) - den.log2 + 1) := by
  have hpos : (0 : ℚ) < den := by exact_mod_cast Nat.pos_of_ne_zero hden
  have hnum' : (2 : ℚ) ^ num.log2 ≤ num := by exact_mod_cast Nat.log2_self_le hnum
  have hnum'' : (num : ℚ) < 2 ^ (num.log2 + 1) := by exact_mod_cast Nat.lt_log2_self
  have hden' : (2 : ℚ) ^ den.log2 ≤ den := by exact_mod_cast Nat.log2_self_le hden
  have hden'' : (den : ℚ) < 2 ^ (den.log2 + 1) := by exact_mod_cast Nat.lt_log2_self
  constructor
  · rw [lt_div_iff₀ hpos]
    calc (2 : ℚ) ^ ((num.log2 : Int) - den.log2 - 1) * den
        < (2 : ℚ) ^ ((num.log2 : Int) - den.log2 - 1) * 2 ^ (den.log2 + 1) :=
          mul_lt_mul_of_pos_left hden'' (zpow_pos two_pos _)
      _ = (2 : ℚ) ^ num.log2 := by
          rw [← zpow_natCast, ← zpow_natCast, ← zpow_add₀ two_ne_zero]
          congr 1
          omega
      _ ≤ num := hnum'
  · rw [div_lt_iff₀ hpos]
    calc (num : ℚ) < 2 ^ (num.log2 + 1) := hnum''
      _ = (2 : ℚ) ^ ((num.log2 : Int) - den.log2 + 1) * 2 ^ den.log2 := by
          rw [← zpow_natCast, ← zpow_natCast, ← zpow_add₀ two_ne_zero]
          congr 1
          omega
      _ ≤ (2 : ℚ) ^ ((num.log2 : Int) - den.log2 + 1) * den :=
          mul_le_mul_of_nonneg_left hden' (zpow_pos two_pos _).le

/-- A quotient is rounded at the exponent at which it has as many places as a significand, or at the
least one. -/
theorem nearestBits_eq (hnum : num ≠ 0) (hden : den ≠ 0) (hle : -1074 ≤ e)
    (hlt : (num / den : ℚ) < 2 ^ 53 * (2 : ℚ) ^ e)
    (hfull : e = -1074 ∨ 2 ^ 52 * (2 : ℚ) ^ e ≤ num / den) :
    nearestBits num den = min (if roundedAt num den e < 2 ^ 52 then roundedAt num den e
      else (e + 1074).toNat * 2 ^ 52 + roundedAt num den e) (2047 * 2 ^ 52) := by
  obtain ⟨low, e', hlow, he', hbits⟩ := nearestBits_cases hnum den
  obtain ⟨hlower, hupper⟩ := log_bounds hnum hden
  have hjoin (n : Nat) (k : Int) : (2 : ℚ) ^ n * (2 : ℚ) ^ k = (2 : ℚ) ^ (n + k) := by
    rw [zpow_add₀ two_ne_zero, zpow_natCast]
  rw [hjoin] at hlt
  have hat : floorAt num den low < 2 ^ 53 ↔ (num / den : ℚ) < (2 : ℚ) ^ (53 + low) := by
    rw [floorAt_lt_iff hden, Nat.cast_pow, Nat.cast_ofNat, hjoin]
    rfl
  have hbelow : (num.log2 : Int) - den.log2 - 1 < 53 + e :=
    (zpow_lt_zpow_iff_right₀ one_lt_two).mp (hlower.trans hlt)
  have habove : e = -1074 ∨ 52 + e < (num.log2 : Int) - den.log2 + 1 := by
    refine hfull.imp_right fun hge => ?_
    rw [hjoin] at hge
    exact (zpow_lt_zpow_iff_right₀ one_lt_two).mp (hge.trans_lt hupper)
  have hsame : e' = e := by
    rcases he' with ⟨rfl, hfew⟩ | ⟨rfl, hmany⟩
    · by_contra hne
      have hprev : e = e' + 1 := by omega
      have hge := hfull.resolve_left (by omega)
      rw [hjoin, hprev] at hge
      have hplace : (53 : Int) + e' = ((52 : Nat) : Int) + (e' + 1) := by omega
      exact absurd (hat.mp hfew) (not_lt.mpr (hplace ▸ hge))
    · have hge := not_lt.mp (mt hat.mpr (not_lt.mpr hmany))
      have := (zpow_lt_zpow_iff_right₀ one_lt_two).mp (hge.trans_lt hlt)
      push_cast at this
      omega
  rw [hbits, hsame]

end Quotients

namespace Parts

/-- How far below the double, in units of its last place, the numbers begin that are rounded to it. -/
def reach (p : Parts) : ℚ := if p.significand = 2 ^ 52 ∧ -1074 < p.exponent then 1 / 4 else 1 / 2

/-- A number that is rounded to the double. -/
structure Near (p : Parts) (q : ℚ) : Prop where
  low : (p.significand - p.reach) * (2 : ℚ) ^ p.exponent ≤ q
  high : q ≤ (p.significand + 1 / 2) * (2 : ℚ) ^ p.exponent
  odd : p.significand % 2 = 1 → (p.significand - p.reach) * (2 : ℚ) ^ p.exponent < q ∧
    q < (p.significand + 1 / 2) * (2 : ℚ) ^ p.exponent

/-- The bits of the double without its sign. -/
def bits (p : Parts) : Nat :=
  if p.significand < 2 ^ 52 then p.significand
  else (p.exponent + 1074).toNat * 2 ^ 52 + p.significand

theorem reach_le (p : Parts) : p.reach ≤ 1 / 2 := by
  unfold reach
  split
  · norm_num
  · exact le_rfl

variable {p : Parts} {num den : Nat}

theorem Near.pos (hp : 0 < p.significand) {q : ℚ} (h : p.Near q) : 0 < q := by
  have hone : (1 : ℚ) ≤ p.significand := by exact_mod_cast hp
  refine lt_of_lt_of_le (mul_pos ?_ (zpow_pos two_pos _)) h.low
  linarith [p.reach_le]

theorem Near.roundsTo {q : ℚ} (h : p.Near q) : RoundsTo p.significand (q / (2 : ℚ) ^ p.exponent) := by
  have hscale : (0 : ℚ) < 2 ^ p.exponent := zpow_pos two_pos _
  have hreach := p.reach_le
  have hlow := (le_div_iff₀ hscale).mpr h.low
  refine ⟨by linarith, (div_le_iff₀ hscale).mpr h.high, fun hodd => ?_⟩
  obtain ⟨hlt, hlt'⟩ := h.odd hodd
  have hlt := (lt_div_iff₀ hscale).mpr hlt
  exact ⟨by linarith, (div_lt_iff₀ hscale).mpr hlt'⟩

/-- Below a power of two the number has one place more, all of them set, and is rounded up. -/
private theorem Near.roundsTo_below (hm : p.significand = 2 ^ 52) (hk : -1074 < p.exponent) {q : ℚ}
    (h : p.Near q) (hq : q < 2 ^ 52 * (2 : ℚ) ^ p.exponent) :
    RoundsTo (2 ^ 53) (q / (2 : ℚ) ^ (p.exponent - 1)) := by
  have hscale : (0 : ℚ) < 2 ^ (p.exponent - 1) := zpow_pos two_pos _
  have hdouble : (2 : ℚ) ^ p.exponent = 2 * (2 : ℚ) ^ (p.exponent - 1) := by
    rw [zpow_sub_one₀ two_ne_zero]
    ring
  have hlow := h.low
  rw [reach, if_pos ⟨hm, hk⟩, hm, hdouble] at hlow
  rw [hdouble] at hq
  refine ⟨?_, ?_, fun hodd => absurd hodd (by decide)⟩
  · rw [le_div_iff₀ hscale]
    push_cast at hlow ⊢
    linarith
  · rw [div_le_iff₀ hscale]
    push_cast
    linarith

/-- A quotient near to a double has the double's bits when it is rounded. -/
theorem Canonical.nearestBits_of_near (hp : p.Canonical) (hpos : 0 < p.significand) (hden : den ≠ 0)
    (h : p.Near (num / den)) : nearestBits num den = min p.bits (2047 * 2 ^ 52) := by
  have hscale : (0 : ℚ) < 2 ^ p.exponent := zpow_pos two_pos _
  have hnum : num ≠ 0 := by
    rintro rfl
    simpa using h.pos hpos
  by_cases hfull : p.exponent = -1074 ∨ 2 ^ 52 * (2 : ℚ) ^ p.exponent ≤ num / den
  · have hlt : (num / den : ℚ) < 2 ^ 53 * (2 : ℚ) ^ p.exponent := by
      have hsucc : (p.significand + 1 : ℚ) ≤ 2 ^ 53 := by exact_mod_cast hp.lt
      refine h.high.trans_lt (mul_lt_mul_of_pos_right ?_ hscale)
      linarith
    rw [nearestBits_eq hnum hden hp.le hlt hfull, roundedAt_eq hden h.roundsTo]
    rfl
  · obtain ⟨hleast, hbelow⟩ := not_or.mp hfull
    have hbelow := not_le.mp hbelow
    have hk : -1074 < p.exponent := lt_of_le_of_ne hp.le (Ne.symm hleast)
    have hfew := hp.full.resolve_left hleast
    have hm : p.significand = 2 ^ 52 := by
      by_contra hne
      have hmore : (2 ^ 52 + 1 : ℚ) ≤ p.significand := by exact_mod_cast (by omega)
      have hlow := h.low
      rw [reach, if_neg (fun hpower => hne hpower.1)] at hlow
      refine absurd (hlow.trans_lt hbelow) (not_lt.mpr (mul_le_mul_of_nonneg_right ?_ hscale.le))
      linarith
    have hround := h.roundsTo_below hm hk hbelow
    have hdouble : (2 : ℚ) ^ p.exponent = 2 * (2 : ℚ) ^ (p.exponent - 1) := by
      rw [zpow_sub_one₀ two_ne_zero]
      ring
    have hlt : (num / den : ℚ) < 2 ^ 53 * (2 : ℚ) ^ (p.exponent - 1) := by
      rw [hdouble] at hbelow
      linarith
    have hge : 2 ^ 52 * (2 : ℚ) ^ (p.exponent - 1) ≤ num / den := by
      have hlow := hround.low
      rw [le_div_iff₀ (zpow_pos two_pos _)] at hlow
      refine le_trans (mul_le_mul_of_nonneg_right ?_ (zpow_pos two_pos _).le) hlow
      norm_num
    have hcarry : (p.exponent - 1 + 1074).toNat * 2 ^ 52 + 2 ^ 53 =
        (p.exponent + 1074).toNat * 2 ^ 52 + 2 ^ 52 := by omega
    rw [nearestBits_eq hnum hden (by omega) hlt (.inr hge), roundedAt_eq hden hround, bits, hm,
      if_neg (by decide), if_neg (by decide), hcarry]

end Parts

section Bits

open Float.Model
open Float.Model.UnpackedFloat

variable {x : Float}

private theorem pack_unpack_toBits (x : Float) :
    UnpackedFloat.pack Format.binary64 x.toModel.unpack = x.toBits.toBitVec := by
  have hkept := @pack_unpack Format.binary64 x.toBits.toBitVec (by decide)
  change UnpackedFloat.pack Format.binary64
    (UnpackedFloat.unpack Format.binary64 x.toBits.toBitVec) = _
  by_cases hnan : @isNaNBits Format.binary64 x.toBits.toBitVec = true
  · obtain ⟨hones, hfraction⟩ := of_decide_eq_true hnan
    rw [hkept, if_pos hnan]
    exact (x.toModel.valid.eq_packedNaN hones hfraction).symm
  · rw [hkept, if_neg hnan]

private theorem eq_of_unpack {x y : Float} (h : x.toModel.unpack = y.toModel.unpack) : x = y := by
  apply Float.toBits_inj.mp
  apply UInt64.toBitVec_inj.mp
  rw [← pack_unpack_toBits, h, pack_unpack_toBits]

private theorem unpackExponent_eq_iff (x : Float) (b : BitVec 11) :
    @unpackExponent Format.binary64 x.toBits.toBitVec = b ↔
      x.toBits.toNat / 2 ^ 52 % 2 ^ 11 = b.toNat := by
  rw [← BitVec.toNat_inj, toNat_exponentField]
  rfl

private theorem unpack_of_ones (h : @unpackExponent Format.binary64 x.toBits.toBitVec = -1#11) :
    x.toModel.unpack =
      if @unpackMantissa Format.binary64 x.toBits.toBitVec = 0#52
      then .infinity (Sign.ofBitVec (@unpackSign Format.binary64 x.toBits.toBitVec))
      else .notANumber := by
  change UnpackedFloat.unpack Format.binary64 x.toBits.toBitVec = _
  rw [UnpackedFloat.unpack]
  exact if_pos h

private theorem field_lt (h : (x.isNaN || x.isInf) = false) :
    x.toBits.toNat / 2 ^ 52 % 2 ^ 11 < 2047 := by
  by_contra hge
  have hones : @unpackExponent Format.binary64 x.toBits.toBitVec = -1#11 := by
    apply (unpackExponent_eq_iff x _).mpr
    change _ = 2047
    omega
  change (x.toModel.unpack.isNaN || x.toModel.unpack.isInf) = false at h
  rw [unpack_of_ones hones] at h
  split at h <;> cases h

theorem bits_parts (x : Float) : (parts x).bits = x.toBits.toNat % 2 ^ 63 := by
  have hlt : x.toBits.toNat < 2 ^ 64 := x.toBits.toNat_lt
  unfold Parts.bits parts
  simp only [Nat.pow_eq, beq_iff_eq]
  split
  · next hfield =>
    rw [if_pos (by omega)]
    omega
  · next hfield =>
    rw [if_neg (by omega)]
    omega

theorem negative_parts (x : Float) : (parts x).negative = true ↔ 2 ^ 63 ≤ x.toBits.toNat := by
  have hlt : x.toBits.toNat < 2 ^ 64 := x.toBits.toNat_lt
  simp only [parts, Nat.pow_eq, beq_iff_eq]
  omega

theorem bits_parts_lt (h : (x.isNaN || x.isInf) = false) : (parts x).bits < 2047 * 2 ^ 52 := by
  have hfield := field_lt h
  rw [bits_parts]
  omega

/-- The exponent of a finite double is below that of the infinities. -/
theorem exponent_parts_le (h : (x.isNaN || x.isInf) = false) : (parts x).exponent ≤ 971 := by
  have hfield := field_lt h
  simp only [parts, Nat.pow_eq, beq_iff_eq]
  split <;> omega

private theorem neg_ofBits (h : (x.isNaN || x.isInf) = false) (hneg : 2 ^ 63 ≤ x.toBits.toNat) :
    -(Float.ofBits (UInt64.ofNat (parts x).bits)) = x := by
  let y : Float := Float.ofBits (UInt64.ofNat (parts x).bits)
  have hlt : x.toBits.toNat < 2 ^ 64 := x.toBits.toNat_lt
  have hfield := field_lt h
  have hbits : y.toBits.toNat = x.toBits.toNat % 2 ^ 63 := by
    refine (congrArg UInt64.toNat (toBits_ofBits (bits_parts_lt h).le)).trans ?_
    rw [UInt64.toNat_ofNat', bits_parts]
    omega
  have hexponent : @unpackExponent Format.binary64 y.toBits.toBitVec =
      @unpackExponent Format.binary64 x.toBits.toBitVec := by
    rw [unpackExponent_eq_iff, toNat_exponentField, hbits]
    change _ = x.toBits.toNat / 2 ^ 52 % 2 ^ 11
    omega
  have hfraction : @unpackMantissa Format.binary64 y.toBits.toBitVec =
      @unpackMantissa Format.binary64 x.toBits.toBitVec := by
    rw [← BitVec.toNat_inj, toNat_fractionField, toNat_fractionField]
    change y.toBits.toNat % 2 ^ 52 = x.toBits.toNat % 2 ^ 52
    omega
  have hsign : @unpackSign Format.binary64 y.toBits.toBitVec = 0#1 ∧
      @unpackSign Format.binary64 x.toBits.toBitVec = 1#1 := by
    rw [← BitVec.toNat_inj, ← BitVec.toNat_inj, toNat_signField, toNat_signField]
    change y.toBits.toNat / 2 ^ 63 = 0 ∧ x.toBits.toNat / 2 ^ 63 = 1
    omega
  have hones : @unpackExponent Format.binary64 x.toBits.toBitVec ≠ -1#11 := by
    intro hones
    have hfull := (unpackExponent_eq_iff x _).mp hones
    change _ = 2047 at hfull
    omega
  have hunpack : (UnpackedFloat.unpack Format.binary64 y.toBits.toBitVec).neg =
      UnpackedFloat.unpack Format.binary64 x.toBits.toBitVec := by
    simp only [UnpackedFloat.unpack, hexponent, hfraction, hsign.1, hsign.2]
    rw [if_neg hones, if_neg hones]
    split
    · split <;> rfl
    · rfl
  apply Float.toBits_inj.mp
  apply UInt64.toBitVec_inj.mp
  change UnpackedFloat.pack Format.binary64 (UnpackedFloat.unpack Format.binary64
    y.toBits.toBitVec).neg = _
  rw [hunpack]
  exact pack_unpack_toBits x

/-- A finite double is told by its sign and the bits of its magnitude. -/
theorem eq_of_bits (h : (x.isNaN || x.isInf) = false) :
    (if (parts x).negative then -(Float.ofBits (UInt64.ofNat (parts x).bits))
      else Float.ofBits (UInt64.ofNat (parts x).bits)) = x := by
  have hlt : x.toBits.toNat < 2 ^ 64 := x.toBits.toNat_lt
  split
  · next hneg => exact neg_ofBits h ((negative_parts x).mp hneg)
  · next hneg =>
    have hpos := mt (negative_parts x).mpr hneg
    apply Float.toBits_inj.mp
    rw [toBits_ofBits (bits_parts_lt h).le]
    apply UInt64.toNat_inj.mp
    rw [UInt64.toNat_ofNat', bits_parts]
    omega

/-- There is one double that is undefined. -/
theorem eq_of_isNaN (h : x.isNaN = true) : x = 0 / 0 := by
  have hundefined {f : UnpackedFloat} (hf : f.isNaN = true) : f = .notANumber := by
    cases f with
    | notANumber => rfl
    | _ => cases hf
  have hself : (0 / 0 : Float).toModel.unpack.isNaN = true := by
    change (0 / 0 : Float).isNaN = true
    decide +kernel
  apply eq_of_unpack
  exact (hundefined h).trans (hundefined hself).symm

private theorem unpack_infinities : (1 / 0 : Float).toModel.unpack = .infinity .positive ∧
    (-1 / 0 : Float).toModel.unpack = .infinity .negative := by
  have hbits : (1 / 0 : Float).toBits.toBitVec = 0x7FF0000000000000#64 ∧
      (-1 / 0 : Float).toBits.toBitVec = 0xFFF0000000000000#64 := by decide +kernel
  change UnpackedFloat.unpack Format.binary64 (1 / 0 : Float).toBits.toBitVec = _ ∧
    UnpackedFloat.unpack Format.binary64 (-1 / 0 : Float).toBits.toBitVec = _
  rw [hbits.1, hbits.2]
  exact ⟨rfl, rfl⟩

/-- There are two infinite doubles, told by their signs. -/
theorem eq_of_isInf (h : x.isInf = true) : x = if x < 0 then -1 / 0 else 1 / 0 := by
  obtain ⟨hpositive, hnegative⟩ := unpack_infinities
  have hinfinite : ∃ s, x.toModel.unpack = .infinity s := by
    change x.toModel.unpack.isInf = true at h
    cases hf : x.toModel.unpack with
    | infinity s => exact ⟨s, rfl⟩
    | _ =>
      rw [hf] at h
      cases h
  obtain ⟨s, hs⟩ := hinfinite
  cases s with
  | positive =>
    have hnot : ¬x < 0 := by
      rw [lt_zero_iff, hs]
      simp [extended?]
    rw [if_neg hnot]
    exact eq_of_unpack (hs.trans hpositive.symm)
  | negative =>
    have hlt : x < 0 := by
      rw [lt_zero_iff, hs]
      simp [extended?]
    rw [if_pos hlt]
    exact eq_of_unpack (hs.trans hnegative.symm)

end Bits

end BusinessAtlas.Binary64
