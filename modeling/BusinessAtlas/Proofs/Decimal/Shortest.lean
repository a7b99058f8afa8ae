import BusinessAtlas.Proofs.Decimal.Numeral
import BusinessAtlas.Proofs.Number.Nearest

/-!
# The shortest digits

The numbers that are rounded to a double lie between two others. On the grid of seventeen digits one of
them is sure to be found, since the grid is finer than the doubles, so the search for the fewest digits
ends with digits that are rounded to the double.
-/

namespace BusinessAtlas.Decimal

open Binary64

section Grid

variable {num den : Nat} {e : Int}

private theorem ten_zpow_pos (e : Int) : (0 : ℚ) < 10 ^ e := zpow_pos (by norm_num) e

private theorem ten_zpow_of_neg (he : e < 0) : (10 : ℚ) ^ e = ((10 ^ e.natAbs : Nat) : ℚ)⁻¹ := by
  have hexponent : e = -(e.natAbs : Int) := by omega
  conv_lhs => rw [hexponent, zpow_neg, zpow_natCast]
  push_cast
  rfl

private theorem ten_zpow_of_nonneg (he : ¬e < 0) : (10 : ℚ) ^ e = ((10 ^ e.natAbs : Nat) : ℚ) := by
  have hexponent : e = (e.natAbs : Int) := by omega
  conv_lhs => rw [hexponent, zpow_natCast]
  push_cast
  rfl

theorem gridLe_iff (hden : 0 < den) (a : Nat) :
    gridLe a e num den = true ↔ (a : ℚ) * 10 ^ e ≤ num / den := by
  have hden' : (0 : ℚ) < den := by exact_mod_cast hden
  rw [gridLe, le_div_iff₀ hden']
  simp only [Nat.pow_eq]
  split
  · next he =>
    have hscale : (0 : ℚ) < (10 ^ e.natAbs : Nat) := by positivity
    rw [ten_zpow_of_neg he, decide_eq_true_iff, mul_right_comm, ← div_eq_mul_inv,
      div_le_iff₀ hscale]
    exact_mod_cast Iff.rfl
  · next he =>
    rw [ten_zpow_of_nonneg he, decide_eq_true_iff]
    exact_mod_cast Iff.rfl

theorem gridGe_iff (hden : 0 < den) (a : Nat) :
    gridGe a e num den = true ↔ (num / den : ℚ) ≤ a * 10 ^ e := by
  have hden' : (0 : ℚ) < den := by exact_mod_cast hden
  rw [gridGe, div_le_iff₀ hden']
  simp only [Nat.pow_eq]
  split
  · next he =>
    have hscale : (0 : ℚ) < (10 ^ e.natAbs : Nat) := by positivity
    rw [ten_zpow_of_neg he, decide_eq_true_iff, mul_right_comm, ← div_eq_mul_inv,
      le_div_iff₀ hscale]
    exact_mod_cast Iff.rfl
  · next he =>
    rw [ten_zpow_of_nonneg he, decide_eq_true_iff]
    exact_mod_cast Iff.rfl

theorem le_gridFloor_iff (hden : 0 < den) (a : Nat) :
    a ≤ gridFloor e num den ↔ (a : ℚ) * 10 ^ e ≤ num / den := by
  have hscale : 0 < den * Nat.pow 10 e.natAbs := Nat.mul_pos hden (Nat.pow_pos (by decide))
  rw [← gridLe_iff hden, gridFloor, gridLe]
  split
  · rw [Nat.le_div_iff_mul_le hden, decide_eq_true_iff]
  · rw [Nat.le_div_iff_mul_le hscale, decide_eq_true_iff, Nat.mul_comm den, ← Nat.mul_assoc]

/-- A positive quotient is not below the place of its leading digit. -/
theorem ten_zpow_leadingExponent_le (hnum : 0 < num) (hden : 0 < den) :
    (10 : ℚ) ^ leadingExponent num den ≤ num / den := by
  have hden' : (0 : ℚ) < den := by exact_mod_cast hden
  rw [le_div_iff₀ hden', leadingExponent]
  split
  · next hle =>
    have hlength := Nat.length_toDigits_pos (b := 10) (n := num / den)
    have hpower : 10 ^ ((Nat.toDigits 10 (num / den)).length - 1) ≤ num / den :=
      ten_pow_le_of_lt_length (Nat.div_pos hle hden) (by omega)
    rw [show (((Nat.toDigits 10 (num / den)).length : Int) - 1) =
      (((Nat.toDigits 10 (num / den)).length - 1 : Nat) : Int) by omega, zpow_natCast]
    exact_mod_cast (Nat.le_div_iff_mul_le hden).mp hpower
  · dsimp only
    generalize hplaces : (Nat.toDigits 10 (den / num)).length = places
    have hpos : 0 < places := hplaces ▸ Nat.length_toDigits_pos
    split
    · next hle =>
      rw [show (1 : Int) - places = -((places - 1 : Nat) : Int) by omega, zpow_neg, zpow_natCast,
        ← div_eq_inv_mul, div_le_iff₀ (by positivity)]
      exact_mod_cast hle
    · have hlt : den / num < 10 ^ places :=
        (Nat.length_toDigits_le_iff (by decide) hpos).mp hplaces.le
      rw [Nat.div_lt_iff_lt_mul hnum] at hlt
      rw [zpow_neg, zpow_natCast, ← div_eq_inv_mul, div_le_iff₀ (by positivity), mul_comm (num : ℚ)]
      exact_mod_cast hlt.le

end Grid

section Interval

variable {p : Parts} {a b c : ℚ}

theorem Near.convex (ha : p.Near a) (hb : p.Near b) (hac : a ≤ c) (hcb : c ≤ b) : p.Near c :=
  ⟨ha.low.trans hac, hcb.trans hb.high, fun hodd =>
    ⟨(ha.odd hodd).1.trans_le hac, hcb.trans_lt (hb.odd hodd).2⟩⟩

private theorem reach_pos (p : Parts) : 0 < p.reach := by
  unfold Parts.reach
  split <;> norm_num

theorem near_magnitude (p : Parts) : p.Near p.magnitude := by
  have hscale : (0 : ℚ) < 2 ^ p.exponent := zpow_pos two_pos _
  have hreach := reach_pos p
  refine ⟨?_, ?_, fun _ => ⟨?_, ?_⟩⟩ <;> unfold Parts.magnitude
  · exact mul_le_mul_of_nonneg_right (by linarith) hscale.le
  · exact mul_le_mul_of_nonneg_right (by linarith) hscale.le
  · exact mul_lt_mul_of_pos_right (by linarith) hscale
  · exact mul_lt_mul_of_pos_right (by linarith) hscale

private theorem ratio_pos (p : Parts) : 0 < p.ratio.2 := by
  unfold Parts.ratio
  split
  · exact Nat.pow_pos (by decide)
  · exact Nat.one_pos

private theorem ratio_eq (negative : Bool) (m : Nat) (e : Int) :
    ((Parts.ratio ⟨negative, m, e⟩).1 / (Parts.ratio ⟨negative, m, e⟩).2 : ℚ) = m * (2 : ℚ) ^ e := by
  have hratio := Parts.mkRat_ratio ⟨negative, m, e⟩
  rw [Rat.mkRat_eq_div, Int.cast_natCast] at hratio
  exact hratio

/-- The ends of the interval in quarters of the last place. -/
private theorem quarter (e : Int) : (2 : ℚ) ^ e = 4 * (2 : ℚ) ^ (e - 2) := by
  rw [zpow_sub₀ two_ne_zero]
  norm_num
  ring

private theorem value_interval (p : Parts) :
    ((interval p).value.1 / (interval p).value.2 : ℚ) = p.magnitude := by
  rw [interval, Parts.magnitude, quarter p.exponent]
  dsimp only
  rw [ratio_eq]
  push_cast
  ring

private theorem low_interval (hpos : 0 < p.significand) :
    ((interval p).low.1 / (interval p).low.2 : ℚ) =
      (p.significand - p.reach) * (2 : ℚ) ^ p.exponent := by
  rw [interval, Parts.reach, quarter p.exponent]
  dsimp only
  rw [ratio_eq]
  simp only [Nat.pow_eq, Bool.and_eq_true, beq_iff_eq, decide_eq_true_eq]
  split
  · rw [Nat.cast_sub (by omega)]
    push_cast
    ring
  · rw [Nat.cast_sub (by omega)]
    push_cast
    ring

private theorem high_interval (p : Parts) :
    ((interval p).high.1 / (interval p).high.2 : ℚ) =
      (p.significand + 1 / 2) * (2 : ℚ) ^ p.exponent := by
  rw [interval, quarter p.exponent]
  dsimp only
  rw [ratio_eq]
  push_cast
  ring

theorem holds_interval_iff (hpos : 0 < p.significand) (n : Nat) (e : Int) :
    (interval p).holds n e = true ↔ p.Near (n * 10 ^ e) := by
  have hlow := low_interval hpos
  have hhigh := high_interval p
  have hlow_pos : 0 < (interval p).low.2 := ratio_pos _
  have hhigh_pos : 0 < (interval p).high.2 := ratio_pos _
  have hclosed : (interval p).closed = (p.significand % 2 == 0) := rfl
  rw [Interval.holds, hclosed]
  split
  · next heven =>
    rw [Bool.and_eq_true, gridGe_iff hlow_pos, gridLe_iff hhigh_pos, hlow, hhigh]
    refine ⟨fun ⟨hge, hle⟩ => ⟨hge, hle, fun hodd => ?_⟩, fun h => ⟨h.low, h.high⟩⟩
    rw [beq_iff_eq] at heven
    omega
  · next hodd =>
    rw [Bool.and_eq_true, Bool.not_eq_true', Bool.not_eq_true', ← Bool.not_eq_true,
      ← Bool.not_eq_true, gridLe_iff hlow_pos, gridGe_iff hhigh_pos, hlow, hhigh, not_le, not_le]
    rw [beq_iff_eq] at hodd
    exact ⟨fun ⟨hgt, hlt⟩ => ⟨hgt.le, hlt.le, fun _ => ⟨hgt, hlt⟩⟩, fun h => h.odd (by omega)⟩

namespace Interval

variable {i : Interval}

theorem holds_of_onGrid {n : Nat} {e : Int} (h : i.onGrid e = some n) : i.holds n e = true := by
  unfold onGrid at h
  dsimp only at h
  split at h
  · next hholds _ =>
    cases h
    exact hholds
  · next _ hholds =>
    cases h
    exact hholds
  · cases h
  · next hfirst hsecond =>
    have heither (b : Nat) (hb : b < 2) :
        i.holds (gridFloor e i.value.1 i.value.2 + b) e = true := by
      obtain rfl | rfl : b = 0 ∨ b = 1 := by omega
      · exact hfirst
      · exact hsecond
    split at h
    · cases h
      exact heither _ (Nat.mod_lt _ (by decide))
    · split at h
      · cases h
        exact hfirst
      · cases h
        exact hsecond

theorem exists_onGrid {e : Int}
    (h : i.holds (gridFloor e i.value.1 i.value.2) e = true ∨
      i.holds (gridFloor e i.value.1 i.value.2 + 1) e = true) : ∃ n, i.onGrid e = some n := by
  rw [← Option.isSome_iff_exists]
  unfold onGrid
  dsimp only
  split
  · rfl
  · rfl
  · next hfirst hsecond =>
    rw [hfirst, hsecond] at h
    simp at h
  · split
    · rfl
    · split <;> rfl

/-- The search ends on the first grid on which something is found. -/
theorem onGrid_search {top : Int} {fuel count n : Nat} (h : ∃ a, i.onGrid (top + 1 - n) = some a)
    (hle : count ≤ n) (hlt : n < count + fuel) :
    i.onGrid (i.search top fuel count).2 = some (i.search top fuel count).1 := by
  induction fuel generalizing count with
  | zero => omega
  | succ fuel ih =>
    rw [search]
    split
    · next a ha => exact ha
    · next hnone =>
      have hne : count ≠ n := by
        rintro rfl
        obtain ⟨a, ha⟩ := h
        rw [ha] at hnone
        cases hnone
      exact ih (by omega) (by omega)

end Interval

/-- If any number on a grid is rounded to the double, so is one of those next to the double. -/
private theorem exists_onGrid_of_near (hpos : 0 < p.significand) {n : Nat} {e : Int}
    (h : p.Near (n * 10 ^ e)) : ∃ a, (interval p).onGrid e = some a := by
  have hscale : (0 : ℚ) < 10 ^ e := ten_zpow_pos e
  have hvalue_pos : 0 < (interval p).value.2 := ratio_pos _
  have hfloor (a : Nat) : a ≤ gridFloor e (interval p).value.1 (interval p).value.2 ↔
      (a : ℚ) * 10 ^ e ≤ p.magnitude := by
    rw [le_gridFloor_iff hvalue_pos, value_interval]
  apply Interval.exists_onGrid
  rw [holds_interval_iff hpos, holds_interval_iff hpos]
  by_cases hn : n ≤ gridFloor e (interval p).value.1 (interval p).value.2
  · refine .inl (Near.convex h (near_magnitude p) ?_ ((hfloor _).mp le_rfl))
    exact mul_le_mul_of_nonneg_right (by exact_mod_cast hn) hscale.le
  · refine .inr (Near.convex (near_magnitude p) h ?_ ?_)
    · exact (not_le.mp (mt (hfloor _).mpr (by omega))).le
    · exact mul_le_mul_of_nonneg_right (by exact_mod_cast (by omega)) hscale.le

/-- The grid of seventeen digits is finer than the numbers that are rounded to a double. -/
private theorem exists_near_seventeen (hp : p.Canonical) (hpos : 0 < p.significand) {top : Int}
    (htop : (10 : ℚ) ^ top ≤ p.magnitude) : ∃ n : Nat, p.Near (n * 10 ^ (top + 1 - 17)) := by
  have hscale : (0 : ℚ) < 2 ^ p.exponent := zpow_pos two_pos _
  have hstep : (0 : ℚ) < 10 ^ (top + 1 - 17) := ten_zpow_pos _
  have hfine : (10 : ℚ) ^ (top + 1 - 17) * 10 ^ 16 ≤ p.significand * (2 : ℚ) ^ p.exponent := by
    refine le_trans (le_of_eq ?_) htop
    rw [← zpow_natCast, ← zpow_add₀ (by norm_num)]
    congr 1
    push_cast
    omega
  have hwide : (10 : ℚ) ^ (top + 1 - 17) < (1 / 2 + p.reach) * (2 : ℚ) ^ p.exponent := by
    unfold Parts.reach
    split
    · next hpower =>
      rw [hpower.1] at hfine
      push_cast at hfine
      linarith
    · have hlt : (p.significand : ℚ) * (2 : ℚ) ^ p.exponent < 2 ^ 53 * (2 : ℚ) ^ p.exponent :=
        mul_lt_mul_of_pos_right (by exact_mod_cast hp.lt) hscale
      linarith
  have hhigh : 0 < (p.significand + 1 / 2) * (2 : ℚ) ^ p.exponent := by positivity
  -- The last point of the grid that lies below the upper end.
  obtain ⟨n, hn⟩ : ∃ n, ⌈(p.significand + 1 / 2) * (2 : ℚ) ^ p.exponent /
      10 ^ (top + 1 - 17)⌉₊ = n + 1 :=
    Nat.exists_eq_succ_of_ne_zero (Nat.ceil_pos.mpr (div_pos hhigh hstep)).ne'
  have hge := (div_le_iff₀ hstep).mp (hn ▸ Nat.le_ceil ((p.significand + 1 / 2) *
    (2 : ℚ) ^ p.exponent / 10 ^ (top + 1 - 17)))
  have hlt := (lt_div_iff₀ hstep).mp (Nat.lt_ceil.mp (by rw [hn]; exact Nat.lt_succ_self n))
  push_cast at hge
  have hlow : (p.significand - p.reach) * (2 : ℚ) ^ p.exponent < n * 10 ^ (top + 1 - 17) := by
    linarith
  exact ⟨n, hlow.le, hlt.le, fun _ => ⟨hlow, hlt⟩⟩

/-- The search finds a number that is rounded to the double. -/
theorem near_search (hp : p.Canonical) (hpos : 0 < p.significand) :
    p.Near (((interval p).search (leadingExponent (interval p).value.1 (interval p).value.2) 17 1).1 *
      10 ^ ((interval p).search (leadingExponent (interval p).value.1 (interval p).value.2) 17 1).2) := by
  have hvalue_pos : 0 < (interval p).value.2 := ratio_pos _
  have hnum : 0 < (interval p).value.1 := by
    have hmagnitude : 0 < p.magnitude := (near_magnitude p).pos hpos
    rw [← value_interval] at hmagnitude
    by_contra hzero
    have hzero : (interval p).value.1 = 0 := by omega
    rw [hzero] at hmagnitude
    simp at hmagnitude
  have htop := ten_zpow_leadingExponent_le hnum hvalue_pos
  rw [value_interval] at htop
  obtain ⟨n, hn⟩ := exists_near_seventeen hp hpos htop
  have hfound := Interval.onGrid_search (exists_onGrid_of_near hpos hn)
    (by decide : 1 ≤ 17) (by decide : 17 < 1 + 17)
  exact (holds_interval_iff hpos _ _).mp (Interval.holds_of_onGrid hfound)

end Interval

section Value

/-- The number that digits denote. -/
def Digits.number (d : Digits) : ℚ :=
  Nat.ofDigitChars 10 d.digits 0 * (10 : ℚ) ^ (d.exponent + 1 - d.digits.length)

theorem Digits.number_ofGrid (a : Nat) (e : Int) : (ofGrid a e).number = a * (10 : ℚ) ^ e := by
  let kept := (Nat.toDigits 10 a).rdropWhile (· == '0')
  let zeros := (Nat.toDigits 10 a).rtakeWhile (· == '0')
  have hgrid : ofGrid a e =
      ⟨if kept.isEmpty then ['0'] else kept, e + (Nat.toDigits 10 a).length - 1⟩ := rfl
  have hparts : kept ++ zeros = Nat.toDigits 10 a := List.rdropWhile_append_rtakeWhile
  have hzeros : zeros = List.replicate zeros.length '0' := by
    refine List.eq_replicate_of_mem fun c hc => ?_
    simpa using List.mem_rtakeWhile_imp hc
  have hvalue : 10 ^ zeros.length * Nat.ofDigitChars 10 kept 0 = a := by
    rw [← Nat.ofDigitChars_replicate_zero, ← hzeros, ← Nat.ofDigitChars_append, hparts,
      Nat.ofDigitChars_ten_toDigits]
  rw [hgrid, number, ← hparts, List.length_append]
  by_cases hkept : kept = []
  · rw [hkept, Nat.ofDigitChars_nil, Nat.mul_zero] at hvalue
    simp [hkept, ← hvalue, Nat.ofDigitChars_cons]
  · have hexponent : e + (kept.length + zeros.length : Nat) - 1 + 1 - kept.length =
        (zeros.length : Int) + e := by
      push_cast
      ring
    rw [if_neg (by simpa using hkept), hexponent, zpow_add₀ (by norm_num), zpow_natCast, ← hvalue]
    push_cast
    ring

private theorem bounds_order {n : Nat} (hn : 0 < n) (e : Int) :
    (10 : ℚ) ^ ((Nat.toDigits 10 n).length + e - 1) ≤ n * 10 ^ e ∧
      (n * 10 ^ e : ℚ) < 10 ^ ((Nat.toDigits 10 n).length + e) := by
  have hscale := ten_zpow_pos e
  have hlength := Nat.length_toDigits_pos (b := 10) (n := n)
  have hlt : n < 10 ^ (Nat.toDigits 10 n).length :=
    (Nat.length_toDigits_le_iff (by decide) hlength).mp le_rfl
  have hle : 10 ^ ((Nat.toDigits 10 n).length - 1) ≤ n := ten_pow_le_of_lt_length hn (by omega)
  constructor
  · rw [show ((Nat.toDigits 10 n).length + e - 1 : Int) =
      (((Nat.toDigits 10 n).length - 1 : Nat) : Int) + e by omega, zpow_add₀ (by norm_num),
      zpow_natCast]
    exact mul_le_mul_of_nonneg_right (by exact_mod_cast hle) hscale.le
  · rw [zpow_add₀ (by norm_num), zpow_natCast]
    exact mul_lt_mul_of_pos_right (by exact_mod_cast hlt) hscale

/-- The numbers that are decided by the place of their first digit lie beyond the doubles. -/
private theorem reach_powers : (10 : ℚ) ^ (-330 : Int) ≤ 1 / 2 * (2 : ℚ) ^ (-1074 : Int) ∧
    (2 : ℚ) ^ 53 * (2 : ℚ) ^ (971 : Int) ≤ (10 : ℚ) ^ (310 : Int) := by
  have hsmall : 2 * 2 ^ 1074 ≤ 10 ^ 330 := by decide +kernel
  have hlarge : 2 ^ 53 * 2 ^ 971 ≤ 10 ^ 310 := by decide +kernel
  constructor
  · rw [zpow_neg, zpow_neg, one_div, ← mul_inv]
    refine inv_anti₀ (by positivity) ?_
    exact_mod_cast hsmall
  · exact_mod_cast hlarge

/-- A number near to a finite double is read as the double. -/
theorem ofDecimal_of_near {x : Float} (h : (x.isNaN || x.isInf) = false)
    (hpos : 0 < (parts x).significand) {n : Nat} {e : Int} (hn : (parts x).Near (n * 10 ^ e)) :
    ofDecimal (parts x).negative n e = x := by
  have hcanonical := canonical_parts x
  have hnumber : (0 : ℚ) < n * 10 ^ e := hn.pos hpos
  have hn_pos : 0 < n := by
    by_contra hzero
    rw [show n = 0 by omega] at hnumber
    simp at hnumber
  obtain ⟨hleast, hmost⟩ := bounds_order hn_pos e
  have hlow : ¬(Nat.toDigits 10 n).length + e < -330 := by
    intro hsmall
    have hone : (1 : ℚ) ≤ (parts x).significand := by exact_mod_cast hpos
    have hbelow := calc
      (1 / 2 * (2 : ℚ) ^ (-1074 : Int)) ≤ ((parts x).significand - (parts x).reach) *
          (2 : ℚ) ^ (parts x).exponent :=
        mul_le_mul (by linarith [(parts x).reach_le])
          (zpow_le_zpow_right₀ one_le_two hcanonical.le) (zpow_pos two_pos _).le
          (by linarith [(parts x).reach_le])
      _ ≤ n * 10 ^ e := hn.low
      _ < 10 ^ ((Nat.toDigits 10 n).length + e) := hmost
      _ ≤ (10 : ℚ) ^ (-330 : Int) := zpow_le_zpow_right₀ (by norm_num) hsmall.le
    exact absurd reach_powers.1 (not_le.mpr hbelow)
  have hhigh : ¬310 < (Nat.toDigits 10 n).length + e := by
    intro hlarge
    have hsucc : ((parts x).significand + 1 : ℚ) ≤ 2 ^ 53 := by exact_mod_cast hcanonical.lt
    have habove := calc
      (10 : ℚ) ^ (310 : Int) ≤ 10 ^ ((Nat.toDigits 10 n).length + e - 1) :=
        zpow_le_zpow_right₀ (by norm_num) (by omega)
      _ ≤ n * 10 ^ e := hleast
      _ ≤ ((parts x).significand + 1 / 2) * (2 : ℚ) ^ (parts x).exponent := hn.high
      _ < 2 ^ 53 * (2 : ℚ) ^ (971 : Int) :=
        mul_lt_mul (by linarith) (zpow_le_zpow_right₀ one_le_two (exponent_parts_le h))
          (zpow_pos two_pos _) (by positivity)
    exact absurd reach_powers.2 (not_le.mpr habove)
  have hbits {num den : Nat} (hden : den ≠ 0) (hquotient : (num / den : ℚ) = n * 10 ^ e) :
      nearestBits num den = (parts x).bits := by
    rw [hcanonical.nearestBits_of_near hpos hden (hquotient ▸ hn)]
    exact Nat.min_eq_left (bits_parts_lt h).le
  have hmagnitude : (if e < 0 then
      Float.ofBits (UInt64.ofNat (nearestBits n (Nat.pow 10 e.natAbs)))
      else Float.ofBits (UInt64.ofNat (nearestBits (n * Nat.pow 10 e.natAbs) 1))) =
      Float.ofBits (UInt64.ofNat (parts x).bits) := by
    split
    · next he =>
      have hden : Nat.pow 10 e.natAbs ≠ 0 := (Nat.pow_pos (by decide)).ne'
      rw [hbits hden (by rw [ten_zpow_of_neg he, div_eq_mul_inv]; rfl)]
    · next he =>
      rw [hbits one_ne_zero (by rw [ten_zpow_of_nonneg he]; simp)]
  unfold ofDecimal
  dsimp only
  have hkept : ¬(n == 0 || decide ((Nat.toDigits 10 n).length + e < -330)) = true := by
    simp only [Bool.or_eq_true, beq_iff_eq, decide_eq_true_eq]
    omega
  rw [if_neg hkept, if_neg hhigh, hmagnitude]
  exact eq_of_bits h

private theorem ofDecimal_zero {x : Float} (h : (x.isNaN || x.isInf) = false)
    (hzero : (parts x).significand = 0) (e : Int) : ofDecimal (parts x).negative 0 e = x := by
  have hbits : (parts x).bits = 0 := by
    rw [Parts.bits, hzero]
    rfl
  have hself := eq_of_bits h
  rw [hbits] at hself
  have hword : (0 : Float) = Float.ofBits (UInt64.ofNat 0) :=
    Float.toBits_inj.mp (by decide +kernel)
  rw [← hword] at hself
  exact hself

/-- The number of the digits in which a finite double is written is read as the double. -/
theorem ofDecimal_eq_self {x : Float} (h : (x.isNaN || x.isInf) = false) {n : Nat} {e : Int}
    (hn : (n * 10 ^ e : ℚ) = (writtenDigits (parts x)).number) :
    ofDecimal (parts x).negative n e = x := by
  unfold writtenDigits at hn
  split at hn
  · next hzero =>
    have hzeroes : (⟨['0'], 0⟩ : Digits).number = 0 := by
      simp [Digits.number, Nat.ofDigitChars_cons]
    rw [hzeroes, mul_eq_zero, Nat.cast_eq_zero] at hn
    obtain rfl := hn.resolve_right (ten_zpow_pos e).ne'
    exact ofDecimal_zero h (beq_iff_eq.mp hzero) e
  · next hzero =>
    have hpos : 0 < (parts x).significand := Nat.pos_of_ne_zero (by simpa using hzero)
    have hfound := near_search (canonical_parts x) hpos
    rw [← Digits.number_ofGrid] at hfound
    exact ofDecimal_of_near h hpos (hn ▸ hfound)

end Value

end BusinessAtlas.Decimal
