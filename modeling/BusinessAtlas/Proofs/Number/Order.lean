import BusinessAtlas.Number.Scalar
import BusinessAtlas.Proofs.Number.Range

/-!
# The order of numbers

Numbers are in the order of their exact values, with the infinities at both ends; an undefined double
has no value and is in order with none. So the order is a strict one, across integers and doubles: no
number is less than itself, and what is less than a smaller number is less than the larger one.
-/

namespace BusinessAtlas

namespace Binary64

open Float.Model
open Float.Model.UnpackedFloat

/-- A value, or one of the infinities. -/
abbrev Extended : Type := WithBot (WithTop ℚ)

/-- A finite value. -/
def Extended.ofRat (q : ℚ) : Extended := ((q : WithTop ℚ) : WithBot (WithTop ℚ))

@[simp] theorem Extended.ofRat_lt {p q : ℚ} : ofRat p < ofRat q ↔ p < q := by
  rw [ofRat, ofRat, WithBot.coe_lt_coe, WithTop.coe_lt_coe]

@[simp] theorem Extended.ofRat_inj {p q : ℚ} : ofRat p = ofRat q ↔ p = q := by
  rw [ofRat, ofRat, WithBot.coe_inj, WithTop.coe_inj]

@[simp] theorem Extended.bot_lt_ofRat (q : ℚ) : ⊥ < ofRat q := WithBot.bot_lt_coe _

@[simp] theorem Extended.ofRat_lt_top (q : ℚ) : ofRat q < ⊤ :=
  WithBot.coe_lt_coe.mpr (WithTop.coe_lt_top q)

/-- One of the infinities. -/
def Extended.IsEnd (p : Extended) : Prop := p = ⊥ ∨ p = ⊤

theorem Extended.IsEnd.lt_iff {p : Extended} (h : p.IsEnd) (q r : ℚ) :
    (ofRat q < p ↔ ofRat r < p) ∧ (p < ofRat q ↔ p < ofRat r) := by
  rcases h with rfl | rfl <;> simp

namespace Parts

/-- The value without its sign. -/
def magnitude (p : Parts) : ℚ := p.significand * (2 : ℚ) ^ p.exponent

def value (p : Parts) : ℚ := if p.negative then -p.magnitude else p.magnitude

@[simp] theorem value_negative (m : Nat) (e : Int) : value ⟨true, m, e⟩ = -magnitude ⟨true, m, e⟩ := rfl

@[simp] theorem value_positive (m : Nat) (e : Int) : value ⟨false, m, e⟩ = magnitude ⟨false, m, e⟩ := rfl

theorem mkRat_ratio (p : Parts) : mkRat p.ratio.1 p.ratio.2 = p.magnitude := by
  unfold ratio magnitude
  split
  · next hneg =>
    have hexponent : p.exponent = -(p.exponent.natAbs : Int) := by omega
    rw [Rat.mkRat_eq_div, hexponent, zpow_neg, zpow_natCast, Int.natAbs_neg, Int.natAbs_natCast,
      div_eq_mul_inv]
    simp
  · next hpos =>
    have hexponent : p.exponent = (p.exponent.natAbs : Int) := by omega
    rw [Rat.mkRat_eq_div, hexponent, zpow_natCast, Int.natAbs_natCast]
    simp

/-- A significand has no more places than there are, and all of them unless the exponent is the least
one. -/
structure Canonical (p : Parts) : Prop where
  lt : p.significand < 2 ^ 53
  le : -1074 ≤ p.exponent
  full : p.exponent = -1074 ∨ 2 ^ 52 ≤ p.significand

theorem Canonical.magnitude_lt {p q : Parts} (hp : p.Canonical) (hq : q.Canonical)
    (h : p.exponent < q.exponent) : p.magnitude < q.magnitude := by
  have hp' := hp.le
  have hfull : 2 ^ 52 ≤ q.significand := hq.full.resolve_left (by omega)
  have hlow : (p.significand : ℚ) < 2 ^ 53 := by exact_mod_cast hp.lt
  have hhigh : (2 ^ 52 : ℚ) ≤ q.significand := by exact_mod_cast hfull
  calc p.magnitude < 2 ^ 53 * (2 : ℚ) ^ p.exponent :=
        mul_lt_mul_of_pos_right hlow (zpow_pos two_pos _)
    _ = 2 ^ 52 * (2 : ℚ) ^ (p.exponent + 1) := by
        rw [zpow_add_one₀ two_ne_zero]
        ring
    _ ≤ 2 ^ 52 * (2 : ℚ) ^ q.exponent := by
        refine mul_le_mul_of_nonneg_left ?_ (by positivity)
        exact zpow_le_zpow_right₀ one_le_two (by omega)
    _ ≤ q.magnitude := mul_le_mul_of_nonneg_right hhigh (zpow_pos two_pos _).le

theorem Canonical.magnitude_lt_iff {p q : Parts} (hp : p.Canonical) (hq : q.Canonical) :
    p.magnitude < q.magnitude ↔
      ((compare p.exponent q.exponent).then (compare p.significand q.significand)) = .lt := by
  rcases lt_trichotomy p.exponent q.exponent with h | h | h
  · simp [hp.magnitude_lt hq h, Int.compare_eq_lt.mpr h]
  · have hscale : (0 : ℚ) < 2 ^ q.exponent := zpow_pos two_pos _
    rw [magnitude, magnitude, h, mul_lt_mul_iff_left₀ hscale, Nat.cast_lt]
    simp [Nat.compare_eq_lt]
  · simp [(hq.magnitude_lt hp h).le, Int.compare_eq_gt.mpr h]

end Parts

theorem canonical_parts (x : Float) : (parts x).Canonical := by
  unfold parts
  constructor
  · dsimp only
    split <;> simp only [Nat.pow_eq] <;> omega
  · dsimp only
    split
    · exact Int.le_refl _
    · next h =>
      have hfield : (x.toBits.toNat / Nat.pow 2 52 % Nat.pow 2 11) ≠ 0 := by simpa using h
      omega
  · dsimp only
    split
    · exact .inl rfl
    · exact .inr (by simp only [Nat.pow_eq]; omega)

def isNegative : Sign → Bool
  | .negative => true
  | .positive => false

/-- The value of an unpacked double, if it is defined. -/
def extended? : UnpackedFloat → Option Extended
  | .notANumber => none
  | .infinity .positive => some ⊤
  | .infinity .negative => some ⊥
  | .zero _ => some (.ofRat 0)
  | .finite s m e _ => some (.ofRat (Parts.value ⟨isNegative s, m, e⟩))

section

variable {x : Float} {s : Sign}

private theorem unpack_toModel (x : Float) :
    x.toModel.unpack = UnpackedFloat.unpack Format.binary64 x.toBits.toBitVec := rfl

private theorem isNegative_ofBitVec (v : BitVec 1) : isNegative (Sign.ofBitVec v) = (v.toNat == 1) := by
  rcases BitVec.eq_zero_or_eq_one v with rfl | rfl
  · rfl
  · rfl

private theorem parts_eq (x : Float) : parts x =
    let v := x.toBits.toBitVec
    let field := @unpackExponent Format.binary64 v
    let fraction := @unpackMantissa Format.binary64 v
    { negative := isNegative (Sign.ofBitVec (@unpackSign Format.binary64 v))
      significand := if field = 0#11 then fraction.toNat else (1#1 ++ fraction).toNat
      exponent := if field = 0#11 then -1074 else (field.toNat : Int) - 1075 } := by
  have hzero : @unpackExponent Format.binary64 x.toBits.toBitVec = 0#11 ↔
      x.toBits.toBitVec.toNat / 2 ^ 52 % 2 ^ 11 = 0 := by
    rw [← BitVec.toNat_inj, toNat_exponentField]
    rfl
  simp only [isNegative_ofBitVec, hzero, toNat_implicit, toNat_signField, toNat_exponentField,
    toNat_fractionField]
  simp only [parts, beq_iff_eq]
  rfl

private theorem significand_of_zero (h : x.toModel.unpack = .zero s) : (parts x).significand = 0 := by
  rw [unpack_toModel, UnpackedFloat.unpack] at h
  rw [parts_eq]
  dsimp only at h ⊢
  split at h
  · split at h <;> cases h
  · split at h
    · next hfield =>
      split at h
      · next hfraction =>
        rw [if_pos hfield, hfraction]
        rfl
      · cases h
    · cases h

private theorem parts_of_finite {m : Nat} {e : Int} {hm : 0 < m}
    (h : x.toModel.unpack = .finite s m e hm) : parts x = ⟨isNegative s, m, e⟩ := by
  rw [unpack_toModel, UnpackedFloat.unpack] at h
  rw [parts_eq]
  dsimp only at h ⊢
  split at h
  · split at h <;> cases h
  · split at h
    · next hfield =>
      split at h
      · cases h
      · cases h
        rw [if_pos hfield, if_pos hfield, hfield]
        rfl
    · next hfield =>
      cases h
      rw [if_neg hfield, if_neg hfield]
      rfl

private theorem lt_iff_compare (x y : Float) :
    x < y ↔ x.toModel.unpack.compare y.toModel.unpack = some .lt := by
  have hmodel : x < y ↔ x.toModel < y.toModel := decide_eq_true_iff
  have hcompare : x.toModel < y.toModel ↔
      x.toModel.unpack.compare y.toModel.unpack = some .lt := by
    change UnpackedFloat.lt _ _ = true ↔ _
    simp [UnpackedFloat.lt]
  exact hmodel.trans hcompare

theorem unpack_zero : (0 : Float).toModel.unpack = .zero .positive := by
  have hbits : (0 : Float).toBits.toBitVec = 0#64 := by decide +kernel
  rw [unpack_toModel, hbits]
  rfl

/-- The number has the significand and the exponent of some bits. -/
private def IsCanonical : UnpackedFloat → Prop
  | .finite s m e _ => Parts.Canonical ⟨isNegative s, m, e⟩
  | .zero _ | .infinity _ | .notANumber => True

private theorem isCanonical_unpack (x : Float) : IsCanonical x.toModel.unpack := by
  have hcanonical := canonical_parts x
  cases h : x.toModel.unpack with
  | finite s m e hm => rwa [parts_of_finite h] at hcanonical
  | zero s => trivial
  | infinity s => trivial
  | notANumber => trivial

private theorem magnitude_pos {p : Parts} (h : 0 < p.significand) : 0 < p.magnitude :=
  mul_pos (Nat.cast_pos.mpr h) (zpow_pos two_pos _)

private theorem compare_swap (m n : Nat) (d e : Int) :
    ((compare d e).then (compare m n)).swap = (compare e d).then (compare n m) := by
  rw [Ordering.swap_then, Int.compare_swap, Nat.compare_swap]

private theorem compare_finite {s t : Sign} {m n : Nat} {e d : Int} {hm : 0 < m} {hn : 0 < n}
    (hf : IsCanonical (.finite s m e hm)) (hg : IsCanonical (.finite t n d hn)) :
    UnpackedFloat.compare (.finite s m e hm) (.finite t n d hn) = some .lt ↔
      Parts.value ⟨isNegative s, m, e⟩ < Parts.value ⟨isNegative t, n, d⟩ := by
  have hfpos : 0 < Parts.magnitude ⟨isNegative s, m, e⟩ := magnitude_pos hm
  have hgpos : 0 < Parts.magnitude ⟨isNegative t, n, d⟩ := magnitude_pos hn
  have hlt := Parts.Canonical.magnitude_lt_iff hf hg
  have hgt := Parts.Canonical.magnitude_lt_iff hg hf
  cases s with
  | positive =>
    cases t with
    | positive => exact Option.some_inj.trans hlt.symm
    | negative =>
      have hle := (neg_nonpos.mpr hgpos.le).trans hfpos.le
      simpa [UnpackedFloat.compare, isNegative] using hle
  | negative =>
    cases t with
    | positive =>
      have hlt := (neg_nonpos.mpr hfpos.le).trans_lt hgpos
      simpa [UnpackedFloat.compare, isNegative] using hlt
    | negative =>
      have hvalues : Parts.value ⟨true, m, e⟩ < Parts.value ⟨true, n, d⟩ ↔
          Parts.magnitude ⟨true, n, d⟩ < Parts.magnitude ⟨true, m, e⟩ := neg_lt_neg_iff
      refine Option.some_inj.trans ?_
      rw [compare_swap]
      exact hgt.symm.trans hvalues.symm

private theorem compare_eq_lt_iff {f g : UnpackedFloat} (hf : IsCanonical f) (hg : IsCanonical g) :
    f.compare g = some .lt ↔
      ∃ p q, extended? f = some p ∧ extended? g = some q ∧ p < q := by
  have hends : (⊥ : Extended) < ⊤ := bot_lt_top
  cases f with
  | notANumber => simp [UnpackedFloat.compare, extended?]
  | infinity s =>
    cases g with
    | notANumber => cases s <;> simp [UnpackedFloat.compare, extended?]
    | infinity t =>
      have hself (u : Sign) : compare u u ≠ .lt := by cases u <;> decide
      have hsigns : compare Sign.negative Sign.positive = .lt := by decide
      have hsigns' : compare Sign.positive Sign.negative ≠ .lt := by decide
      cases s <;> cases t <;> simp [UnpackedFloat.compare, extended?, hends, hself, hsigns, hsigns']
    | zero t => cases s <;> simp [UnpackedFloat.compare, extended?]
    | finite t n d hn => cases s <;> simp [UnpackedFloat.compare, extended?]
  | zero s =>
    cases g with
    | notANumber => simp [UnpackedFloat.compare, extended?]
    | infinity t => cases t <;> simp [UnpackedFloat.compare, extended?]
    | zero t => simp [UnpackedFloat.compare, extended?]
    | finite t n d hn =>
      have hpos (b : Bool) : 0 < Parts.magnitude ⟨b, n, d⟩ := magnitude_pos hn
      cases t with
      | positive => simp [UnpackedFloat.compare, extended?, isNegative, hpos]
      | negative => simp [UnpackedFloat.compare, extended?, isNegative, (hpos _).le]
  | finite s m e hm =>
    have hpos (b : Bool) : 0 < Parts.magnitude ⟨b, m, e⟩ := magnitude_pos hm
    cases g with
    | notANumber => cases s <;> simp [UnpackedFloat.compare, extended?]
    | infinity t => cases s <;> cases t <;> simp [UnpackedFloat.compare, extended?]
    | zero t =>
      cases s with
      | positive => simp [UnpackedFloat.compare, extended?, isNegative, (hpos _).le]
      | negative => simp [UnpackedFloat.compare, extended?, isNegative, hpos]
    | finite t n d hn =>
      rw [compare_finite hf hg]
      simp [extended?]

theorem lt_iff {x y : Float} : x < y ↔ ∃ p q,
    extended? x.toModel.unpack = some p ∧ extended? y.toModel.unpack = some q ∧ p < q := by
  rw [lt_iff_compare]
  exact compare_eq_lt_iff (isCanonical_unpack x) (isCanonical_unpack y)

private theorem compare_comm (f g : UnpackedFloat) : g.compare f = (f.compare g).map Ordering.swap := by
  have hsigns (s t : Sign) : compare t s = (compare s t).swap := by cases s <;> cases t <;> rfl
  cases f with
  | notANumber => cases g <;> simp [UnpackedFloat.compare]
  | infinity s =>
    cases g with
    | infinity t => simp [UnpackedFloat.compare, hsigns s t]
    | _ => cases s <;> simp [UnpackedFloat.compare]
  | zero s =>
    cases g with
    | infinity t => cases t <;> simp [UnpackedFloat.compare]
    | finite t n d hn => cases t <;> simp [UnpackedFloat.compare]
    | _ => simp [UnpackedFloat.compare]
  | finite s m e hm =>
    cases g with
    | finite t n d hn => cases s <;> cases t <;> simp [UnpackedFloat.compare, compare_swap]
    | infinity t => cases s <;> cases t <;> simp [UnpackedFloat.compare]
    | _ => cases s <;> simp [UnpackedFloat.compare]

private theorem compare_eq_none_iff (f g : UnpackedFloat) :
    f.compare g = none ↔ extended? f = none ∨ extended? g = none := by
  cases f with
  | notANumber => simp [UnpackedFloat.compare, extended?]
  | infinity s =>
    cases g with
    | infinity t => cases s <;> cases t <;> simp [UnpackedFloat.compare, extended?]
    | _ => cases s <;> simp [UnpackedFloat.compare, extended?]
  | zero s =>
    cases g with
    | infinity t => cases t <;> simp [UnpackedFloat.compare, extended?]
    | finite t n d hn => cases t <;> simp [UnpackedFloat.compare, extended?]
    | _ => simp [UnpackedFloat.compare, extended?]
  | finite s m e hm =>
    cases g with
    | finite t n d hn => cases s <;> cases t <;> simp [UnpackedFloat.compare, extended?]
    | infinity t => cases s <;> cases t <;> simp [UnpackedFloat.compare, extended?]
    | _ => cases s <;> simp [UnpackedFloat.compare, extended?]

private theorem compare_eq_eq_iff {f g : UnpackedFloat} (hf : IsCanonical f) (hg : IsCanonical g) :
    f.compare g = some .eq ↔ ∃ p, extended? f = some p ∧ extended? g = some p := by
  have hlt := compare_eq_lt_iff hf hg
  have hgt := compare_eq_lt_iff hg hf
  have hnone := compare_eq_none_iff f g
  rw [compare_comm f g] at hgt
  cases hp : extended? f with
  | none => simp [hnone.mpr (.inl hp)]
  | some p =>
    cases hq : extended? g with
    | none => simp [hnone.mpr (.inr hq)]
    | some q =>
      simp only [hp, hq, Option.some_inj, reduceCtorEq, or_self, iff_false] at hlt hgt hnone
      obtain ⟨o, ho⟩ := Option.ne_none_iff_exists'.mp hnone
      simp only [ho, Option.map_some, Option.some_inj, exists_eq_left', exists_and_left] at hlt hgt ⊢
      cases o with
      | lt => simpa using (hlt.mp rfl).ne'
      | gt => simpa using (hgt.mp rfl).ne
      | eq =>
        have hle : ¬p < q := fun h => by cases hlt.mpr h
        have hge : ¬q < p := fun h => by cases hgt.mpr h
        simpa using le_antisymm (not_lt.mp hle) (not_lt.mp hge)

theorem beq_iff {x y : Float} : (x == y) = true ↔ ∃ p,
    extended? x.toModel.unpack = some p ∧ extended? y.toModel.unpack = some p := by
  have hmodel : (x == y) = (x.toModel.unpack.compare y.toModel.unpack == some .eq) := rfl
  rw [hmodel, beq_iff_eq]
  exact compare_eq_eq_iff (isCanonical_unpack x) (isCanonical_unpack y)

theorem rational?_cases (x : Float) :
    (∃ q, rational? x = some q ∧ extended? x.toModel.unpack = some (.ofRat q)) ∨
      rational? x = none ∧ ∀ p, extended? x.toModel.unpack = some p → p.IsEnd := by
  have hnan : x.isNaN = x.toModel.unpack.isNaN := rfl
  have hinf : x.isInf = x.toModel.unpack.isInf := rfl
  have hparts : ∀ s m e hm, x.toModel.unpack = .finite s m e hm → parts x = ⟨isNegative s, m, e⟩ :=
    fun _ _ _ _ h => parts_of_finite h
  have hzero : ∀ s, x.toModel.unpack = .zero s → (parts x).significand = 0 :=
    fun _ h => significand_of_zero h
  have hrational : rational? x = if x.isNaN || x.isInf then none else some (parts x).value := by
    unfold rational? Parts.value
    simp only [Parts.mkRat_ratio]
  rw [hrational, hnan, hinf]
  generalize x.toModel.unpack = f at hparts hzero ⊢
  cases f with
  | notANumber => exact .inr ⟨rfl, nofun⟩
  | infinity s =>
    refine .inr ⟨rfl, fun p hp => ?_⟩
    cases s with
    | positive => exact .inr (Option.some.inj hp).symm
    | negative => exact .inl (Option.some.inj hp).symm
  | zero s =>
    have hvalue : (parts x).value = 0 := by
      simp [Parts.value, Parts.magnitude, hzero s rfl]
    exact .inl ⟨0, by rw [hvalue]; rfl, rfl⟩
  | finite s m e hm => exact .inl ⟨_, rfl, by rw [hparts s m e hm rfl]; rfl⟩

theorem isNaN_iff {x : Float} : x.isNaN = true ↔ extended? x.toModel.unpack = none := by
  have hmodel : x.isNaN = x.toModel.unpack.isNaN := rfl
  rw [hmodel]
  cases x.toModel.unpack with
  | infinity s => cases s <;> simp [UnpackedFloat.isNaN, extended?]
  | _ => simp [UnpackedFloat.isNaN, extended?]

theorem lt_zero_iff {x : Float} :
    x < 0 ↔ ∃ p, extended? x.toModel.unpack = some p ∧ p < .ofRat 0 := by
  rw [lt_iff, unpack_zero]
  simp [extended?]

theorem zero_lt_iff {x : Float} :
    0 < x ↔ ∃ p, extended? x.toModel.unpack = some p ∧ .ofRat 0 < p := by
  rw [lt_iff, unpack_zero]
  simp [extended?]

end

end Binary64

namespace Number

open Binary64

/-- The value of a number, if it is defined. -/
def extended? : Number → Option Extended
  | int n => some (.ofRat n)
  | float x => Binary64.extended? x.toModel.unpack

/-- Numbers are in the order of their values. -/
theorem less_iff {a b : Number} : a.less b = true ↔ ∃ p q,
    a.extended? = some p ∧ b.extended? = some q ∧ p < q := by
  cases a with
  | int m =>
    cases b with
    | int n => simp [less, extended?]
    | float y =>
      simp only [less, rational?, extended?, toFloat]
      rcases rational?_cases y with ⟨q, hrational, hq⟩ | ⟨hrational, hends⟩
      · simp [hrational, hq]
      · simp only [hrational, decide_eq_true_iff, zero_lt_iff]
        constructor
        · rintro ⟨p, hp, hlt⟩
          exact ⟨_, p, rfl, hp, ((hends p hp).lt_iff 0 m).1.mp hlt⟩
        · rintro ⟨_, p, hm, hp, hlt⟩
          cases hm
          exact ⟨p, hp, ((hends p hp).lt_iff 0 m).1.mpr hlt⟩
  | float x =>
    cases b with
    | int n =>
      simp only [less, rational?, extended?, toFloat]
      rcases rational?_cases x with ⟨q, hrational, hq⟩ | ⟨hrational, hends⟩
      · simp [hrational, hq]
      · simp only [hrational, decide_eq_true_iff, lt_zero_iff]
        constructor
        · rintro ⟨p, hp, hlt⟩
          exact ⟨p, _, hp, rfl, ((hends p hp).lt_iff 0 n).2.mp hlt⟩
        · rintro ⟨p, _, hp, hn, hlt⟩
          cases hn
          exact ⟨p, hp, ((hends p hp).lt_iff 0 n).2.mpr hlt⟩
    | float y =>
      rw [less, decide_eq_true_iff, lt_iff]
      rfl

theorem less_self (a : Number) : a.less a = false := by
  rw [Bool.eq_false_iff]
  intro h
  obtain ⟨p, q, hp, hq, hlt⟩ := less_iff.mp h
  rw [hp, Option.some_inj] at hq
  exact lt_irrefl p (hq ▸ hlt)

theorem less_trans {a b c : Number} (hab : a.less b = true) (hbc : b.less c = true) :
    a.less c = true := by
  obtain ⟨p, q, hp, hq, hpq⟩ := less_iff.mp hab
  obtain ⟨q', r, hq', hr, hqr⟩ := less_iff.mp hbc
  rw [hq, Option.some_inj] at hq'
  exact less_iff.mpr ⟨p, r, hp, hr, hpq.trans (hq' ▸ hqr)⟩

/-- Numbers are the same if they have the same value. -/
theorem same_iff {a b : Number} :
    a.same b = true ↔ ∃ p, a.extended? = some p ∧ b.extended? = some p := by
  have hend (p : Extended) (h : p.IsEnd) (q : ℚ) : p ≠ .ofRat q := by
    rcases h with rfl | rfl
    · exact (Extended.bot_lt_ofRat q).ne
    · exact (Extended.ofRat_lt_top q).ne'
  cases a with
  | int m =>
    cases b with
    | int n =>
      simp only [same, extended?, beq_iff_eq, Option.some_inj, exists_eq_left', Extended.ofRat_inj,
        Int.cast_inj]
      exact eq_comm
    | float y =>
      simp only [same, rational?, extended?]
      rcases rational?_cases y with ⟨q, hrational, hq⟩ | ⟨hrational, hends⟩
      · simpa [hrational, hq] using eq_comm
      · simp only [hrational, Bool.false_eq_true, false_iff]
        rintro ⟨p, hp, hy⟩
        exact hend p (hends p hy) m (Option.some.inj hp).symm
  | float x =>
    cases b with
    | int n =>
      simp only [same, rational?, extended?]
      rcases rational?_cases x with ⟨q, hrational, hq⟩ | ⟨hrational, hends⟩
      · simpa [hrational, hq] using eq_comm
      · simp only [hrational, Bool.false_eq_true, false_iff]
        rintro ⟨p, hx, hp⟩
        exact hend p (hends p hx) n (Option.some.inj hp).symm
    | float y =>
      rw [same, beq_iff]
      rfl

end Number

end BusinessAtlas
