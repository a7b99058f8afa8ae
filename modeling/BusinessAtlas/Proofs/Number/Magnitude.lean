import BusinessAtlas.Number.Scalar
import BusinessAtlas.Proofs.Number.Range

/-!
# The magnitude of doubles

What is computed from numbers of moderate size is finite. A double is below a power of two if the
total exponent of its significand is at most that of the power; every operation raises it by a few
places only, and rounding by one. A sum of small terms does not even do that: a term far below the
last place of a power of two does not carry a sum over it, so such sums stay below the power however
many terms they have.
-/

namespace BusinessAtlas

namespace Binary64

open Float.Model
open Float.Model.UnpackedFloat

/-- Zero, or a number below `2 ^ k`. -/
def Within (k : Nat) : UnpackedFloat → Prop
  | .zero _ => True
  | .finite _ m e _ => (m.log2 : Int) + 1 + e ≤ k
  | .infinity _ | .notANumber => False

/-- The magnitude of the double is below `2 ^ k`. -/
def Below (k : Nat) (x : Float) : Prop := Within k x.toModel.unpack

/-- A number that is at least one, up to its sign. -/
def Whole : UnpackedFloat → Prop
  | .finite _ m e _ => 0 ≤ (m.log2 : Int) + e
  | .zero _ | .infinity _ | .notANumber => False

/-- The magnitude of the double is at least one. -/
def OneLe (x : Float) : Prop := Whole x.toModel.unpack

variable {j k : Nat} {x y : Float} {f g : UnpackedFloat}

instance (k : Nat) : DecidablePred (Within k)
  | .zero _ => isTrue trivial
  | .finite _ m e _ => inferInstanceAs (Decidable ((m.log2 : Int) + 1 + e ≤ k))
  | .infinity _ | .notANumber => isFalse id

instance (k : Nat) : DecidablePred (Below k) := fun x =>
  inferInstanceAs (Decidable (Within k x.toModel.unpack))

theorem Within.mono (h : Within j f) (hjk : j ≤ k) : Within k f := by
  cases f with
  | zero => trivial
  | finite s m e => exact Int.le_trans h (Int.ofNat_le.mpr hjk)
  | infinity => exact h
  | notANumber => exact h

theorem Below.mono (h : Below j x) (hjk : j ≤ k) : Below k x := Within.mono h hjk

theorem Below.isFinite (h : Below k x) : (x.isNaN || x.isInf) = false := by
  show (x.toModel.unpack.isNaN || x.toModel.unpack.isInf) = false
  unfold Below at h
  generalize x.toModel.unpack = f at h
  cases f with
  | zero => rfl
  | finite => rfl
  | infinity => exact h.elim
  | notANumber => exact h.elim

section

variable {b : BitVec 64}

private theorem log2_mantissa (m : BitVec 52) : m.toNat.log2 ≤ 51 := by
  by_cases hm : m.toNat = 0
  · rw [hm]
    decide
  · exact Nat.le_of_lt_succ ((Nat.log2_lt hm).mpr m.isLt)

private theorem log2_implicit (m : BitVec 52) : (1#1 ++ m).toNat.log2 = 52 := by
  have hm := m.isLt
  rw [toNat_implicit]
  exact (Nat.log2_eq_iff (by omega)).mpr ⟨by omega, by omega⟩

private theorem canonical_unpack {s : Sign} {m : Nat} {e : Int} {hm : 0 < m}
    (h : UnpackedFloat.unpack Format.binary64 b = .finite s m e hm) :
    m.log2 ≤ 52 ∧ (m.log2 = 52 ∨ e = -1074) := by
  simp only [UnpackedFloat.unpack] at h
  split at h
  · split at h <;> cases h
  · split at h
    · next hzero =>
      split at h
      · cases h
      · cases h
        rw [hzero]
        exact ⟨Nat.le_succ_of_le (log2_mantissa _), .inr rfl⟩
    · cases h
      have hlog := log2_implicit (@unpackMantissa Format.binary64 b)
      exact ⟨Nat.le_of_eq hlog, .inl hlog⟩

private theorem within_unpack (hones : (@unpackExponent Format.binary64 b).toNat ≠ 2047)
    (hk : ((@unpackExponent Format.binary64 b).toNat : Int) - 1022 ≤ k) :
    Within k (UnpackedFloat.unpack Format.binary64 b) := by
  have hbias : (Format.binary64.exponentBias : Int) = 1023 := rfl
  have hnotOnes : @unpackExponent Format.binary64 b ≠ -1#11 := fun h => hones (by rw [h]; rfl)
  simp only [UnpackedFloat.unpack, if_neg hnotOnes]
  split
  · next hzero =>
    split
    · trivial
    · have hlog := log2_mantissa (@unpackMantissa Format.binary64 b)
      rw [hzero]
      show ((@unpackMantissa Format.binary64 b).toNat.log2 : Int) + 1 + (0 - 1075 + 1) ≤ k
      omega
  · have hlog := log2_implicit (@unpackMantissa Format.binary64 b)
    show ((1#1 ++ @unpackMantissa Format.binary64 b).toNat.log2 : Int) + 1 +
      (((@unpackExponent Format.binary64 b).toNat : Int) - 1075) ≤ k
    omega

/-- Zero, or a number below `2 ^ k` that is packed without an overflow. -/
private def Fits (k : Nat) : UnpackedFloat → Prop
  | .zero _ => True
  | .finite _ m e _ => (m.log2 : Int) + 1 + e ≤ k ∧ e ≤ 971
  | .infinity _ | .notANumber => False

private theorem within_components {s : Sign} {e : BitVec 11} {m : BitVec 52} (hones : e.toNat ≠ 2047)
    (hk : (e.toNat : Int) - 1022 ≤ k) :
    Within k (UnpackedFloat.unpack Format.binary64 (packComponents Format.binary64 s e m)) := by
  apply within_unpack
  · rwa [unpackExponent_packComponents]
  · rwa [unpackExponent_packComponents]

private theorem within_pack (hf : Fits k f) : Within k (Float.Model.pack f).unpack := by
  show Within k (UnpackedFloat.unpack Format.binary64 (UnpackedFloat.pack Format.binary64 f))
  cases f with
  | zero s =>
    apply within_components
    · decide
    · show (0 : Int) - 1022 ≤ k
      omega
  | finite s m e hm =>
    obtain ⟨hwithin, hexponent⟩ := hf
    have hbias : (Format.binary64.exponentBias : Int) = 1023 := rfl
    simp only [UnpackedFloat.pack]
    rw [hbias, if_neg (by show ¬2 ^ 11 ≤ (e + 1023 + (52 : Nat)).toNat + 1; omega)]
    have hfield : (BitVec.ofNat 11 (e + 1023 + (52 : Nat)).toNat).toNat = (e + 1075).toNat := by
      rw [BitVec.toNat_ofNat]
      omega
    split
    · next hnormal =>
      have hlog : m.log2 = 52 := Nat.add_right_cancel hnormal
      apply within_components
      · show (BitVec.ofNat 11 (e + 1023 + (52 : Nat)).toNat).toNat ≠ 2047
        omega
      · show ((BitVec.ofNat 11 (e + 1023 + (52 : Nat)).toNat).toNat : Int) - 1022 ≤ k
        omega
    · apply within_components
      · decide
      · show (0 : Int) - 1022 ≤ k
        omega
  | infinity => exact hf.elim
  | notANumber => exact hf.elim

section

variable {s : Sign} {m n : Nat} {e : Int} {accuracy : Accuracy}

private theorem mantissa_shift (em : ExtendedMantissa) (n : Nat) :
    (em >>> n).mantissa = em.mantissa / 2 ^ n := by
  show (n.repeat ExtendedMantissa.shiftRightOne em).mantissa = em.mantissa / 2 ^ n
  induction n with
  | zero => exact (Nat.div_one _).symm
  | succ n ih =>
    show (n.repeat ExtendedMantissa.shiftRightOne em).mantissa / 2 = em.mantissa / 2 ^ (n + 1)
    rw [ih, Nat.div_div_eq_div_mul, Nat.pow_succ]

private theorem roundedMantissa_le (em : ExtendedMantissa) :
    em.roundedMantissa ≤ em.mantissa + em.roundBit.toNat := by
  obtain ⟨m, round, sticky⟩ := em
  cases round <;> cases sticky <;>
    simp [ExtendedMantissa.roundedMantissa, ExtendedMantissa.accuracy, Accuracy.roundToNearestEven]
  omega

private theorem mantissa_ofMantissaAndAccuracy (m : Nat) (accuracy : Accuracy) :
    (ExtendedMantissa.ofMantissaAndAccuracy m accuracy).mantissa = m := by
  cases accuracy with
  | exact => rfl
  | inexact o => cases o <;> rfl

/-- What is left of a significand when some of its bits are dropped. -/
private def rounded (m n : Nat) (accuracy : Accuracy) : Nat :=
  (ExtendedMantissa.ofMantissaAndAccuracy m accuracy >>> n).roundedMantissa

private theorem rounded_le (m n : Nat) (accuracy : Accuracy) :
    rounded m n accuracy ≤ m / 2 ^ n + 1 := by
  have hle := roundedMantissa_le (ExtendedMantissa.ofMantissaAndAccuracy m accuracy >>> n)
  have hbit := Bool.toNat_le (ExtendedMantissa.ofMantissaAndAccuracy m accuracy >>> n).roundBit
  rw [mantissa_shift, mantissa_ofMantissaAndAccuracy] at hle
  exact Nat.le_trans hle (Nat.add_le_add_left hbit _)

private theorem rounded_succ_le (m n : Nat) (accuracy : Accuracy) :
    rounded m (n + 1) accuracy ≤ (m / 2 ^ n + 1) / 2 := by
  let em := ExtendedMantissa.ofMantissaAndAccuracy m accuracy >>> n
  have hmantissa : em.mantissa = m / 2 ^ n := by
    rw [mantissa_shift, mantissa_ofMantissaAndAccuracy]
  have hle : rounded m (n + 1) accuracy ≤ em.mantissa / 2 + (em.mantissa % 2 != 0).toNat :=
    roundedMantissa_le em.shiftRightOne
  rw [hmantissa] at hle
  rcases Nat.mod_two_eq_zero_or_one (m / 2 ^ n) with hmod | hmod
  · simp [hmod] at hle
    omega
  · simp [hmod] at hle
    omega

private theorem rounded_zero_exact (m : Nat) : rounded m 0 .exact = m := rfl

private theorem log2_div_add_le (h : m / n ≠ 0) : (m / n).log2 + n.log2 ≤ m.log2 := by
  have hm : m ≠ 0 := by
    rintro rfl
    exact h (Nat.zero_div _)
  have hn : n ≠ 0 := by
    rintro rfl
    exact h (Nat.div_zero _)
  rw [Nat.le_log2 hm, Nat.pow_add]
  calc 2 ^ (m / n).log2 * 2 ^ n.log2 ≤ m / n * n :=
        Nat.mul_le_mul (Nat.log2_self_le h) (Nat.log2_self_le hn)
    _ ≤ m := Nat.div_mul_le_self m n

private theorem log2_lt (h : m < 2 ^ n) (hn : 0 < n) : m.log2 < n := by
  by_cases hm : m = 0
  · rwa [hm]
  · exact (Nat.log2_lt hm).mpr h

/-- How many bits of a significand do not fit. -/
private def excess (m : Nat) (e : Int) : Nat :=
  (Format.binary64.targetExponent (totalExponent m e) - e).toNat

private theorem excess_eq (m : Nat) (e : Int) :
    excess m e = (max ((m.log2 : Int) + 1 + e - 53) (-1074) - e).toNat := rfl

private theorem shiftToTargetExponent_eq (m : Nat) (e : Int) (accuracy : Accuracy) :
    shiftToTargetExponent Format.binary64 m e accuracy =
      (ExtendedMantissa.ofMantissaAndAccuracy m accuracy >>> excess m e, e + excess m e) := rfl

private theorem fits_of_rounded (hk : k ≤ 1024) (he : e ≤ 971) (hm : (m.log2 : Int) + 1 + e ≤ k)
    (hr : ((rounded m (excess m e) accuracy).log2 : Int) + 1 + (e + excess m e) ≤ k) :
    Fits k (roundWithAccuracy Format.binary64 s m e accuracy) := by
  have hfirst : e + (excess m e : Int) ≤ 971 := by
    rw [excess_eq]
    omega
  rw [roundWithAccuracy, shiftToTargetExponent_eq]
  dsimp only
  unfold rounded at hr
  generalize (ExtendedMantissa.ofMantissaAndAccuracy m accuracy >>> excess m e).roundedMantissa = r
    at hr ⊢
  generalize e + (excess m e : Int) = e₁ at hfirst hr ⊢
  rw [shiftToTargetExponent_eq]
  dsimp only
  rw [mantissa_shift, mantissa_ofMantissaAndAccuracy]
  split
  · trivial
  · next hne =>
    have hlog := log2_div_add_le hne
    rw [Nat.log2_two_pow] at hlog
    refine ⟨by omega, ?_⟩
    have hsecond := excess_eq r e₁
    omega

private theorem fits_roundWithAccuracy (hk : k ≤ 1023) (he : e ≤ 971)
    (hm : (m.log2 : Int) + 1 + e ≤ k) :
    Fits (k + 1) (roundWithAccuracy Format.binary64 s m e accuracy) := by
  apply fits_of_rounded (by omega) he (by omega)
  have hr := rounded_le m (excess m e) accuracy
  have hexcess := excess_eq m e
  generalize rounded m (excess m e) accuracy = r at hr ⊢
  by_cases hq : m / 2 ^ excess m e = 0
  · have hlog : r.log2 < 1 := log2_lt (by omega) (by omega)
    omega
  · have hlog := log2_div_add_le hq
    rw [Nat.log2_two_pow] at hlog
    have hself : m / 2 ^ excess m e < 2 ^ ((m / 2 ^ excess m e).log2 + 1) := Nat.lt_log2_self
    have hpos := Nat.two_pow_pos ((m / 2 ^ excess m e).log2 + 1)
    have hnext : r.log2 < (m / 2 ^ excess m e).log2 + 1 + 1 := by
      apply log2_lt
      · rw [Nat.pow_succ 2 ((m / 2 ^ excess m e).log2 + 1)]
        omega
      · omega
    omega

private theorem log2_shiftLeft_le (m n : Nat) : (m <<< n).log2 ≤ m.log2 + n := by
  rw [Nat.shiftLeft_eq]
  apply Nat.le_of_lt_succ
  apply log2_lt
  · rw [Nat.succ_eq_add_one, Nat.add_right_comm, Nat.pow_add]
    exact Nat.mul_lt_mul_of_pos_right Nat.lt_log2_self (Nat.two_pow_pos n)
  · omega

private theorem round_eq (s : Sign) (m : Nat) (e : Int) : ∃ n : Nat,
    e - n ≤ max ((m.log2 : Int) + 1 + e - 53) (-1074) ∧
      round Format.binary64 s m e =
        roundWithAccuracy Format.binary64 s (m <<< n) (e - n) .exact := by
  refine ⟨(e - Format.binary64.targetExponent (totalExponent m e)).toNat, ?_, rfl⟩
  show e - ((e - max ((m.log2 : Int) + 1 + e - 53) (-1074)).toNat : Int) ≤ _
  omega

private theorem fits_round (hk : k ≤ 1023) (hm : (m.log2 : Int) + 1 + e ≤ k) :
    Fits (k + 1) (round Format.binary64 s m e) := by
  obtain ⟨n, hn, heq⟩ := round_eq s m e
  rw [heq]
  have hlog := log2_shiftLeft_le m n
  exact fits_roundWithAccuracy hk (by omega) (by omega)

private theorem normalize_cases (M : Int) (e : Int) (z : Sign) :
    normalize Format.binary64 M e z = .zero z ∨
      ∃ s, normalize Format.binary64 M e z = round Format.binary64 s M.natAbs e := by
  unfold UnpackedFloat.normalize
  split
  · next h =>
    have hneg : (-M).toNat = M.natAbs := by
      have := Int.compare_eq_lt.mp h
      omega
    exact .inr ⟨.negative, by rw [hneg]⟩
  · exact .inl rfl
  · next h =>
    have hpos : M.toNat = M.natAbs := by
      have := Int.compare_eq_gt.mp h
      omega
    exact .inr ⟨.positive, by rw [hpos]⟩

private theorem add_finite (s₁ s₂ : Sign) (e₁ e₂ : Int) {m₁ m₂ : Nat} (h₁ : 0 < m₁) (h₂ : 0 < m₂) :
    ∃ M : Int, M.natAbs ≤ m₁ * 2 ^ (e₁ - min e₁ e₂).toNat + m₂ * 2 ^ (e₂ - min e₁ e₂).toNat ∧
      UnpackedFloat.add Format.binary64 (.finite s₁ m₁ e₁ h₁) (.finite s₂ m₂ e₂ h₂) =
        normalize Format.binary64 M (min e₁ e₂) .positive := by
  refine ⟨_, ?_, rfl⟩
  have happly (s : Sign) (n : Nat) : (s.apply n).natAbs = n := by
    cases s <;> simp [Sign.apply]
  apply Nat.le_trans (Int.natAbs_add_le _ _)
  rw [happly, happly, Nat.shiftLeft_eq, Nat.shiftLeft_eq]

private theorem mul_two_pow_lt (hm : (m.log2 : Int) + 1 + e ≤ k) {d : Int} (hd : d ≤ e) :
    m * 2 ^ (e - d).toNat < 2 ^ (k - d).toNat := by
  calc m * 2 ^ (e - d).toNat < 2 ^ (m.log2 + 1) * 2 ^ (e - d).toNat :=
        Nat.mul_lt_mul_of_pos_right Nat.lt_log2_self (Nat.two_pow_pos _)
    _ = 2 ^ (m.log2 + 1 + (e - d).toNat) := (Nat.pow_add ..).symm
    _ ≤ 2 ^ (k - d).toNat := Nat.pow_le_pow_right (by decide) (by omega)

private theorem Within.fits (hf : Within k f) (hk : k ≤ 970) : Fits k f := by
  cases f with
  | zero => trivial
  | finite s m e =>
    have hm : (m.log2 : Int) + 1 + e ≤ k := hf
    exact ⟨hm, by omega⟩
  | infinity => exact hf
  | notANumber => exact hf

private theorem Fits.mono (hf : Fits j f) (hjk : j ≤ k) : Fits k f := by
  cases f with
  | zero => trivial
  | finite s m e => exact ⟨Int.le_trans hf.1 (Int.ofNat_le.mpr hjk), hf.2⟩
  | infinity => exact hf
  | notANumber => exact hf

private theorem fits_add (hk : k ≤ 970) (hf : Within k f) (hg : Within k g) :
    Fits (k + 2) (UnpackedFloat.add Format.binary64 f g) := by
  cases f with
  | infinity => exact hf.elim
  | notANumber => exact hf.elim
  | zero s =>
    cases g with
    | infinity => exact hg.elim
    | notANumber => exact hg.elim
    | zero t =>
      simp only [UnpackedFloat.add]
      split <;> trivial
    | finite t m e hm => exact (hg.fits hk).mono (by omega)
  | finite s₁ m₁ e₁ h₁ =>
    cases g with
    | infinity => exact hg.elim
    | notANumber => exact hg.elim
    | zero t => exact (hf.fits hk).mono (by omega)
    | finite s₂ m₂ e₂ h₂ =>
      obtain ⟨M, hM, hadd⟩ := add_finite s₁ s₂ e₁ e₂ h₁ h₂
      have hm₁ : (m₁.log2 : Int) + 1 + e₁ ≤ k := hf
      have hm₂ : (m₂.log2 : Int) + 1 + e₂ ≤ k := hg
      rw [hadd]
      rcases normalize_cases M (min e₁ e₂) .positive with hzero | ⟨s, hround⟩
      · rw [hzero]
        trivial
      · rw [hround]
        apply fits_round (by omega)
        have hlt₁ := mul_two_pow_lt hm₁ (Int.min_le_left e₁ e₂)
        have hlt₂ := mul_two_pow_lt hm₂ (Int.min_le_right e₁ e₂)
        have hlog : M.natAbs.log2 < (k - min e₁ e₂).toNat + 1 := by
          apply log2_lt
          · rw [Nat.pow_succ]
            omega
          · omega
        omega

private theorem log2_mul_lt (m n : Nat) : (m * n).log2 < m.log2 + 1 + (n.log2 + 1) := by
  apply log2_lt
  · rw [Nat.pow_add]
    exact Nat.mul_lt_mul'' Nat.lt_log2_self Nat.lt_log2_self
  · omega

private theorem fits_mul (hjk : j + k ≤ 970) (hf : Within j f) (hg : Within k g) :
    Fits (j + k + 1) (UnpackedFloat.mul Format.binary64 f g) := by
  cases f with
  | infinity => exact hf.elim
  | notANumber => exact hf.elim
  | zero s =>
    cases g with
    | infinity => exact hg.elim
    | notANumber => exact hg.elim
    | zero => trivial
    | finite => trivial
  | finite s₁ m₁ e₁ h₁ =>
    cases g with
    | infinity => exact hg.elim
    | notANumber => exact hg.elim
    | zero => trivial
    | finite s₂ m₂ e₂ h₂ =>
      have hm₁ : (m₁.log2 : Int) + 1 + e₁ ≤ j := hf
      have hm₂ : (m₂.log2 : Int) + 1 + e₂ ≤ k := hg
      have hlog := log2_mul_lt m₁ m₂
      exact fits_roundWithAccuracy (by omega) (by omega) (by push_cast; omega)

private theorem fits_div (hk : k ≤ 970) (hf : Within k f) (hg : Whole g) :
    Fits (k + 1) (UnpackedFloat.div Format.binary64 f g) := by
  cases g with
  | infinity => exact hg.elim
  | notANumber => exact hg.elim
  | zero => exact hg.elim
  | finite s₂ m₂ e₂ h₂ =>
    have hm₂ : 0 ≤ (m₂.log2 : Int) + e₂ := hg
    cases f with
    | infinity => exact hf.elim
    | notANumber => exact hf.elim
    | zero => trivial
    | finite s₁ m₁ e₁ h₁ =>
      have hm₁ : (m₁.log2 : Int) + 1 + e₁ ≤ k := hf
      simp only [UnpackedFloat.div, divCore]
      have htarget : Format.binary64.targetExponent (totalExponent m₁ e₁ - totalExponent m₂ e₂) =
          max ((m₁.log2 : Int) + 1 + e₁ - (m₂.log2 + 1 + e₂) - 53) (-1074) := rfl
      rw [htarget]
      generalize hd : min (e₁ - e₂) (max ((m₁.log2 : Int) + 1 + e₁ - (m₂.log2 + 1 + e₂) - 53) (-1074))
        = d
      have hlog : ((m₁ <<< (e₁ - e₂ - d).toNat / m₂).log2 : Int) + 1 + d ≤ k := by
        by_cases hq : m₁ <<< (e₁ - e₂ - d).toNat / m₂ = 0
        · rw [hq]
          simp
          omega
        · have hle := log2_div_add_le hq
          have hshift := log2_shiftLeft_le m₁ (e₁ - e₂ - d).toNat
          omega
      exact fits_roundWithAccuracy (by omega) (by omega) hlog

private theorem fits_add_small {t : Nat} {M : Nat} (hk : 54 ≤ k) (hk' : k ≤ 970)
    (ht : (t : Int) = k - 54 - e) (hM : M < (2 ^ 54 - 1) * 2 ^ t) :
    Fits k (round Format.binary64 s M e) := by
  obtain ⟨n, hn, heq⟩ := round_eq s M e
  rw [heq]
  have hM' : M <<< n < (2 ^ 54 - 1) * 2 ^ (t + n) := by
    rw [Nat.shiftLeft_eq, Nat.pow_add, ← Nat.mul_assoc]
    exact Nat.mul_lt_mul_of_pos_right hM (Nat.two_pow_pos n)
  have hlogM := log2_shiftLeft_le M n
  generalize M <<< n = M' at hM' hlogM ⊢
  have hpos := Nat.two_pow_pos (t + n)
  have hlog : M'.log2 < 54 + (t + n) := by
    apply log2_lt
    · rw [Nat.pow_add]
      omega
    · omega
  apply fits_of_rounded (by omega) (by omega) (by omega)
  have hexcess := excess_eq M' (e - n)
  cases hx : excess M' (e - n) with
  | zero =>
    rw [rounded_zero_exact]
    omega
  | succ i =>
    have hi : i ≤ t + n := by omega
    have hdiv : M' / 2 ^ i < (2 ^ 54 - 1) * 2 ^ (t + n - i) := by
      rw [Nat.div_lt_iff_lt_mul (Nat.two_pow_pos i), Nat.mul_assoc, ← Nat.pow_add,
        Nat.sub_add_cancel hi]
      exact hM'
    have hstep := Nat.two_pow_pos (t + n - i)
    have hr := rounded_succ_le M' i .exact
    have hlogr : (rounded M' (i + 1) .exact).log2 < 53 + (t + n - i) := by
      apply log2_lt
      · rw [Nat.pow_add]
        omega
      · omega
    omega

end

end

theorem Below.add (hk : k ≤ 970) (hx : Below k x) (hy : Below k y) : Below (k + 2) (x + y) :=
  within_pack (fits_add hk hx hy)

theorem Below.mul (hjk : j + k ≤ 970) (hx : Below j x) (hy : Below k y) : Below (j + k + 1) (x * y) :=
  within_pack (fits_mul hjk hx hy)

theorem Below.div (hk : k ≤ 970) (hx : Below k x) (hy : OneLe y) : Below (k + 1) (x / y) :=
  within_pack (fits_div hk hx hy)

theorem Below.neg (hk : k ≤ 970) (hx : Below k x) : Below k (-x) := by
  apply within_pack
  have hf := Within.fits hx hk
  generalize x.toModel.unpack = f at hf ⊢
  cases f with
  | zero => trivial
  | finite => exact hf
  | infinity => exact hf
  | notANumber => exact hf

/-- The mantissa has 53 places at most. Just below the power of two, the last of them counts for more
than the whole smaller term. -/
private theorem fits_add_finite_small {s₁ s₂ : Sign} {m₁ m₂ : Nat} {e₁ e₂ : Int} {h₁ : 0 < m₁}
    {h₂ : 0 < m₂} (hk : k + 54 ≤ 970) (hplaces : m₁.log2 ≤ 52)
    (hall : m₁.log2 = 52 ∨ e₁ = -1074) (hm₁ : (m₁.log2 : Int) + 1 + e₁ ≤ (k + 54 : Nat))
    (hm₂ : (m₂.log2 : Int) + 1 + e₂ ≤ k) : Fits (k + 54)
      (UnpackedFloat.add Format.binary64 (.finite s₁ m₁ e₁ h₁) (.finite s₂ m₂ e₂ h₂)) := by
  obtain ⟨M, hM, hadd⟩ := add_finite s₁ s₂ e₁ e₂ h₁ h₂
  rw [hadd]
  rcases normalize_cases M (min e₁ e₂) .positive with hzero | ⟨s, hround⟩
  · rw [hzero]
    trivial
  · rw [hround]
    have hlt := mul_two_pow_lt hm₂ (Int.min_le_right e₁ e₂)
    have hle : m₁ * 2 ^ (e₁ - min e₁ e₂).toNat ≤
        (2 ^ 53 - 1) * 2 ^ ((k - min e₁ e₂).toNat + 1) := by
      apply Nat.mul_le_mul
      · have : m₁ < 2 ^ 53 := (Nat.log2_lt (by omega)).mp (by omega)
        omega
      · exact Nat.pow_le_pow_right (by decide) (by omega)
    apply fits_add_small (t := (k - min e₁ e₂).toNat) (by omega) hk (by omega)
    rw [Nat.pow_succ] at hle
    omega

/-- A sum stays below a power of two when a term is added that is far below its last place. -/
theorem Below.add_small (hk : k + 54 ≤ 970) (hx : Below (k + 54) x) (hy : Below k y) :
    Below (k + 54) (x + y) := by
  apply within_pack
  show Fits (k + 54) (UnpackedFloat.add Format.binary64 x.toModel.unpack y.toModel.unpack)
  have hcanonical {s : Sign} {m : Nat} {e : Int} {hm : 0 < m}
      (h : x.toModel.unpack = .finite s m e hm) := canonical_unpack h
  unfold Below at hx hy
  generalize x.toModel.unpack = f at hx hcanonical ⊢
  generalize y.toModel.unpack = g at hy ⊢
  cases f with
  | infinity => exact hx.elim
  | notANumber => exact hx.elim
  | zero s =>
    cases g with
    | infinity => exact hy.elim
    | notANumber => exact hy.elim
    | zero t =>
      simp only [UnpackedFloat.add]
      split <;> trivial
    | finite t m e hm => exact (hy.fits (by omega)).mono (by omega)
  | finite s₁ m₁ e₁ h₁ =>
    cases g with
    | infinity => exact hy.elim
    | notANumber => exact hy.elim
    | zero t => exact hx.fits hk
    | finite s₂ m₂ e₂ h₂ =>
      obtain ⟨hplaces, hall⟩ := hcanonical rfl
      exact fits_add_finite_small hk hplaces hall hx hy

section

variable {b den : Nat} {num : Int}

private theorem unpack_ofBits (h : b ≤ 2047 * 2 ^ 52) :
    (Float.ofBits (UInt64.ofNat b)).toModel.unpack =
      UnpackedFloat.unpack Format.binary64 (UInt64.ofNat b).toBitVec :=
  congrArg (UnpackedFloat.unpack Format.binary64) (congrArg UInt64.toBitVec (toBits_ofBits h))

private theorem below_ofBits (hk : k ≤ 970) (h : b / 2 ^ 52 < k + 1023) :
    Below k (Float.ofBits (UInt64.ofNat b)) := by
  have hexponent := toNat_unpackExponent (b := b) (by omega)
  unfold Below
  rw [unpack_ofBits (by omega)]
  apply within_unpack
  · omega
  · omega

private theorem oneLe_ofBits (h : 1023 * 2 ^ 52 ≤ b) (h' : b < 2047 * 2 ^ 52) :
    OneLe (Float.ofBits (UInt64.ofNat b)) := by
  have hexponent := toNat_unpackExponent (b := b) (by omega)
  have hbias : (Format.binary64.exponentBias : Int) = 1023 := rfl
  have hones : @unpackExponent Format.binary64 (UInt64.ofNat b).toBitVec ≠ -1#11 := by
    intro he
    have hall : (-1#11).toNat = 2047 := rfl
    rw [he, hall] at hexponent
    omega
  have hzeros : @unpackExponent Format.binary64 (UInt64.ofNat b).toBitVec ≠ 0#11 := by
    intro he
    have hnone : (0#11).toNat = 0 := rfl
    rw [he, hnone] at hexponent
    omega
  unfold OneLe
  rw [unpack_ofBits (by omega)]
  simp only [UnpackedFloat.unpack, if_neg hones, if_neg hzeros]
  have hlog := log2_implicit (@unpackMantissa Format.binary64 (UInt64.ofNat b).toBitVec)
  show (0 : Int) ≤ ((1#1 ++ @unpackMantissa Format.binary64 (UInt64.ofNat b).toBitVec).toNat.log2 : Int)
    + (((@unpackExponent Format.binary64 (UInt64.ofNat b).toBitVec).toNat : Int) - 1075)
  omega

/-- The double nearest to a quotient is not much larger than that. -/
theorem below_ofQuotient (hk : k ≤ 960) (hden : den ≠ 0) (h : num.natAbs < 2 ^ k * den) :
    Below (k + 4) (ofQuotient num den) := by
  have hmagnitude : Below (k + 4) (Float.ofBits (UInt64.ofNat (nearestBits num.natAbs den))) :=
    below_ofBits (by omega) (nearestBits_div_lt hden h)
  unfold ofQuotient
  dsimp only
  split
  · exact hmagnitude.neg (by omega)
  · exact hmagnitude

theorem oneLe_ofQuotient {num : Nat} (hk : k ≤ 960) (hden : den ≠ 0) (h : num < 2 ^ k * den)
    (hle : den ≤ num) : OneLe (ofQuotient num den) := by
  have hbits := nearestBits_div_lt hden h
  exact oneLe_ofBits (b := nearestBits num den) (le_nearestBits hden hle) (by omega)

end

end Binary64

end BusinessAtlas
