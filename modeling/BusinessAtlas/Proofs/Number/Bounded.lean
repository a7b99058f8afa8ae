import BusinessAtlas.Proofs.Json.Printer
import BusinessAtlas.Proofs.Number.Magnitude

/-!
# Bounded numbers

The arithmetic of scores on numbers below a power of two: each operation gives a number below a
somewhat larger power, and a sum of small terms stays below one power, however many terms it has up
to a number that no list comes near. A number below a power of two is finite.
-/

namespace BusinessAtlas

namespace Number

/-- The magnitude of the number is below `2 ^ k`. -/
def Below (k : Nat) : Number → Prop
  | .int n => n.natAbs < 2 ^ k
  | .float x => Binary64.Below k x

instance (k : Nat) : DecidablePred (Below k)
  | .int n => inferInstanceAs (Decidable (n.natAbs < 2 ^ k))
  | .float x => inferInstanceAs (Decidable (Binary64.Below k x))

variable {j k : Nat} {a b : Number}

theorem Below.mono (h : Below j a) (hjk : j ≤ k) : Below k a := by
  cases a with
  | int n => exact Nat.lt_of_lt_of_le h (Nat.pow_le_pow_right (by decide) hjk)
  | float x => exact Binary64.Below.mono h hjk

theorem Below.finite (h : Below k a) : a.Finite := by
  cases a with
  | int n => trivial
  | float x => exact Binary64.Below.isFinite h

theorem below_nat {n : Nat} (h : n < 2 ^ k) : Below k (.int n) := h

theorem Below.toFloat (hk : k ≤ 960) (h : Below k a) : Binary64.Below (k + 4) a.toFloat := by
  cases a with
  | int n =>
    apply Binary64.below_ofQuotient hk (by decide)
    rw [Nat.mul_one]
    exact h
  | float x => exact Binary64.Below.mono h (by omega)

theorem Below.overflows (hk : k ≤ 960) (h : Below k a) : a.overflows = false := by
  have hfinite := (h.toFloat hk).isFinite
  cases a with
  | int n => exact (Bool.or_eq_false_iff.mp hfinite).2
  | float x => rfl

theorem Below.add (hk : k ≤ 960) (ha : Below k a) (hb : Below k b) : Below (k + 6) (a.add b) := by
  have hfloat := (ha.toFloat hk).add (by omega) (hb.toFloat hk)
  cases a with
  | int m =>
    cases b with
    | int n =>
      have hm : m.natAbs < 2 ^ k := ha
      have hn : n.natAbs < 2 ^ k := hb
      have hsum := Int.natAbs_add_le m n
      show (m + n).natAbs < 2 ^ (k + 6)
      rw [Nat.pow_add]
      omega
    | float y => exact hfloat
  | float x => exact hfloat

theorem Below.mul (hjk : j + k ≤ 960) (ha : Below j a) (hb : Below k b) :
    Below (j + k + 9) (a.mul b) := by
  have hfloat := (ha.toFloat (by omega)).mul (by omega) (hb.toFloat (by omega))
  cases a with
  | int m =>
    cases b with
    | int n =>
      have hprod : m.natAbs * n.natAbs < 2 ^ j * 2 ^ k := Nat.mul_lt_mul'' ha hb
      show (m * n).natAbs < 2 ^ (j + k + 9)
      rw [Int.natAbs_mul, Nat.pow_add, Nat.pow_add]
      omega
    | float y => exact hfloat.mono (by omega)
  | float x => exact hfloat.mono (by omega)

/-- The quotient of two counts is near to the exact one. -/
theorem below_div_int {m n : Nat} (hk : k ≤ 960) (hn : n ≠ 0) (h : m < 2 ^ k * n) :
    Below (k + 4) ((int m).div (int n)) :=
  Binary64.below_ofQuotient hk hn h

theorem Below.div {n : Nat} (hk : k ≤ 960) (ha : Below k a) (hn : n ≠ 0) (hn' : n < 2 ^ 60) :
    Below (k + 4) (a.div (int n)) := by
  have hone : Binary64.OneLe (Binary64.ofQuotient n 1) := by
    apply Binary64.oneLe_ofQuotient (k := 60) (by decide) (by decide)
    · rwa [Nat.mul_one]
    · omega
  cases a with
  | int m =>
    have hdiv : (int m).div (int n) = float (Binary64.ofQuotient m n) := rfl
    rw [hdiv]
    apply Binary64.below_ofQuotient hk hn
    exact Nat.lt_of_lt_of_le ha (Nat.le_mul_of_pos_right _ (Nat.pos_of_ne_zero hn))
  | float x => exact (Binary64.Below.div (by omega) ha hone).mono (by omega)

theorem Below.div_oneLe {y : Float} (hk : k ≤ 960) (ha : Below k a) (hy : Binary64.OneLe y) :
    Below (k + 5) (a.div (.float y)) := by
  have hfloat := (ha.toFloat hk).div (by omega) hy
  cases a with
  | int m => exact hfloat
  | float x => exact hfloat

theorem below_tenths {m : Nat} (hm : m ≤ 10) : Below 1 (Scalar.decimal m 1) := by
  have htenths : ∀ m : Fin 11, Below 1 (Scalar.decimal (m : Nat) 1) := by decide +kernel
  exact htenths ⟨m, by omega⟩

theorem finite_tenths {m : Nat} (hm : m ≤ 10) : (Scalar.decimal m 1 : Number).Finite :=
  (below_tenths hm).finite

theorem Below.cap {bound : Int} (ha : Below k a) (hbound : Below k (.int bound)) :
    Below k (Scalar.cap bound a) := by
  unfold Scalar.cap
  split
  · exact ha
  · exact hbound

/-- The number is whole, of any size, or it is below a power of two. -/
def Tame (k : Nat) : Number → Prop
  | .int _ => True
  | .float x => Binary64.Below k x

theorem Below.tame (h : Below k a) : Tame k a := by
  cases a with
  | int n => trivial
  | float x => exact h

theorem Tame.finite (h : Tame k a) : a.Finite := by
  cases a with
  | int n => trivial
  | float x => exact Binary64.Below.isFinite h

theorem Tame.add_count {n : Nat} (hk : 62 ≤ k) (hk' : k ≤ 960) (h : Tame k a) (hn : n < 2 ^ 62) :
    Tame (k + 6) (a.add (.int n)) := by
  cases a with
  | int m => trivial
  | float x =>
    have hx : Below k (.float x) := h
    exact (hx.add hk' ((below_nat hn).mono hk)).tame

theorem Tame.cap {bound : Int} (h : Tame k a) : Tame k (Scalar.cap bound a) := by
  unfold Scalar.cap
  split
  · exact h
  · trivial

/-- What is known of the sum of the first terms: a whole sum grows with each term, and a double stays
below a power of two that no small term carries it over. -/
private def SumOf (k n : Nat) : Number → Prop
  | .int s => s.natAbs ≤ 2 ^ k * n
  | .float x => Binary64.Below (k + 64) x

private theorem sumOf_add {n : Nat} (hk : k ≤ 800) (hn : n < 2 ^ 60) (ha : SumOf k n a)
    (hb : Below k b) : SumOf k (n + 1) (a.add b) := by
  have hterm : Binary64.Below (k + 10) b.toFloat := (hb.toFloat (by omega)).mono (by omega)
  have hsum : Binary64.Below (k + 64) a.toFloat := by
    cases a with
    | int s =>
      have hlt : 2 ^ k * n < 2 ^ (k + 60) := by
        rw [Nat.pow_add]
        exact Nat.mul_lt_mul_of_pos_left hn (Nat.two_pow_pos k)
      have hs : Below (k + 60) (.int s) := Nat.lt_of_le_of_lt ha hlt
      exact hs.toFloat (by omega)
    | float x => exact ha
  -- The number of terms does not bound a double, since every addition may round up; the term is too
  -- small to carry the sum over the next power of two.
  have hfloat : Binary64.Below (k + 64) (a.toFloat + b.toFloat) := hsum.add_small (by omega) hterm
  cases a with
  | int s =>
    cases b with
    | int t =>
      have hs : s.natAbs ≤ 2 ^ k * n := ha
      have ht : t.natAbs < 2 ^ k := hb
      have hadd := Int.natAbs_add_le s t
      show (s + t).natAbs ≤ 2 ^ k * (n + 1)
      rw [Nat.mul_succ]
      omega
    | float y => exact hfloat
  | float x => exact hfloat

private theorem sumOf_foldl {n : Nat} {xs : List Number} (hk : k ≤ 800)
    (hn : n + xs.length < 2 ^ 60) (ha : SumOf k n a) (h : ∀ x ∈ xs, Below k x) :
    SumOf k (n + xs.length) (xs.foldl Number.add a) := by
  induction xs generalizing n a with
  | nil => exact ha
  | cons x rest ih =>
    rw [List.length_cons] at hn
    have hx := sumOf_add hk (by omega) ha (h x List.mem_cons_self)
    have hrest := ih (by omega) hx fun y hy => h y (List.mem_cons_of_mem x hy)
    rwa [List.length_cons, List.foldl_cons, Nat.add_comm rest.length, ← Nat.add_assoc]

/-- A sum of small numbers does not grow beyond the range of doubles. -/
theorem below_sum {xs : List Number} (hk : k ≤ 800) (hlength : xs.length < 2 ^ 60)
    (h : ∀ x ∈ xs, Below k x) : Below (k + 64) (Scalar.sum xs) := by
  have hsum : SumOf k (0 + xs.length) (Scalar.sum xs) :=
    sumOf_foldl hk (by omega) (Nat.zero_le _ : SumOf k 0 (.int 0)) h
  rw [Nat.zero_add] at hsum
  cases hs : Scalar.sum xs with
  | int s =>
    rw [hs] at hsum
    have hlt : 2 ^ k * xs.length < 2 ^ (k + 64) := by
      rw [Nat.pow_add]
      exact Nat.mul_lt_mul_of_pos_left (by omega) (Nat.two_pow_pos k)
    exact Nat.lt_of_le_of_lt hsum hlt
  | float x =>
    rw [hs] at hsum
    exact hsum

end Number

end BusinessAtlas
