import BusinessAtlas.Number.Basic

/-!
# Scores

Scores, weights and durations are computed over any type with the arithmetic of `Scalar`. The
program computes them as `Number`; as `Rat` the same formulas are read exactly.
-/

namespace BusinessAtlas

/-- What the scoring formulas need of their numbers. -/
class Scalar (α : Type) where
  /-- A whole number. -/
  int : Int → α
  /-- `decimal m k` is the fraction `m / 10 ^ k`. -/
  decimal : Int → Nat → α
  add : α → α → α
  mul : α → α → α
  div : α → α → α
  /-- Strict order by value. -/
  less : α → α → Bool
  isZero : α → Bool

instance : Scalar Number where
  int := .int
  decimal m k := .float (Binary64.ofDecimal (m < 0) m.natAbs (-(k : Int)))
  add := Number.add
  mul := Number.mul
  div := Number.div
  less := Number.less
  isZero := Number.isZero

instance : Scalar Rat where
  int n := n
  decimal m k := mkRat m (Nat.pow 10 k)
  add := (· + ·)
  mul := (· * ·)
  div := (· / ·)
  less a b := decide (a < b)
  isZero a := a == 0

/-- The sum of some counts. -/
def totalOf (ns : List Nat) : Nat := ns.foldr (· + ·) 0

@[simp] theorem totalOf_nil : totalOf [] = 0 := rfl

@[simp] theorem totalOf_cons (n : Nat) (ns : List Nat) : totalOf (n :: ns) = n + totalOf ns := rfl

theorem totalOf_map_le {ι : Type} {f : ι → Nat} {xs : List ι} {bound : Nat}
    (h : ∀ x ∈ xs, f x ≤ bound) : totalOf (xs.map f) ≤ bound * xs.length := by
  induction xs with
  | nil => exact Nat.zero_le _
  | cons x rest ih =>
    obtain ⟨hx, hrest⟩ := List.forall_mem_cons.mp h
    have hle := ih hrest
    rw [List.map_cons, totalOf_cons, List.length_cons, Nat.mul_succ]
    omega

namespace Scalar

variable {α : Type} [Scalar α]

def count (n : Nat) : α := int n

/-- `x` if it is below the bound, the bound itself if not. An undefined `x` becomes the bound. -/
def cap (bound : Int) (x : α) : α := if less x (int bound) then x else int bound

/-- The larger of two scores, the first one of equals. -/
def larger (x y : α) : α := if less x y then y else x

def sum (xs : List α) : α := xs.foldl add (int 0)

end Scalar

end BusinessAtlas
