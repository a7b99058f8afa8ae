/-!
# Binary floating point

The exact value of a double, and the double nearest to an exact quotient or decimal. Everything is
integer arithmetic on the sign, the significand and the exponent that the bits hold.
-/

namespace BusinessAtlas.Binary64

/-- A finite double is `significand * 2 ^ exponent`, up to its sign. -/
structure Parts where
  negative : Bool
  significand : Nat
  exponent : Int
  deriving DecidableEq

def parts (x : Float) : Parts :=
  let bits : Nat := x.toBits.toNat
  let field : Nat := bits / Nat.pow 2 52 % Nat.pow 2 11
  let fraction : Nat := bits % Nat.pow 2 52
  { negative := bits / Nat.pow 2 63 == 1
    significand := if field == 0 then fraction else Nat.pow 2 52 + fraction
    exponent := if field == 0 then -1074 else (field : Int) - 1075 }

/-- Numerator and denominator of the magnitude. -/
def Parts.ratio (p : Parts) : Nat × Nat :=
  if p.exponent < 0 then (p.significand, Nat.pow 2 p.exponent.natAbs)
  else (p.significand * Nat.pow 2 p.exponent.natAbs, 1)

/-- The exact value of a finite double. -/
def rational? (x : Float) : Option Rat :=
  if x.isNaN || x.isInf then none
  else
    let p := parts x
    let r := mkRat p.ratio.1 p.ratio.2
    some (if p.negative then -r else r)

/-- The whole number nearest to `num / den`; a half goes to the even neighbour. -/
def roundQuotient (num den : Nat) : Nat :=
  let q := num / den
  let r := num % den
  if 2 * r < den then q else if den < 2 * r then q + 1 else q + q % 2

/-- The bits of the double nearest to `num / den`, without its sign. -/
def nearestBits (num den : Nat) : Nat :=
  if num == 0 then 0
  else
    let guess : Int := (num.log2 : Int) - den.log2 - 52
    let scaled (e : Int) : Nat × Nat :=
      if e < 0 then (num * Nat.pow 2 e.natAbs, den) else (num, den * Nat.pow 2 e.natAbs)
    let low := max (guess - 1) (-1074)
    let e := if (scaled low).1 / (scaled low).2 < Nat.pow 2 53 then low else low + 1
    let m := roundQuotient (scaled e).1 (scaled e).2
    let bits := if m < Nat.pow 2 52 then m else (e + 1074).toNat * Nat.pow 2 52 + m
    min bits (2047 * Nat.pow 2 52)

/-- The double nearest to `num / den`, infinite when that is too large. -/
def ofQuotient (num : Int) (den : Nat) : Float :=
  let magnitude := Float.ofBits (UInt64.ofNat (nearestBits num.natAbs den))
  if num < 0 then -magnitude else magnitude

def ofInt (n : Int) : Float := ofQuotient n 1

/-- The double nearest to `digits * 10 ^ exponent`. Exponents far outside the range of doubles are
decided before any power is formed. -/
def ofDecimal (negative : Bool) (digits : Nat) (exponent : Int) : Float :=
  let order : Int := (Nat.toDigits 10 digits).length + exponent
  let magnitude : Float :=
    if digits == 0 || order < -330 then 0
    else if 310 < order then Float.ofBits (UInt64.ofNat (2047 * Nat.pow 2 52))
    else if exponent < 0 then
      Float.ofBits (UInt64.ofNat (nearestBits digits (Nat.pow 10 exponent.natAbs)))
    else Float.ofBits (UInt64.ofNat (nearestBits (digits * Nat.pow 10 exponent.natAbs) 1))
  if negative then -magnitude else magnitude

end BusinessAtlas.Binary64
