import BusinessAtlas.Number.Binary64

/-!
# Decimal notation of doubles

Three ways to choose the digits of a double: the fewest that read back as the same double, a fixed
number of decimal places, and a fixed number of significant digits. One function lays digits out,
positionally or with an exponent, after a record of the conventions.
-/

namespace BusinessAtlas.Decimal

open Binary64

/-- Decimal digits `digits`, the first of which stands at `10 ^ exponent`. -/
structure Digits where
  digits : List Char
  exponent : Int
  deriving DecidableEq

/-- The conventions of a way to write doubles. -/
structure Style where
  /-- Positional notation is used for exponents from here on, -/
  least : Int
  /-- and below this one. -/
  most : Int
  /-- What marks a whole number. -/
  whole : List Char
  deriving DecidableEq

/-- Shortest notation: positional from 0.0001 to below 10^16, and a whole number ends in `.0`. -/
def shortestStyle : Style := ⟨-4, 16, ['.', '0']⟩

/-- General notation of six digits: positional from 0.0001 to below 10^6. -/
def generalStyle : Style := ⟨-4, 6, []⟩

/-- The exponent of the leading digit of `num / den`, a positive quotient. -/
def leadingExponent (num den : Nat) : Int :=
  if den ≤ num then (Nat.toDigits 10 (num / den)).length - 1
  else
    let places := (Nat.toDigits 10 (den / num)).length
    if den ≤ num * Nat.pow 10 (places - 1) then 1 - (places : Int) else -(places : Int)

/-- Whether `a * 10 ^ e` is at most `num / den`. -/
def gridLe (a : Nat) (e : Int) (num den : Nat) : Bool :=
  if e < 0 then a * den ≤ num * Nat.pow 10 e.natAbs else a * Nat.pow 10 e.natAbs * den ≤ num

/-- Whether `a * 10 ^ e` is at least `num / den`. -/
def gridGe (a : Nat) (e : Int) (num den : Nat) : Bool :=
  if e < 0 then num * Nat.pow 10 e.natAbs ≤ a * den else num ≤ a * Nat.pow 10 e.natAbs * den

/-- The largest multiple of `10 ^ e` that is at most `num / den`, in units of `10 ^ e`. -/
def gridFloor (e : Int) (num den : Nat) : Nat :=
  if e < 0 then num * Nat.pow 10 e.natAbs / den else num / (den * Nat.pow 10 e.natAbs)

/-- The numbers that read back as one double lie between two quotients; the ends belong to them
when the significand is even. -/
structure Interval where
  value : Nat × Nat
  low : Nat × Nat
  high : Nat × Nat
  closed : Bool

/-- Where the numbers lie that are nearest to a positive double. Below a power of two the
neighbour is half as far away. -/
def interval (p : Parts) : Interval :=
  let m := p.significand
  let quarter : Parts → Nat × Nat := fun r => Parts.ratio { r with exponent := p.exponent - 2 }
  let below := if m == Nat.pow 2 52 && -1074 < p.exponent then 4 * m - 1 else 4 * m - 2
  { value := quarter ⟨false, 4 * m, 0⟩
    low := quarter ⟨false, below, 0⟩
    high := quarter ⟨false, 4 * m + 2, 0⟩
    closed := m % 2 == 0 }

def Interval.holds (i : Interval) (a : Nat) (e : Int) : Bool :=
  if i.closed then gridGe a e i.low.1 i.low.2 && gridLe a e i.high.1 i.high.2
  else !gridLe a e i.low.1 i.low.2 && !gridGe a e i.high.1 i.high.2

/-- The neighbour of the value on the grid `10 ^ e` that reads back, the nearer one of two; a tie
goes to the even one. -/
def Interval.onGrid (i : Interval) (e : Int) : Option Nat :=
  let a := gridFloor e i.value.1 i.value.2
  match i.holds a e, i.holds (a + 1) e with
  | true, false => some a
  | false, true => some (a + 1)
  | false, false => none
  | true, true =>
    let twice := gridFloor e (2 * i.value.1) i.value.2
    let tie := gridGe twice e (2 * i.value.1) i.value.2 && twice % 2 == 1
    if tie then some (a + a % 2) else if twice % 2 == 0 then some a else some (a + 1)

/-- The least number of digits, from `count` on, with which the value can be written. -/
def Interval.search (i : Interval) (top : Int) : Nat → Nat → Nat × Int
  | 0, _ => (0, 0)
  | fuel + 1, count =>
    let e := top + 1 - count
    match i.onGrid e with
    | some a => (a, e)
    | none => i.search top fuel (count + 1)

/-- The digits of `a * 10 ^ e`, without the zeros at the end. -/
def Digits.ofGrid (a : Nat) (e : Int) : Digits :=
  let ds := Nat.toDigits 10 a
  let kept := (ds.reverse.dropWhile (· == '0')).reverse
  ⟨if kept.isEmpty then ['0'] else kept, e + ds.length - 1⟩

/-- The fewest digits that read back as `p`, a positive double. Seventeen always suffice. -/
def shortestDigits (p : Parts) : Digits :=
  let i := interval p
  let (a, e) := i.search (leadingExponent i.value.1 i.value.2) 17 1
  .ofGrid a e

/-- The digits of `num / den` rounded to `count` significant ones. -/
def significantDigits (count num den : Nat) : Digits :=
  if num == 0 then ⟨['0'], 0⟩
  else
    let e := leadingExponent num den + 1 - count
    let a := if e < 0 then roundQuotient (num * Nat.pow 10 e.natAbs) den
      else roundQuotient num (den * Nat.pow 10 e.natAbs)
    .ofGrid a e

/-- An exponent with its sign and at least two digits. -/
def exponentText (e : Int) : List Char :=
  let ds := Nat.toDigits 10 e.natAbs
  (if e < 0 then '-' else '+') :: (if ds.length < 2 then '0' :: ds else ds)

/-- Digits laid out after the conventions of a style. -/
def layOut (style : Style) (d : Digits) : List Char :=
  let n := d.digits.length
  if style.least ≤ d.exponent && d.exponent < style.most then
    if d.exponent < 0 then
      '0' :: '.' :: List.replicate (d.exponent.natAbs - 1) '0' ++ d.digits
    else
      let whole := d.exponent.toNat + 1
      if n ≤ whole then d.digits ++ List.replicate (whole - n) '0' ++ style.whole
      else d.digits.take whole ++ '.' :: d.digits.drop whole
  else
    let lead := d.digits.take 1
    let rest := d.digits.drop 1
    lead ++ (if rest.isEmpty then [] else '.' :: rest) ++ 'e' :: exponentText d.exponent

/-- The words for what is not a finite number. -/
def specialText (x : Float) : String :=
  if x.isNaN then "nan" else if x < 0 then "-inf" else "inf"

private def signed (negative : Bool) (cs : List Char) : String :=
  .ofList (if negative then '-' :: cs else cs)

/-- The shortest text that reads back as `x`. -/
def shortest (x : Float) : String :=
  if x.isNaN || x.isInf then specialText x
  else
    let p := parts x
    signed p.negative
      (layOut shortestStyle (if p.significand == 0 then ⟨['0'], 0⟩ else shortestDigits p))

/-- `x` with six significant digits, without zeros at the end. -/
def general (x : Float) : String :=
  if x.isNaN || x.isInf then specialText x
  else
    let p := parts x
    signed p.negative (layOut generalStyle (significantDigits 6 p.ratio.1 p.ratio.2))

/-- `x` with `places` decimal places, rounded on its exact value, a half to even. -/
def fixed (places : Nat) (x : Float) : String :=
  if x.isNaN || x.isInf then specialText x
  else
    let p := parts x
    let a := roundQuotient (p.ratio.1 * Nat.pow 10 places) p.ratio.2
    let ds := Nat.toDigits 10 a
    let ds := List.replicate (places + 1 - ds.length) '0' ++ ds
    let whole := ds.take (ds.length - places)
    signed p.negative (if places == 0 then whole else whole ++ '.' :: ds.drop (ds.length - places))

end BusinessAtlas.Decimal
