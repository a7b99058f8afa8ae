import BusinessAtlas.Decimal.Shortest

/-!
# Numbers

A number is an integer of any size or a double, and the two are kept apart: sums and products of
integers stay integers, a quotient is always a double. Comparison is by exact value, whichever of
the two a number is.
-/

namespace BusinessAtlas

/-- An integer or a double. -/
inductive Number where
  | int (value : Int)
  | float (value : Float)
  deriving DecidableEq, Inhabited

namespace Number

/-- The exact value, unless the number is infinite or undefined. -/
def rational? : Number → Option Rat
  | int n => some n
  | float x => Binary64.rational? x

/-- The nearest double; an integer beyond their range is infinite. -/
def toFloat : Number → Float
  | int n => Binary64.ofInt n
  | float x => x

/-- Whether the number is an integer beyond the range of doubles. -/
def overflows : Number → Bool
  | int n => (Binary64.ofInt n).isInf
  | float _ => false

/-- Order by value. An undefined number is in order with none. -/
def less : Number → Number → Bool
  | int a, int b => a < b
  | float a, float b => a < b
  | a, b =>
    match a.rational?, b.rational? with
    | some p, some q => p < q
    | none, some _ => a.toFloat < 0
    | some _, none => 0 < b.toFloat
    | none, none => false

/-- Equality by value. An undefined number equals none, itself included. -/
def same : Number → Number → Bool
  | int a, int b => a == b
  | float a, float b => a == b
  | a, b =>
    match a.rational?, b.rational? with
    | some p, some q => p == q
    | _, _ => false

def isZero : Number → Bool
  | int n => n == 0
  | float x => x == 0

def add : Number → Number → Number
  | int a, int b => int (a + b)
  | a, b => float (a.toFloat + b.toFloat)

def mul : Number → Number → Number
  | int a, int b => int (a * b)
  | a, b => float (a.toFloat * b.toFloat)

/-- The quotient is a double, rounded once from the exact quotient of two integers. Callers do not
divide by zero. -/
def div : Number → Number → Number
  | int a, int b => float (Binary64.ofQuotient (if b < 0 then -a else a) b.natAbs)
  | a, b => float (a.toFloat / b.toFloat)

/-- The text of a number: decimal digits, or the shortest text of a double. -/
def text : Number → String
  | int n => toString n
  | float x => Decimal.shortest x

def fixed (places : Nat) (n : Number) : String := Decimal.fixed places n.toFloat

end Number

end BusinessAtlas
