import BusinessAtlas.Number.Binary64
import BusinessAtlas.Text.Character

/-!
# Reading numbers from free text

The numbers that people write into text fields: blanks around them, a sign, digits of any script,
single underscores between digits, and for doubles a fraction, an exponent or a word for what is
not finite.
-/

namespace BusinessAtlas.Decimal

open Text

/-- The text without the blanks around it and with the digits of every script in ASCII. -/
def plainDigits (s : String) : List Char :=
  (trimChars isMargin s.toList).map fun c => match digit? c with
    | some d => Nat.digitChar d
    | none => c

/-- Whether a character is an ASCII digit. -/
def isDigit (c : Char) : Bool := (asciiDigit? c).isSome

/-- The text without its underscores, if each stands between two digits; `last` is the character
before. -/
def dropUnderscores (last : Option Char) : List Char → Option (List Char)
  | [] => some []
  | '_' :: c :: cs =>
    if last.any isDigit && isDigit c then (dropUnderscores (some c) cs).map (c :: ·) else none
  | ['_'] => none
  | c :: cs => (dropUnderscores (some c) cs).map (c :: ·)

/-- A sign, if there is one, and what follows it. -/
def splitSign : List Char → Bool × List Char
  | '-' :: cs => (true, cs)
  | '+' :: cs => (false, cs)
  | cs => (false, cs)

def value (ds : List Char) : Nat := ds.foldl (fun n c => n * 10 + (asciiDigit? c).getD 0) 0

def readInt? (s : String) : Option Int :=
  match dropUnderscores none (plainDigits s) with
  | none => none
  | some cs =>
    let (negative, ds) := splitSign cs
    if ds.isEmpty || !ds.all isDigit then none
    else some (if negative then -(value ds : Int) else value ds)

/-- The exponent that ends a number; none may be missing after its mark. -/
def readExponent? : List Char → Option Int
  | [] => some 0
  | c :: cs =>
    if c == 'e' || c == 'E' then
      let (negative, ds) := splitSign cs
      if ds.isEmpty || !ds.all isDigit then none
      else some (if negative then -(value ds : Int) else value ds)
    else none

/-- The words for infinities and for an undefined number, in lower case. -/
def specialValue? (word : String) : Option Float :=
  if word == "inf" || word == "infinity" then some (1 / 0)
  else if word == "nan" then some (0 / 0)
  else none

def readFloat? (s : String) : Option Float :=
  match dropUnderscores none (plainDigits s) with
  | none => none
  | some cs =>
    let (negative, body) := splitSign cs
    match specialValue? (.ofList (body.map Char.toLower)) with
    | some x => some (if negative then -x else x)
    | none =>
      let (whole, rest) := body.span isDigit
      let (fraction, rest) := match rest with
        | '.' :: r => r.span isDigit
        | r => ([], r)
      if whole.isEmpty && fraction.isEmpty then none
      else (readExponent? rest).map fun e =>
        Binary64.ofDecimal negative (value (whole ++ fraction)) (e - fraction.length)

end BusinessAtlas.Decimal
