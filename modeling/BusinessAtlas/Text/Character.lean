/-!
# Blanks and digits

The characters that separate words, for every script, and the operations built on them: `trim`
removes blanks from both ends of a text, `words` cuts it at runs of blanks. Beside them the values of
digits. Ten decimal digits of a script stand at consecutive code points, so a script is given by its
zero.
-/

namespace BusinessAtlas.Text

/-- The blank characters outside ASCII, as closed ranges of code points. -/
def blankRanges : List (Nat × Nat) :=
  [(0x85, 0x85), (0xA0, 0xA0), (0x1680, 0x1680), (0x2000, 0x200A), (0x2028, 0x2029),
    (0x202F, 0x202F), (0x205F, 0x205F), (0x3000, 0x3000)]

/-- A blank is a space, one of the controls U+0009 to U+000D and U+001C to U+001F, or a separator
of another script. -/
def isBlank (c : Char) : Bool :=
  let n := c.toNat
  if n < 0x80 then n == 0x20 || (0x09 ≤ n && n ≤ 0x0D) || (0x1C ≤ n && n ≤ 0x1F)
  else blankRanges.any fun r => r.1 ≤ n && n ≤ r.2

/-- Whether a character may stand around a number: a blank that does not separate records. -/
def isMargin (c : Char) : Bool := isBlank c && !(0x1C ≤ c.toNat && c.toNat ≤ 0x1F)

/-- `cs` without the characters at either end for which `p` holds. -/
def trimChars (p : Char → Bool) (cs : List Char) : List Char :=
  ((cs.dropWhile p).reverse.dropWhile p).reverse

/-- `s` without the blanks at either end. -/
def trim (s : String) : String := .ofList (trimChars isBlank s.toList)

/-- The maximal blank-free runs of `cs`; `current` is the run being read, in reverse. -/
def wordsFrom (current : List Char) : List Char → List (List Char)
  | [] => if current.isEmpty then [] else [current.reverse]
  | c :: cs =>
    if isBlank c then
      if current.isEmpty then wordsFrom [] cs else current.reverse :: wordsFrom [] cs
    else wordsFrom (c :: current) cs

/-- The words of `s`: no word is empty and none holds a blank. -/
def words (s : String) : List String := (wordsFrom [] s.toList).map String.ofList

/-- Every run of blanks replaced by `gap`, for texts that start inside a run when `inside`. -/
def collapseFrom (gap : List Char) (inside : Bool) : List Char → List Char
  | [] => []
  | c :: cs =>
    if isBlank c then
      if inside then collapseFrom gap true cs else gap ++ collapseFrom gap true cs
    else c :: collapseFrom gap false cs

/-- `s` with every run of blanks replaced by `gap`. -/
def collapseBlanks (gap s : String) : String := .ofList (collapseFrom gap.toList false s.toList)

/-- The zeros of the scripts outside ASCII, after Unicode 14. -/
def scriptZeros : Array Nat :=
  #[0x660, 0x6F0, 0x7C0, 0x966, 0x9E6, 0xA66, 0xAE6, 0xB66, 0xBE6, 0xC66, 0xCE6, 0xD66, 0xDE6,
    0xE50, 0xED0, 0xF20, 0x1040, 0x1090, 0x17E0, 0x1810, 0x1946, 0x19D0, 0x1A80, 0x1A90, 0x1B50,
    0x1BB0, 0x1C40, 0x1C50, 0xA620, 0xA8D0, 0xA900, 0xA9D0, 0xA9F0, 0xAA50, 0xABF0, 0xFF10,
    0x104A0, 0x10D30, 0x11066, 0x110F0, 0x11136, 0x111D0, 0x112F0, 0x11450, 0x114D0, 0x11650,
    0x116C0, 0x11730, 0x118E0, 0x11950, 0x11C50, 0x11D50, 0x11DA0, 0x16A60, 0x16AC0, 0x16B50,
    0x1D7CE, 0x1D7D8, 0x1D7E2, 0x1D7EC, 0x1D7F6, 0x1E140, 0x1E2F0, 0x1E950, 0x1FBF0]

def asciiDigit? (c : Char) : Option Nat :=
  if '0'.toNat ≤ c.toNat && c.toNat ≤ '9'.toNat then some (c.toNat - '0'.toNat) else none

/-- The value of a decimal digit of any script. -/
def digit? (c : Char) : Option Nat :=
  match asciiDigit? c with
  | some d => some d
  | none =>
    if c.toNat < 0x80 then none
    else (scriptZeros.find? fun z => z ≤ c.toNat && c.toNat < z + 10).map (c.toNat - ·)

/-- The value of a hexadecimal digit, of either case. -/
def hexDigit? (c : Char) : Option Nat :=
  let n := c.toNat
  if 0x30 ≤ n && n ≤ 0x39 then some (n - 0x30)
  else if 0x41 ≤ n && n ≤ 0x46 then some (n - 0x37)
  else if 0x61 ≤ n && n ≤ 0x66 then some (n - 0x57)
  else none

/-- `n` in `width` lowercase hexadecimal digits. -/
def hexDigits : Nat → Nat → List Char
  | 0, _ => []
  | width + 1, n => hexDigits width (n / 16) ++ [Nat.digitChar (n % 16)]

end BusinessAtlas.Text
