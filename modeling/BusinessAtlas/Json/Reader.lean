import BusinessAtlas.Json.Basic
import BusinessAtlas.Text.Character

/-!
# Reading JSON

A reader that says what it expected and where. Each part of the reader takes the characters still
to be read and returns what is left of them; an error names the rest of the text at which it arose,
from which `Place.of` computes the line and the column. Of two fields with one name the later value
counts, at the earlier place.
-/

namespace BusinessAtlas.Json

/-- Why a text is not JSON. -/
inductive ReadError where
  | value
  | fieldName
  | colon
  | comma
  | unterminated
  | control
  | escape
  | unicodeEscape
  | extraData
  | byteOrderMark
  deriving DecidableEq

def ReadError.message : ReadError → String
  | value => "Expecting value"
  | fieldName => "Expecting property name enclosed in double quotes"
  | colon => "Expecting ':' delimiter"
  | comma => "Expecting ',' delimiter"
  | unterminated => "Unterminated string starting at"
  | control => "Invalid control character at"
  | escape => "Invalid \\escape"
  | unicodeEscape => "Invalid \\uXXXX escape"
  | extraData => "Extra data"
  | byteOrderMark => "Unexpected UTF-8 BOM (decode using utf-8-sig)"

/-- An error and the rest of the text at which it arose. -/
structure Failure where
  error : ReadError
  rest : List Char

/-- A value read and the rest of the text after it. -/
abbrev Read (α : Type) : Type := Except Failure (α × List Char)

/-- The characters that may stand between tokens. -/
def isSpace (c : Char) : Bool := c == ' ' || c == '\t' || c == '\n' || c == '\r'

def skipSpace (cs : List Char) : List Char := cs.dropWhile isSpace

/-- The value of four hexadecimal digits, if they are there and something follows them. -/
def hexUnit? : List Char → Option (Nat × List Char)
  | a :: b :: c :: d :: e :: rest =>
    match Text.hexDigit? a, Text.hexDigit? b, Text.hexDigit? c, Text.hexDigit? d with
    | some a, some b, some c, some d => some (((a * 16 + b) * 16 + c) * 16 + d, e :: rest)
    | _, _, _, _ => none
  | _ => none

/-- The character that follows a backslash, for the escapes of one letter. -/
def escapeLetter? : Char → Option Char
  | '"' => some '"'
  | '\\' => some '\\'
  | '/' => some '/'
  | 'b' => some '\x08'
  | 'f' => some '\x0c'
  | 'n' => some '\n'
  | 'r' => some '\r'
  | 't' => some '\t'
  | _ => none

def joinSurrogates (high low : Nat) : Char :=
  Char.ofNat (0x10000 + (high - 0xD800) * 0x400 + (low - 0xDC00))

/-- A code unit on its own. Half of a pair is no character that a text can have, so it is read as the
replacement character. -/
def loneUnit (n : Nat) : Char := if 0xD800 ≤ n && n ≤ 0xDFFF then '\uFFFD' else Char.ofNat n

/-- A text after its opening quote. `opening` is the rest of the file from that quote on, `done`
the characters read so far in reverse. The fuel bounds the characters that are left. -/
def readText (opening : List Char) : Nat → List Char → List Char → Read String
  | 0, _, _ => .error ⟨.unterminated, opening⟩
  | fuel + 1, done, cs =>
    match cs with
    | [] => .error ⟨.unterminated, opening⟩
    | '"' :: rest => .ok (.ofList done.reverse, rest)
    | '\\' :: 'u' :: rest =>
      match hexUnit? rest with
      | none => .error ⟨.unicodeEscape, 'u' :: rest⟩
      | some (n, after) =>
        match after with
        | '\\' :: 'u' :: more =>
          if 0xD800 ≤ n && n ≤ 0xDBFF && 5 ≤ more.length then
            match hexUnit? more with
            | none => .error ⟨.unicodeEscape, 'u' :: more⟩
            | some (m, beyond) =>
              if 0xDC00 ≤ m && m ≤ 0xDFFF then
                readText opening fuel (joinSurrogates n m :: done) beyond
              else readText opening fuel (loneUnit n :: done) after
          else readText opening fuel (loneUnit n :: done) after
        | _ => readText opening fuel (loneUnit n :: done) after
    | '\\' :: c :: rest =>
      match escapeLetter? c with
      | some d => readText opening fuel (d :: done) rest
      | none => .error ⟨.escape, cs⟩
    | '\\' :: [] => .error ⟨.unterminated, opening⟩
    | c :: rest =>
      if c.toNat < 0x20 then .error ⟨.control, cs⟩ else readText opening fuel (c :: done) rest

/-- The digits at the start of `cs` and what follows them. -/
def spanDigits (cs : List Char) : List Char × List Char :=
  cs.span fun c => (Text.asciiDigit? c).isSome

/-- The number that a run of digits denotes. -/
def digitsValue (ds : List Char) : Nat :=
  ds.foldl (fun n c => n * 10 + (Text.asciiDigit? c).getD 0) 0

/-- A whole part; a zero at its start is all of it. -/
def readWhole (cs : List Char) : Option (List Char × List Char) :=
  match spanDigits cs with
  | ([], _) => none
  | ('0' :: more, rest) => some (['0'], more ++ rest)
  | (ds, rest) => some (ds, rest)

/-- A fraction after a whole part; a point without digits does not belong to the number. -/
def readFraction : List Char → Option (List Char × List Char)
  | '.' :: cs =>
    let (ds, rest) := spanDigits cs
    if ds.isEmpty then none else some (ds, rest)
  | _ => none

/-- An exponent; a mark without digits does not belong to the number. -/
def readExponent : List Char → Option (Int × List Char)
  | c :: cs =>
    if c == 'e' || c == 'E' then
      let (negative, after) := match cs with
        | '-' :: r => (true, r)
        | '+' :: r => (false, r)
        | r => (false, r)
      let (ds, rest) := spanDigits after
      if ds.isEmpty then none
      else some (if negative then -(digitsValue ds : Int) else digitsValue ds, rest)
    else none
  | [] => none

/-- A number after its sign. A fraction or an exponent makes it a double. -/
def readUnsigned (negative : Bool) (cs : List Char) : Option (Number × List Char) :=
  (readWhole cs).map fun (whole, rest) =>
    let (fraction, rest, isFraction) := match readFraction rest with
      | some (ds, r) => (ds, r, true)
      | none => ([], rest, false)
    let (exponent, rest, isExponent) := match readExponent rest with
      | some (e, r) => (e, r, true)
      | none => (0, rest, false)
    if isFraction || isExponent then
      (.float (Binary64.ofDecimal negative (digitsValue (whole ++ fraction))
        (exponent - fraction.length)), rest)
    else
      (.int (if negative then -(digitsValue whole : Int) else digitsValue whole), rest)

def readNumber : List Char → Option (Number × List Char)
  | '-' :: cs => readUnsigned true cs
  | cs => readUnsigned false cs

def literalWords : List (List Char × Json) :=
  [("null".toList, .null), ("true".toList, .bool true), ("false".toList, .bool false),
    ("NaN".toList, .number (.float (0 / 0))), ("Infinity".toList, .number (.float (1 / 0))),
    ("-Infinity".toList, .number (.float (-1 / 0)))]

def readScalar (cs : List Char) : Read Json :=
  match literalWords.find? fun w => w.1.isPrefixOf cs with
  | some (w, v) => .ok (v, cs.drop w.length)
  | none =>
    match readNumber cs with
    | some (n, rest) => .ok (.number n, rest)
    | none => .error ⟨.value, cs⟩

mutual

/-- A value at the start of `cs`. Twice as much fuel as there are characters is enough: along any
path of calls two steps pass at least one character. -/
def readValue : Nat → List Char → Read Json
  | 0, cs => .error ⟨.value, cs⟩
  | fuel + 1, cs =>
    match cs with
    | '"' :: rest =>
      match readText cs fuel [] rest with
      | .error f => .error f
      | .ok (s, rest) => .ok (.text s, rest)
    | '[' :: rest =>
      match skipSpace rest with
      | ']' :: rest => .ok (.list [], rest)
      | rest => readItems fuel [] rest
    | '\x7b' :: rest =>
      match skipSpace rest with
      | '\x7d' :: rest => .ok (.record [], rest)
      | rest => readFields fuel [] rest
    | cs => readScalar cs

/-- The items of a list from the one at the start of `cs` on; `done` holds those before it in
reverse. -/
def readItems : Nat → List Json → List Char → Read Json
  | 0, _, cs => .error ⟨.value, cs⟩
  | fuel + 1, done, cs =>
    match readValue fuel cs with
    | .error f => .error f
    | .ok (v, rest) =>
      match skipSpace rest with
      | ']' :: rest => .ok (.list (v :: done).reverse, rest)
      | ',' :: rest => readItems fuel (v :: done) (skipSpace rest)
      | rest => .error ⟨.comma, rest⟩

/-- The fields of a record from the one at the start of `cs` on; `done` holds those before it. -/
def readFields : Nat → List (String × Json) → List Char → Read Json
  | 0, _, cs => .error ⟨.fieldName, cs⟩
  | fuel + 1, done, cs =>
    match cs with
    | '"' :: rest =>
      match readText cs fuel [] rest with
      | .error f => .error f
      | .ok (k, rest) =>
        match skipSpace rest with
        | ':' :: rest =>
          match readValue fuel (skipSpace rest) with
          | .error f => .error f
          | .ok (v, rest) =>
            match skipSpace rest with
            | '\x7d' :: rest => .ok (.record (put k v done), rest)
            | ',' :: rest => readFields fuel (put k v done) (skipSpace rest)
            | rest => .error ⟨.comma, rest⟩
        | rest => .error ⟨.colon, rest⟩
    | cs => .error ⟨.fieldName, cs⟩

end

/-- A line and a column, both counted from one. -/
structure Place where
  line : Nat
  column : Nat
  deriving DecidableEq

/-- The place of the character after `before`. -/
def Place.of (before : List Char) : Place :=
  { line := 1 + before.count '\n'
    column := (before.reverse.takeWhile (· != '\n')).length + 1 }

/-- The value that a whole text denotes. -/
def readChars (cs : List Char) : Except (ReadError × Place) Json :=
  let at_ (f : Failure) : ReadError × Place := (f.error, .of (cs.take (cs.length - f.rest.length)))
  match cs with
  | '\uFEFF' :: _ => .error (.byteOrderMark, ⟨1, 1⟩)
  | cs =>
    match readValue (2 * cs.length + 1) (skipSpace cs) with
    | .error f => .error (at_ f)
    | .ok (v, rest) =>
      match skipSpace rest with
      | [] => .ok v
      | rest => .error (at_ ⟨.extraData, rest⟩)

def read (s : String) : Except (ReadError × Place) Json := readChars s.toList

end BusinessAtlas.Json
