import BusinessAtlas.Json.Basic
import BusinessAtlas.Text.Character

/-!
# Writing JSON

Two layouts: on one line, and on lines of their own with an indentation of two blanks. Texts are
written in ASCII; a character beyond U+FFFF becomes a surrogate pair. A number that is infinite or
undefined has no JSON form and is written as a word.
-/

namespace BusinessAtlas.Json

def escapedChar (c : Char) : List Char :=
  let unit (n : Nat) : List Char := '\\' :: 'u' :: Text.hexDigits 4 n
  if c == '"' then ['\\', '"']
  else if c == '\\' then ['\\', '\\']
  else if c == '\n' then ['\\', 'n']
  else if c == '\r' then ['\\', 'r']
  else if c == '\t' then ['\\', 't']
  else if c == '\x0c' then ['\\', 'f']
  else if c == '\x08' then ['\\', 'b']
  else
    let n := c.toNat
    if 0x20 ≤ n && n < 0x7F then [c]
    else if n < 0x10000 then unit n
    else unit (0xD800 + (n - 0x10000) / 0x400) ++ unit (0xDC00 + (n - 0x10000) % 0x400)

def writtenText (s : String) : String := .ofList ('"' :: s.toList.flatMap escapedChar ++ ['"'])

/-- A number; the words stand for what JSON cannot write. -/
def writtenNumber : Number → String
  | .int n => toString n
  | .float x =>
    if x.isNaN then "NaN"
    else if x.isInf then (if x < 0 then "-Infinity" else "Infinity")
    else Decimal.shortest x

/-- What stands between the parts of a list or record at one depth. -/
structure Layout where
  /-- The start of the line of a part. -/
  line : Nat → String
  /-- Between two parts. -/
  comma : String

def Layout.compact : Layout := ⟨fun _ => "", ", "⟩

/-- A line for every part, indented by two blanks a level. -/
def Layout.indented : Layout :=
  ⟨fun depth => .ofList ('\n' :: List.replicate (2 * depth) ' '), ","⟩

/-- Parts between their brackets; an empty list or record has no inside. -/
def bracketed (layout : Layout) (depth : Nat) (opening closing : String) (parts : List String) :
    String :=
  if parts.isEmpty then opening ++ closing
  else
    opening ++ layout.line (depth + 1)
      ++ (layout.comma ++ layout.line (depth + 1)).intercalate parts
      ++ layout.line depth ++ closing

mutual

/-- A value written at a depth of nesting. -/
def write (layout : Layout) (depth : Nat) : Json → String
  | .null => "null"
  | .bool true => "true"
  | .bool false => "false"
  | .number n => writtenNumber n
  | .text s => writtenText s
  | .list items => bracketed layout depth "[" "]" (writeItems layout (depth + 1) items)
  | .record fields => bracketed layout depth "\x7b" "\x7d" (writeFields layout (depth + 1) fields)

def writeItems (layout : Layout) (depth : Nat) : List Json → List String
  | [] => []
  | v :: rest => write layout depth v :: writeItems layout depth rest

def writeFields (layout : Layout) (depth : Nat) : List (String × Json) → List String
  | [] => []
  | (k, v) :: rest =>
    (writtenText k ++ ": " ++ write layout depth v) :: writeFields layout depth rest

end

def render (pretty : Bool) (v : Json) : String :=
  write (if pretty then .indented else .compact) 0 v

end BusinessAtlas.Json
