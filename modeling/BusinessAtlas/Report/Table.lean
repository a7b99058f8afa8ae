import BusinessAtlas.Decimal.Reader
import BusinessAtlas.Decimal.Shortest
import BusinessAtlas.Fault
import BusinessAtlas.Json.Basic
import BusinessAtlas.Text.Search

/-!
# Tables

Tables of a Markdown document. The cells of a column decide together how the column is written:
numbers are aligned at their decimal points and fill from the right, anything else fills from the
left. A text counts as a number if it reads as one.
-/

namespace BusinessAtlas

/-- What a cell or a column holds, from the special to the general. -/
inductive CellKind where
  | nothing
  | truth
  | whole
  | decimal
  | words
  deriving DecidableEq

namespace CellKind

def rank : CellKind → Nat
  | nothing => 0
  | truth => 1
  | whole => 2
  | decimal => 3
  | words => 4

def join (a b : CellKind) : CellKind := if a.rank < b.rank then b else a

theorem rank_join (a b : CellKind) : (a.join b).rank = max a.rank b.rank := by
  unfold join; split <;> omega

end CellKind

namespace Cell

/-- The text after groups of three digits, each behind a comma. -/
def dropGroups : List Char → List Char
  | ',' :: a :: b :: c :: rest =>
    if [a, b, c].all Decimal.isDigit then dropGroups rest else ',' :: a :: b :: c :: rest
  | cs => cs

/-- Whether a text ends here, be it with a line end. -/
def ends (cs : List Char) : Bool := cs.isEmpty || cs == ['\n']

/-- Whether a text is a decimal number whose thousands may be set off with commas. -/
def isGrouped (s : String) : Bool :=
  let cs := s.toList
  let (digits, rest) := (Decimal.splitSign cs).2.span Decimal.isDigit
  if 1 ≤ digits.length && digits.length ≤ 3 then
    match dropGroups rest with
    | '.' :: fraction => ends (fraction.dropWhile Decimal.isDigit)
    | rest => ends rest
  else
    match cs with
    | '.' :: fraction =>
      let (digits, rest) := fraction.span Decimal.isDigit
      !digits.isEmpty && ends rest
    | cs => ends cs

/-- Whether a text reads as an integer. -/
def isWhole (s : String) : Bool := (Decimal.readInt? s).isSome

/-- Whether a text reads as a number that is finite or is a word for one that is not. -/
def isNumber (s : String) : Bool :=
  match Decimal.readFloat? s with
  | none => false
  | some x =>
    if x.isNaN || x.isInf then
      ["inf", "-inf", "nan"].contains (String.ofList (s.toList.map Char.toLower))
    else true

def kind : Json → CellKind
  | .null => .nothing
  | .bool _ => .truth
  | .number (.int _) => .whole
  | .number (.float _) => .decimal
  | .text s =>
    if s.isEmpty then .nothing
    else if s == "True" || s == "False" then .truth
    else if isWhole s || (isGrouped s && !s.toList.contains '.') then .whole
    else if isNumber s || isGrouped s then .decimal
    else .words
  | .list _ | .record _ => .words

def columnKind (cells : List Json) : CellKind := (cells.map kind).foldl .join .truth

/-- A double of a column of decimal numbers: six significant digits. -/
def decimalText (v : Json) : Except Fault String :=
  match v with
  | .number n => if n.overflows then .error .tooLarge else .ok (Decimal.general n.toFloat)
  | .bool b => .ok (if b then "1" else "0")
  | .text s =>
    let plain := String.ofList (s.toList.filter (· ≠ ','))
    .ok (match Decimal.readFloat? plain with
      | some x => Decimal.general x
      | none => plain)
  | v => .ok v.shown

def text (kind : CellKind) (v : Json) : Except Fault String :=
  match v with
  | .null => .ok ""
  | .text "" => .ok ""
  | v => if kind == .decimal then decimalText v else .ok v.shown

/-- How many characters stand after the last occurrence of `c`, if there is one. -/
def after? (c : Char) (cs : List Char) : Option Nat :=
  if cs.contains c then some (cs.reverse.takeWhile (· ≠ c)).length else none

/-- How many characters of a number stand after its point, or after the mark of its exponent if it
has no point, and one more than that; nothing for other texts. -/
def decimals (s : String) : Nat :=
  if (isNumber s || isGrouped s) && !isWhole s then
    let cs := s.toList
    match after? '.' cs with
    | some n => n + 1
    | none =>
      match after? 'e' (cs.map Char.toLower) with
      | some n => n + 1
      | none => 0
  else 0

end Cell

/-- A column of a table: its header and the texts of its cells, all of one width. -/
structure Column where
  header : String
  cells : List String
  width : Nat

namespace Column

def widest (cells : List String) : Nat := (cells.map String.length).foldl max 0

/-- A column of numbers, aligned at their points. -/
def ofNumbers (header : String) (cells : List String) : Column :=
  let most := (cells.map Cell.decimals).foldl max 0
  let cells := cells.map fun s => s ++ Text.copies (most - Cell.decimals s) ' '
  let width := max (header.length + 2) (widest cells)
  ⟨Text.padLeft width ' ' header, cells.map (Text.padLeft width ' '), width⟩

def ofTexts (header : String) (cells : List String) : Column :=
  let cells := cells.map Text.trim
  let width := max (header.length + 2) (widest cells)
  ⟨Text.padRight width ' ' header, cells.map (Text.padRight width ' '), width⟩

def ofCells (header : String) (cells : List Json) : Except Fault Column := do
  let kind := Cell.columnKind cells
  let texts ← cells.mapM (Cell.text kind)
  return if kind == .whole || kind == .decimal then ofNumbers header texts
    else ofTexts header texts

end Column

namespace Table

def line (cells : List String) : String :=
  "|" ++ String.join (cells.map fun c => " " ++ c ++ " |")

def rule (columns : List Column) : String :=
  "|" ++ String.join (columns.map fun c => Text.copies (c.width + 2) '-' ++ "|")

def columnCells (headers : List String) (rows : List (List Json)) : List (String × List Json) :=
  headers.mapIdx fun i header => (header, rows.map fun row => row.getD i .null)

def lines (headers : List String) (rows : List (List Json)) : Except Fault (List String) := do
  let columns ← (columnCells headers rows).mapM fun c => Column.ofCells c.1 c.2
  return line (columns.map (·.header)) :: rule columns
    :: (List.range rows.length).map fun i => line (columns.map fun c => c.cells.getD i "")

/-- A table with its line end; a table without rows is a word. -/
def text (headers : List String) (rows : List (List Json)) : Except Fault String := do
  if rows.isEmpty then return "_None._\n"
  return "\n".intercalate (← lines headers rows) ++ "\n"

end Table

end BusinessAtlas
