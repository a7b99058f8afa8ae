import BusinessAtlas.Number.Basic
import BusinessAtlas.Text.Quoted

/-!
# JSON values

A value of a facts or configuration file. The fields of a record keep the order in which they were
first written, and setting a field again changes its value and not its place. Records of the facts
are trusted as they are, so a field may hold any value; the operations here say what each kind of
value answers. In a message or a label a text on its own is shown as it is; inside a list or a record,
and wherever a message quotes a value, it stands between quotes.
-/

namespace BusinessAtlas

/-- A JSON value. -/
inductive Json where
  | null
  | bool (value : Bool)
  | number (value : Number)
  | text (value : String)
  | list (items : List Json)
  | record (fields : List (String × Json))
  deriving Inhabited

namespace Json

def int (n : Int) : Json := .number (.int n)

def nat (n : Nat) : Json := .number (.int n)

def texts (ts : List String) : Json := .list (ts.map .text)

def text? : Option String → Json
  | some s => .text s
  | none => .null

def lookup (key : String) : List (String × Json) → Option Json
  | [] => none
  | (k, v) :: rest => if k == key then some v else lookup key rest

/-- The fields with `key` set: in its place if it is there, at the end if it is new. -/
def put (key : String) (value : Json) : List (String × Json) → List (String × Json)
  | [] => [(key, value)]
  | (k, v) :: rest => if k == key then (k, value) :: rest else (k, v) :: put key value rest

def keys (fields : List (String × Json)) : List String := fields.map (·.1)

@[simp] theorem lookup_put_self (key : String) (value : Json) (fields : List (String × Json)) :
    lookup key (put key value fields) = some value := by
  induction fields with
  | nil => simp [put, lookup]
  | cons f rest ih =>
    obtain ⟨k, v⟩ := f
    by_cases h : k == key <;> simp [put, lookup, h, ih]

theorem lookup_put_of_ne {key other : String} (h : key ≠ other) (value : Json)
    (fields : List (String × Json)) :
    lookup other (put key value fields) = lookup other fields := by
  induction fields with
  | nil => simp [put, lookup, h]
  | cons f rest ih =>
    obtain ⟨k, v⟩ := f
    by_cases hk : k = key
    · subst hk; simp [put, lookup, h]
    · have hk' : (k == key) = false := by simpa using hk
      simp [put, lookup, hk', ih]

def field? (key : String) : Json → Option Json
  | .record fields => lookup key fields
  | _ => none

/-- A value is vacant when it is null, false, zero or empty. -/
def isVacant : Json → Bool
  | .null => true
  | .bool b => !b
  | .number n => n.isZero
  | .text s => s.isEmpty
  | .list items => items.isEmpty
  | .record fields => fields.isEmpty

/-- The value itself unless it is vacant. -/
def orElse (value : Json) (default : Json) : Json := if value.isVacant then default else value

def isNull : Json → Bool
  | .null => true
  | _ => false

def isRecord : Json → Bool
  | .record _ => true
  | _ => false

def isText : Json → Bool
  | .text _ => true
  | _ => false

/-- A truth value counts as one or zero where a number is wanted. -/
def asNumber? : Json → Option Number
  | .number n => some n
  | .bool b => some (.int (if b then 1 else 0))
  | _ => none

mutual

/-- The literal form of a value, with texts between quotes. -/
def literal : Json → String
  | .null => "None"
  | .bool true => "True"
  | .bool false => "False"
  | .number n => n.text
  | .text s => Text.quoted s
  | .list items => "[" ++ ", ".intercalate (literals items) ++ "]"
  | .record fields => "\x7b" ++ ", ".intercalate (fieldLiterals fields) ++ "\x7d"

/-- The literal forms of the items of a list. -/
def literals : List Json → List String
  | [] => []
  | v :: rest => literal v :: literals rest

/-- The literal forms of the fields of a record. -/
def fieldLiterals : List (String × Json) → List String
  | [] => []
  | (k, v) :: rest => (Text.quoted k ++ ": " ++ literal v) :: fieldLiterals rest

end

/-- The form of a value in running text. -/
def shown : Json → String
  | .text s => s
  | v => literal v

@[simp] theorem shown_text (s : String) : (Json.text s).shown = s := rfl

end Json

end BusinessAtlas
