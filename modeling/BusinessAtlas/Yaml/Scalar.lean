import BusinessAtlas.Decimal.Reader
import BusinessAtlas.Text.Search
import BusinessAtlas.Yaml.Value

/-!
# Plain scalars

The value that an unquoted YAML scalar stands for: a few words are null, truth values or special
numbers, digits in one of several bases are integers, digits with a point are doubles, a year, a
month and a day make a date. Anything else is a text. An exponent alone does not make a number. The
mark of a base with nothing but underscores after it, or a day that there is not, cannot be read.
-/

namespace BusinessAtlas.Yaml

open Decimal

/-- Why a scalar that is written like a date or a number is none. -/
inductive ScalarFault where
  | date (fault : DateFault)
  | number (fault : NumberFault)

def ScalarFault.fault : ScalarFault → Fault
  | date fault => .notDate fault
  | number fault => .notNumber fault

def nullWords : List String := ["", "~", "null", "Null", "NULL"]

def boolWords : List (String × Bool) :=
  [("yes", true), ("Yes", true), ("YES", true), ("no", false), ("No", false), ("NO", false),
    ("true", true), ("True", true), ("TRUE", true), ("false", false), ("False", false),
    ("FALSE", false), ("on", true), ("On", true), ("ON", true), ("off", false), ("Off", false),
    ("OFF", false)]

/-- The value of digits in a base; underscores do not count. -/
def inBase (base : Nat) (cs : List Char) : Nat :=
  (cs.filter (· != '_')).foldl (fun n c => n * base + (Text.hexDigit? c).getD 0) 0

/-- Whether there are digits, all of them below the base, with underscores anywhere. -/
def areDigits (base : Nat) (cs : List Char) : Bool :=
  !cs.isEmpty && cs.all fun c => c == '_' || match Text.hexDigit? c with
    | some d => d < base
    | none => false

def startsWithDigit (cs : List Char) : Bool := cs.head?.any isDigit

/-- The groups of a number in base sixty after the first one: each has one or two digits and is
below sixty. -/
def isSixty (cs : List Char) : Bool :=
  match cs with
  | [a] => isDigit a
  | [a, b] => '0' ≤ a && a ≤ '5' && isDigit b
  | _ => false

/-- The number of groups in base sixty. -/
def fromSixty (groups : List (List Char)) : Nat :=
  groups.foldl (fun n g => n * 60 + inBase 10 g) 0

def colonGroups (cs : List Char) : List (List Char) := Text.splitFrom [':'] 0 [] cs

/-- The integer after the mark of a base. -/
def marked? (base : Nat) (cs : List Char) : Option (Except NumberFault Nat) :=
  if !areDigits base cs then none
  else if cs.all (· == '_') then some (.error (.digits base))
  else some (.ok (inBase base cs))

def integer? : List Char → Option (Except NumberFault Nat)
  | ['0'] => some (.ok 0)
  | '0' :: 'b' :: cs => marked? 2 cs
  | '0' :: 'x' :: cs => marked? 16 cs
  | '0' :: cs => if areDigits 8 cs then some (.ok (inBase 8 cs)) else none
  | cs =>
    match colonGroups cs with
    | [] => none
    | first :: rest =>
      if startsWithDigit first && areDigits 10 first && rest.all isSixty then
        some (.ok (fromSixty (first :: rest)))
      else none

/-- An exponent with its sign, or nothing. -/
def exponent? : List Char → Option Int
  | [] => some 0
  | c :: s :: cs =>
    if (c == 'e' || c == 'E') && !cs.isEmpty && cs.all isDigit then
      if s == '+' then some (value cs) else if s == '-' then some (-(value cs : Int)) else none
    else none
  | _ => none

/-- A double with a point; `signed` says whether a sign was before it. -/
def fraction? (signed negative : Bool) (cs : List Char) : Option Float :=
  let (whole, rest) := cs.span (· != '.')
  match rest with
  | '.' :: after =>
    let (ds, rest) := after.span fun c => isDigit c || c == '_'
    let ds' := ds.filter (· != '_')
    let groups := colonGroups whole
    if whole.isEmpty then
      if signed || !startsWithDigit ds then none
      else (exponent? rest).map fun e => Binary64.ofDecimal false (value ds') (e - ds'.length)
    else if !startsWithDigit whole || !areDigits 10 (groups.headD []) then none
    else if groups.length == 1 then
      (exponent? rest).map fun e =>
        Binary64.ofDecimal negative (inBase 10 whole * Nat.pow 10 ds'.length + value ds')
          (e - ds'.length)
    else if (groups.drop 1).all isSixty && rest.isEmpty then
      some (Binary64.ofDecimal negative (fromSixty groups * Nat.pow 10 ds'.length + value ds')
        (-(ds'.length : Int)))
    else none
  | _ => none

/-- The words for infinity and for an undefined number. -/
def special? (signed negative : Bool) (s : String) : Option Float :=
  if [".inf", ".Inf", ".INF"].contains s then some (if negative then -1 / 0 else 1 / 0)
  else if !signed && [".nan", ".NaN", ".NAN"].contains s then some (0 / 0)
  else none

/-- The date that a year, a month and a day make. -/
def date (year month day : Nat) : Yaml :=
  .other "date" ("datetime.date(" ++ ", ".intercalate ([year, month, day].map toString) ++ ")") false

def date? : List Char → Option (Except ScalarFault Yaml)
  | [a, b, c, d, '-', e, f, '-', g, h] =>
    if [a, b, c, d, e, f, g, h].all isDigit then
      let (year, month, day) := (value [a, b, c, d], value [e, f], value [g, h])
      some (match DateFault.of? year month day with
        | some fault => .error (.date fault)
        | none => .ok (date year month day))
    else none
  | _ => none

def ofPlain (s : String) : Except ScalarFault Yaml :=
  if nullWords.contains s then .ok .null
  else match boolWords.lookup s with
  | some b => .ok (.bool b)
  | none =>
    let cs := s.toList
    let (negative, body) := splitSign cs
    let signed := body.length < cs.length
    match integer? body with
    | some (.error fault) => .error (.number fault)
    | some (.ok n) => .ok (.number (.int (if negative then -(n : Int) else n)))
    | none =>
      match special? signed negative (.ofList body) with
      | some x => .ok (.number (.float x))
      | none =>
        match fraction? signed negative body with
        | some x => .ok (.number (.float x))
        | none => (date? cs).getD (.ok (.text s))

end BusinessAtlas.Yaml
