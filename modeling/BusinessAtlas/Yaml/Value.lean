import BusinessAtlas.Fault

/-!
# YAML values

What a settings file denotes. Beyond JSON there are values of kinds that no setting has, such as
dates, and a mapping may have keys that are no texts. As it is read, a mapping has every pair that is
given; `settled` keeps one pair for each key. `toJson` is the part that settings can use: a value of
another kind becomes null, and only keys that are texts name a setting. How a document is read is left
to a `Reader`.
-/

namespace BusinessAtlas

/-- A YAML value. -/
inductive Yaml where
  | null
  | bool (value : Bool)
  | number (value : Number)
  | text (value : String)
  /-- A value of another kind: the name of the kind, how the value is shown, and whether it is empty. -/
  | other (kind shown : String) (vacant : Bool)
  | list (items : List Yaml)
  | mapping (pairs : List (Yaml × Yaml))
  deriving Inhabited

namespace Yaml

/-- How the reading of a document ends that gives no value. -/
inductive ReadFault (ε : Type) where
  /-- The document is refused, for it is not YAML. -/
  | malformed
  /-- The bytes are not UTF-8. -/
  | undecodable
  /-- Reading breaks off with a fault that does not refuse the document. -/
  | broken (fault : ε)

/-- A way to read documents, with the faults with which it may break off. Bytes are decoded as they are
read, so of those that are no text the reader may refuse what stands before the first such byte, or
break off there, and never come to it. -/
structure Reader (ε : Type) where
  ofText : List Char → Except (ReadFault ε) Yaml
  beforeStray : ByteArray → Option (ReadFault ε)

def Reader.ofBytes {ε : Type} (reader : Reader ε) (bytes : ByteArray) : Except (ReadFault ε) Yaml :=
  match String.fromUTF8? bytes with
  | some s => reader.ofText (Text.unifyLineEnds s.toList)
  | none => .error ((reader.beforeStray bytes).getD .undecodable)

mutual

def toJson : Yaml → Json
  | .null | .other _ _ _ => .null
  | .bool b => .bool b
  | .number n => .number n
  | .text s => .text s
  | .list items => .list (itemsToJson items)
  | .mapping pairs => .record (pairsToJson pairs)

def itemsToJson : List Yaml → List Json
  | [] => []
  | v :: rest => toJson v :: itemsToJson rest

def pairsToJson : List (Yaml × Yaml) → List (String × Json)
  | [] => []
  | (.text k, v) :: rest => (k, toJson v) :: pairsToJson rest
  | (_, _) :: rest => pairsToJson rest

end

mutual

def literal : Yaml → String
  | .other _ shown _ => shown
  | .list items => "[" ++ ", ".intercalate (literals items) ++ "]"
  | .mapping pairs => "\x7b" ++ ", ".intercalate (pairLiterals pairs) ++ "\x7d"
  | .null => Json.null.literal
  | .bool b => (Json.bool b).literal
  | .number n => n.text
  | .text s => Text.quoted s

def literals : List Yaml → List String
  | [] => []
  | v :: rest => literal v :: literals rest

/-- The forms of the pairs of a mapping. -/
def pairLiterals : List (Yaml × Yaml) → List String
  | [] => []
  | (k, v) :: rest => (literal k ++ ": " ++ literal v) :: pairLiterals rest

end

def kindName : Yaml → String
  | .null => "NoneType"
  | .bool _ => "bool"
  | .number (.int _) => "int"
  | .number (.float _) => "float"
  | .text _ => "str"
  | .other kind _ _ => kind
  | .list _ => "list"
  | .mapping _ => "dict"

/-- Whether the value is null, false, zero or empty. -/
def isVacant : Yaml → Bool
  | .other _ _ vacant => vacant
  | .mapping pairs => pairs.isEmpty
  | v => v.toJson.isVacant

/-- The part of a value that a path leads to. -/
def part? : List Json.Step → Yaml → Option Yaml
  | [], v => some v
  | .index i :: rest, .list items => items[i]? >>= part? rest
  | .field name :: rest, .mapping pairs =>
    (pairs.find? fun p => match p.1 with
      | .text k => k == name
      | _ => false) >>= fun p => part? rest p.2
  | _, _ => none

/-- Whether two keys of a mapping are one. -/
def sameKey : Yaml → Yaml → Bool
  | .other kind shown _, .other kind' shown' _ => kind == kind' && shown == shown'
  | .other _ _ _, _ | _, .other _ _ _ => false
  | a, b => a.toJson.same b.toJson

/-- The pairs with a key set, in its place if it is there. -/
def put (key value : Yaml) : List (Yaml × Yaml) → List (Yaml × Yaml)
  | [] => [(key, value)]
  | (k, v) :: rest => if sameKey k key then (k, value) :: rest else (k, v) :: put key value rest

mutual

/-- The value with one pair for each key: the last value that is given, at the first place. -/
def settled : Yaml → Yaml
  | .list items => .list (settledItems items)
  | .mapping pairs => .mapping (settledPairs [] pairs)
  | v => v

def settledItems : List Yaml → List Yaml
  | [] => []
  | v :: rest => settled v :: settledItems rest

/-- The pairs `done` with the pairs of a mapping put to them. -/
def settledPairs (done : List (Yaml × Yaml)) : List (Yaml × Yaml) → List (Yaml × Yaml)
  | [] => done
  | (k, v) :: rest => settledPairs (put k (settled v) done) rest

end

end Yaml

end BusinessAtlas
