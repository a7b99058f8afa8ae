import BusinessAtlas.Json.Equality
import BusinessAtlas.Json.Basic

/-!
# Shapes of values

A schema is a list of checks. `Schema.violations` lists every check that a value fails, at any
depth, with the path to the offending part; `Violation.worst` picks the one that is reported.
-/

namespace BusinessAtlas.Json

/-- The kinds that a check can ask for. -/
inductive Kind where
  | object
  | array
  | string
  | number
  | integer
  | boolean
  | null
  deriving DecidableEq

namespace Kind

def name : Kind → String
  | object => "object"
  | array => "array"
  | string => "string"
  | number => "number"
  | integer => "integer"
  | boolean => "boolean"
  | null => "null"

def all : List Kind := [object, array, string, number, integer, boolean, null]

def ofName? (s : String) : Option Kind := all.find? (·.name == s)

theorem ofName?_name (k : Kind) : ofName? k.name = some k := by cases k <;> decide

/-- Whether a value is of the kind. A double without a fraction is an integer; a truth value is no
number. -/
def holds : Kind → Json → Bool
  | object, .record _ => true
  | array, .list _ => true
  | string, .text _ => true
  | number, .number _ => true
  | integer, .number (.int _) => true
  | integer, .number (.float x) => match Binary64.rational? x with
    | some q => q.den == 1
    | none => false
  | boolean, .bool _ => true
  | null, .null => true
  | _, _ => false

end Kind

/-- One condition on a value. -/
inductive Check where
  /-- The value is of one of the kinds. -/
  | kinds (kinds : List Kind)
  /-- The value is one of those listed. -/
  | oneOf (values : List Json)
  /-- A number is at least the bound. -/
  | atLeast (bound : Number)
  /-- A number is above the bound. -/
  | above (bound : Number)
  /-- A record has the fields. -/
  | required (names : List String)
  /-- The named fields of a record satisfy the checks listed for them. -/
  | fields (checks : List (String × List Check))
  /-- The items of a list satisfy the checks. -/
  | items (checks : List Check)

/-- A schema: the checks in the order in which they are made. -/
abbrev Schema : Type := List Check

/-- One step into a value. -/
inductive Step where
  | field (name : String)
  | index (i : Nat)
  deriving DecidableEq

def Step.text : Step → String
  | field name => name
  | index i => toString i

/-- Fields are ordered by name, items by position. -/
def Step.less : Step → Step → Bool
  | field a, field b => a < b
  | index i, index j => i < j
  | field _, index _ => false
  | index _, field _ => true

/-- Why a value fails a check. -/
inductive Cause where
  | kinds (kinds : List Kind)
  | oneOf (values : List Json)
  | atLeast (bound : Number)
  | above (bound : Number)
  | required (name : String)

/-- A failed check: where, on which value, and why. -/
structure Violation where
  path : List Step
  value : Json
  cause : Cause

/-- The sentence that reports a violation of the value shown as `shown`. -/
def Violation.message (v : Violation) (shown : String) : String :=
  match v.cause with
  | .kinds ks => shown ++ " is not of type "
      ++ ", ".intercalate (ks.map fun k => Text.quoted k.name)
  | .oneOf values => shown ++ " is not one of " ++ (Json.list values).literal
  | .atLeast bound => shown ++ " is less than the minimum of " ++ bound.text
  | .above bound => shown ++ " is less than or equal to the minimum of " ++ bound.text
  | .required name => Text.quoted name ++ " is a required property"

/-- Where the violation is, or `root` for the value as a whole. -/
def Violation.place (v : Violation) : String :=
  if v.path.isEmpty then "root" else ".".intercalate (v.path.map Step.text)

/-- Equality that keeps truth values and numbers apart. -/
def agrees (v w : Json) : Bool := v.isOne w && (Kind.boolean.holds v == Kind.boolean.holds w)

mutual

/-- The violations of one check; `path` leads to the value, innermost step first. -/
def Check.violations (path : List Step) (v : Json) : Check → List Violation
  | .kinds ks => if ks.any (·.holds v) then [] else [⟨path.reverse, v, .kinds ks⟩]
  | .oneOf values => if values.any (agrees v) then [] else [⟨path.reverse, v, .oneOf values⟩]
  | .atLeast bound => match v with
    | .number n => if n.less bound then [⟨path.reverse, v, .atLeast bound⟩] else []
    | _ => []
  | .above bound => match v with
    | .number n =>
      if n.less bound || n.same bound then [⟨path.reverse, v, .above bound⟩] else []
    | _ => []
  | .required names => match v with
    | .record fs => (names.filter fun name => (lookup name fs).isNone).map fun name =>
        ⟨path.reverse, v, .required name⟩
    | _ => []
  | .fields table => match v with
    | .record fs => fieldViolations path fs table
    | _ => []
  | .items checks => match v with
    | .list items => items.zipIdx.flatMap fun item =>
        schemaViolations (.index item.2 :: path) item.1 checks
    | _ => []

/-- The violations of the checks on the fields of a record. -/
def fieldViolations (path : List Step) (fs : List (String × Json)) :
    List (String × List Check) → List Violation
  | [] => []
  | (name, checks) :: rest =>
    (match lookup name fs with
      | some v => schemaViolations (.field name :: path) v checks
      | none => []) ++ fieldViolations path fs rest

def schemaViolations (path : List Step) (v : Json) : List Check → List Violation
  | [] => []
  | c :: rest => c.violations path v ++ schemaViolations path v rest

end

/-- Every check of the schema that a value fails. -/
def Schema.violations (schema : Schema) (v : Json) : List Violation := schemaViolations [] v schema

def Schema.accepts (schema : Schema) (v : Json) : Bool := (schema.violations v).isEmpty

/-- Whether the first path comes before the second one of equal length. -/
def pathLess : List Step → List Step → Bool
  | a :: as, b :: bs => if a == b then pathLess as bs else a.less b
  | [], _ :: _ => true
  | _, [] => false

/-- Whether `b` is reported rather than `a`: shorter paths first, then greater ones. -/
def reportedOver (b a : List Step) : Bool :=
  b.length < a.length || (b.length == a.length && pathLess a b)

/-- The violation that is reported: of those with the shortest path the one with the greatest, and
the first of several at one place. -/
def Violation.worst : List Violation → Option Violation
  | [] => none
  | v :: rest =>
    some (rest.foldl (fun best w => if reportedOver w.path best.path then w else best) v)

theorem Violation.worst_eq_none_iff (vs : List Violation) : worst vs = none ↔ vs = [] := by
  cases vs <;> simp [worst]

/-- The kinds that a schema's text names, or the text that names none. -/
def readKinds : Json → Except Json (List Kind)
  | .text s => match Kind.ofName? s with
    | some k => .ok [k]
    | none => .error (.text s)
  | .list items => match items.mapM fun v => match v with
      | .text s => Kind.ofName? s
      | _ => none with
    | some ks => .ok ks
    | none => .error (.list items)
  | v => .error v

def textItems : Json → List String
  | .list items => items.filterMap fun v => match v with
    | .text s => some s
    | _ => none
  | _ => []

mutual

/-- The schema that a record writes down; fields that are no checks are passed over. -/
def readSchema : Json → Schema
  | .record fs => readChecks fs
  | _ => []

def readChecks : List (String × Json) → List Check
  | [] => []
  | (name, v) :: rest =>
    let found : List Check := match name, v with
      | "type", v => match readKinds v with
        | .ok ks => [.kinds ks]
        | .error _ => []
      | "enum", .list values => [.oneOf values]
      | "minimum", .number n => [.atLeast n]
      | "exclusiveMinimum", .number n => [.above n]
      | "required", v => [.required (textItems v)]
      | "properties", .record fs => [.fields (readFieldSchemas fs)]
      | "items", v => [.items (readSchema v)]
      | _, _ => []
    found ++ readChecks rest

def readFieldSchemas : List (String × Json) → List (String × List Check)
  | [] => []
  | (name, v) :: rest => (name, readSchema v) :: readFieldSchemas rest

end

mutual

/-- The kinds written down in a schema that are none, with the paths to them. -/
def badKinds (path : List Step) : Json → List (List Step × Json)
  | .record fs => badKindFields path fs
  | _ => []

def badKindFields (path : List Step) : List (String × Json) → List (List Step × Json)
  | [] => []
  | (name, v) :: rest =>
    (match name, v with
      | "type", v => match readKinds v with
        | .ok _ => []
        | .error bad => [((Step.field "type" :: path).reverse, bad)]
      | "properties", .record fs => badKindTable (.field "properties" :: path) fs
      | "items", v => badKinds (.field "items" :: path) v
      | _, _ => []) ++ badKindFields path rest

def badKindTable (path : List Step) : List (String × Json) → List (List Step × Json)
  | [] => []
  | (name, v) :: rest => badKinds (.field name :: path) v ++ badKindTable path rest

end

/-- Reads a schema, or says which of its kinds is none. -/
def Schema.ofJson (v : Json) : Except Json Schema :=
  match badKinds [] v with
  | [] => .ok (readSchema v)
  | b :: rest =>
    .error (rest.foldl (fun best w => if reportedOver w.1 best.1 then w else best) b).2

end BusinessAtlas.Json
