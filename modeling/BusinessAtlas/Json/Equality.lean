import BusinessAtlas.Json.Basic

/-!
# Equality and identity of values

Two values are the same when they agree up to the writing of their numbers: 1, 1.0 and true are one
number. The order of fields does not count. The undefined number is not the same as itself, but it is
one with itself, which is enough where a value is looked for among others. A value that is neither a
list nor a record is an identifier, and its `Key` decides which identifiers are one.
-/

namespace BusinessAtlas

namespace Json

def isUndefined : Json → Bool
  | .number (.float x) => x.isNaN
  | _ => false

mutual

def same : Json → Json → Bool
  | .null, .null => true
  | .text s, .text t => s == t
  | .list xs, .list ys => sameList xs ys
  | .record fs, .record gs => fs.length == gs.length && sameFields fs gs
  | .bool a, .bool b => a == b
  | .number a, .number b => a.same b
  | .bool a, .number b => (Number.int (if a then 1 else 0)).same b
  | .number a, .bool b => a.same (.int (if b then 1 else 0))
  | _, _ => false

/-- Lists are compared position by position. -/
def sameList : List Json → List Json → Bool
  | [], [] => true
  | x :: xs, y :: ys => (same x y || (x.isUndefined && y.isUndefined)) && sameList xs ys
  | _, _ => false

/-- Every field of the first record is in the second one with the same value. -/
def sameFields : List (String × Json) → List (String × Json) → Bool
  | [], _ => true
  | (k, v) :: rest, gs =>
    (match lookup k gs with
      | some w => same v w || (v.isUndefined && w.isUndefined)
      | none => false) && sameFields rest gs

end

/-- Whether a value is the same as another one, or both are undefined. -/
def isOne (v w : Json) : Bool := v.same w || (v.isUndefined && w.isUndefined)

/-- Whether a value is among others, up to the writing of numbers. -/
def isAmong (value : Json) (others : List Json) : Bool := others.any value.isOne

theorem same_text (s : String) (v : Json) : same (.text s) v = true ↔ v = .text s := by
  cases v with
  | text t =>
    rw [same, beq_iff_eq, Json.text.injEq]
    exact eq_comm
  | _ => simp [same]

theorem isOne_text (s : String) (v : Json) : isOne (.text s) v = true ↔ v = .text s := by
  simp [isOne, isUndefined, same_text]

theorem text_isAmong {s : String} {others : List Json} :
    isAmong (.text s) others = true ↔ .text s ∈ others := by
  rw [isAmong, List.any_eq_true]
  constructor
  · rintro ⟨v, hv, h⟩
    exact (isOne_text s v).mp h ▸ hv
  · exact fun h => ⟨_, h, (isOne_text s _).mpr rfl⟩

end Json

/-- What identifies an identifier. -/
inductive Key where
  | null
  | number (value : Rat)
  | infinite (negative : Bool)
  | undefined
  | text (value : String)
  deriving DecidableEq

/-- A value that can identify something: neither a list nor a record. -/
inductive Ident where
  | null
  | bool (value : Bool)
  | number (value : Number)
  | text (value : String)
  deriving DecidableEq, Inhabited

namespace Ident

def numberKey (n : Number) : Key :=
  match n.rational? with
  | some q => .number q
  | none =>
    if n.toFloat.isNaN then .undefined else .infinite (n.toFloat < 0)

/-- Identifiers with the same key are one. -/
def key : Ident → Key
  | .null => .null
  | .bool b => numberKey (.int (if b then 1 else 0))
  | .number n => numberKey n
  | .text s => .text s

def toJson : Ident → Json
  | .null => .null
  | .bool b => .bool b
  | .number n => .number n
  | .text s => .text s

@[simp] theorem key_text (s : String) : (Ident.text s).key = .text s := rfl

/-- Whether two identifiers name the same thing. -/
def same (a b : Ident) : Bool := a.key == b.key

end Ident

/-- The identifier that a value is, if it is one. -/
def Json.ident? : Json → Option Ident
  | .null => some .null
  | .bool b => some (.bool b)
  | .number n => some (.number n)
  | .text s => some (.text s)
  | .list _ | .record _ => none

@[simp] theorem Ident.ident?_toJson (a : Ident) : a.toJson.ident? = some a := by
  cases a <;> rfl

end BusinessAtlas
