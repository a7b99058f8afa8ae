import BusinessAtlas.Graph.Basic
import BusinessAtlas.Outcome

/-!
# Layout

Every kind of node stands on a level of its own or on one that it shares, and the nodes of a level
are spread evenly over the width. Coordinates are computed with the values of the settings, which
need not be numbers; as `Rat` the same layout is read exactly.
-/

namespace BusinessAtlas

/-- The arithmetic of coordinates. -/
class Coordinate (β : Type) where
  plus : β → β → Except Fault β
  /-- A multiple. -/
  times : Nat → β → Except Fault β
  /-- One of several equal parts. -/
  split : β → Nat → Except Fault β

instance : Coordinate Rat where
  plus a b := .ok (a + b)
  times n a := .ok (n * a)
  split a n := .ok (a / n)

/-- A number that is within the range of doubles when it is used as one. -/
def inRange (n : Number) : Except Fault Number :=
  if n.overflows then .error .tooLarge else .ok n

/-- The sum of two numbers. An integer that is added to a double has to be in its range. -/
def Number.plus? (a b : Number) : Except Fault Number :=
  match a, b with
  | .int _, .int _ => .ok (a.add b)
  | _, _ => do return (← inRange a).add (← inRange b)

theorem Number.plus?_eq_ok {a b : Number} (ha : a.overflows = false) (hb : b.overflows = false) :
    a.plus? b = .ok (a.add b) := by
  unfold Number.plus?
  split
  · rfl
  · simp [inRange, ha, hb]

/-- A part of a number. The part of an integer has to be in the range of doubles. -/
def Number.split? (a : Number) (n : Nat) : Except Fault Number :=
  let part := a.div (.int n)
  match a with
  | .int _ => if part.toFloat.isInf then .error .tooLarge else .ok part
  | .float _ => .ok part

namespace Json

/-- The sum of two values: of numbers, of texts or of lists. -/
def plus (a b : Json) : Except Fault Json :=
  match a, b with
  | .text s, .text t => .ok (.text (s ++ t))
  | .list xs, .list ys => .ok (.list (xs ++ ys))
  | a, b =>
    match a.asNumber?, b.asNumber? with
    | some m, some n => do return .number (← m.plus? n)
    | _, _ => .error .notArithmetic

/-- A multiple of a value; texts and lists are repeated. Levels and indices are what values are
multiplied by, and these are in the range of doubles. -/
def times (n : Nat) (v : Json) : Except Fault Json :=
  match v with
  | .text s => .ok (.text (String.join (List.replicate n s)))
  | .list xs => .ok (.list (List.replicate n xs).flatten)
  | v =>
    match v.asNumber? with
    | some m => .ok (.number ((Number.int n).mul m))
    | none => .error .notArithmetic

/-- One of several equal parts of a value, which has to be a number. -/
def split (v : Json) (n : Nat) : Except Fault Json :=
  match v.asNumber? with
  | some m => do return .number (← m.split? n)
  | none => .error .notArithmetic

end Json

instance : Coordinate Json := ⟨Json.plus, Json.times, Json.split⟩

variable {α β : Type} [Coordinate β]

namespace Layout

def height (l : Layout β) (level : Nat) : Except Fault β := do
  Coordinate.plus l.topMargin (← Coordinate.times level l.levelGap)

def place (l : Layout β) (spacing y : β) (index : Nat) : Except Fault (Position β) := do
  return ⟨← Coordinate.plus l.leftMargin (← Coordinate.times index spacing), y⟩

/-- The nodes with those of a level put into places, from the given index on. -/
def placeRow (l : Layout β) (level : Nat) (spacing y : β) (index : Nat) :
    List (Node α β) → Except Fault (List (Node α β))
  | [] => .ok []
  | n :: rest =>
    if n.kind.level == level then do
      let position ← l.place spacing y index
      return { n with position := some position }
        :: (← placeRow l level spacing y (index + 1) rest)
    else do return n :: (← placeRow l level spacing y index rest)

def placeLevel (l : Layout β) (nodes : List (Node α β)) (level : Nat) :
    Except Fault (List (Node α β)) :=
  match nodes.countP (·.kind.level == level) with
  | 0 => .ok nodes
  | row + 1 => do
    let y ← l.height level
    let spacing ← Coordinate.split l.totalWidth (row + 1)
    l.placeRow level spacing y 0 nodes

end Layout

end BusinessAtlas
