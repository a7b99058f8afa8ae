import BusinessAtlas.Facts.Context
import BusinessAtlas.Feature.Basic

/-!
# Scoring features

What a feature is worth and how large it is. The value comes from the tier of its capability and the
priorities of its stories; everything else is a sum over its components.
-/

namespace BusinessAtlas

/-- The highest value and the highest complexity of a feature. -/
def topScore : Nat := 100

def Category.ofTier : Json → Category
  | .text "core" => .core
  | .text "supporting" => .supporting
  | _ => .utility

def tierValue (tier : Json) : Except Fault Nat :=
  Json.choose [("core", 40), ("supporting", 20)] 10 tier

def storyValue {α : Type} (s : Story α) : Except Fault Nat :=
  s.priority.choose [("critical", 10), ("high", 7), ("medium", 4)] 1

def featureValue {α : Type} (c : Capability) (stories : List (Story α)) : Except Fault Nat := do
  let base ← tierValue c.value
  let parts ← stories.mapM storyValue
  return min topScore (base + totalOf parts)

namespace ComponentKind

def complexity : ComponentKind → Nat
  | hybrid => 15
  | container => 10
  | functional => 5
  | presentational | other _ => 3

/-- How complex a component of the kind is on average. -/
def typicalComplexity : ComponentKind → Nat
  | hybrid => 8
  | container => 6
  | functional => 3
  | presentational | other _ => 1

/-- The lines of code that a component of the kind has beyond the least. -/
def extraLines : ComponentKind → Nat
  | hybrid => 150
  | container => 100
  | functional => 50
  | presentational | other _ => 0

end ComponentKind

namespace Mapping

/-- What the component adds to technical complexity. -/
def complexity (m : Mapping) : Nat :=
  m.kind.complexity + 3 * m.patterns.length + 2 * m.data.inputs.length
    + 5 * m.data.transformations.length

/-- The estimated lines of code of the component. -/
def codeLines (m : Mapping) : Nat :=
  50 + m.kind.extraLines + 20 * m.patterns.length + 30 * m.data.transformations.length

/-- The interactions of the component that start with the user. -/
def interactionPoints (m : Mapping) : Nat := m.patterns.countP (·.kind == .userInput)

end Mapping

def technicalComplexity (ms : List Mapping) : Nat :=
  min topScore (totalOf (ms.map Mapping.complexity))

/-- The interactions of some components that start with the user. -/
def interactionPoints (ms : List Mapping) : Nat := totalOf (ms.map Mapping.interactionPoints)

/-- The estimated lines of code of some components. -/
def codeLines (ms : List Mapping) : Nat := totalOf (ms.map Mapping.codeLines)

/-- How complex some components are together, by their kinds. -/
def totalTypicalComplexity (ms : List Mapping) : Nat :=
  totalOf (ms.map fun m => m.kind.typicalComplexity)

/-- How complex some components are on average; zero if there are none. -/
def averageComplexity {α : Type} [Scalar α] (ms : List Mapping) : α :=
  if ms.isEmpty then Scalar.decimal 0 1
  else Scalar.div (Scalar.count (totalTypicalComplexity ms)) (Scalar.count ms.length)

def Feature.measured {α : Type} [Scalar α] (f : Feature α) : Feature α :=
  { f with metrics := {
      codeLines := codeLines f.components
      components := f.components.length
      interactionPoints := interactionPoints f.components
      endpoints := f.metrics.endpoints
      averageComplexity := averageComplexity f.components } }

end BusinessAtlas
