import BusinessAtlas.Journey.Basic
import BusinessAtlas.Text.Search

/-!
# Patterns of steps

Two or three consecutive steps have a signature, made of the kind and the first word of each. A
signature that several journeys share is a pattern.
-/

namespace BusinessAtlas

/-- A step of a pattern, as its signature gives it. -/
structure PatternStep where
  kind : String
  data : String
  frequency : Nat

/-- A run of steps that several journeys share. -/
structure StepPattern where
  id : String
  name : String
  description : String
  occurrences : List String
  steps : List PatternStep
  purpose : String

/-- The runs of two and three consecutive items. -/
def windows {β : Type} : List β → List (List β)
  | a :: b :: c :: rest => [a, b] :: [a, b, c] :: windows (b :: c :: rest)
  | [a, b] => [[a, b]]
  | _ => []

def Step.signature {α : Type} (s : Step α) : String :=
  s.kind.name ++ "-" ++ Text.before " " s.description

/-- What stands between the signatures of two steps. -/
def arrow : String := "->"

def runSignature {α : Type} (run : List (Step α)) : String :=
  arrow.intercalate (run.map Step.signature)

namespace StepPattern

def mixesInputAndData (steps : List String) : Bool :=
  steps.any (Text.occurs "interaction") && steps.any (Text.occurs "data_operation")

/-- What a pattern with these steps is called. -/
def nameFor (steps : List String) : String :=
  if mixesInputAndData steps then "User Input to Data Operation"
  else if steps.all (Text.occurs "process") then "Sequential Processing"
  else if steps.any (Text.occurs "navigation") then "Navigation Flow"
  else "Common Interaction Pattern"

def purposeFor (steps : List String) : String :=
  if mixesInputAndData steps then "Capture user input and persist to database"
  else if steps.any (Text.occurs "navigation") then "Guide user through application flow"
  else "Standardize user interaction flow"

def ofSignature (signature : String) (journeys : List String) : StepPattern :=
  let steps := Text.splitOn arrow signature
  { id := "pattern-" ++ Text.replace arrow "-" signature
    name := nameFor steps
    description := "Common pattern occurring in " ++ toString journeys.length ++ " journeys"
    occurrences := journeys
    steps := steps.map fun s => ⟨Text.before "-" s, s, journeys.length⟩
    purpose := purposeFor steps }

def signaturesOf {α : Type} (j : Journey α) : List (String × String) :=
  (windows j.steps).map fun run => (runSignature run, j.id)

def shared {α : Type} (journeys : List (Journey α)) : List StepPattern :=
  let found := (grouped (journeys.flatMap signaturesOf)).map fun g => (g.1, distinctItems g.2)
  (found.filter fun g => decide (1 < g.2.length)).map fun g => ofSignature g.1 g.2

end StepPattern

end BusinessAtlas
