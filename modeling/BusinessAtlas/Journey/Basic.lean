import BusinessAtlas.Grouping
import BusinessAtlas.Json.Basic
import BusinessAtlas.Number.Scalar

/-!
# Journeys

A journey is what a user goes through from one entry point: steps at components, the data that each
step handles, the outcomes, and the detours that lead back when a step fails.
-/

namespace BusinessAtlas

/-- What is done to the data of an entity. -/
structure DataOperation where
  operation : Option String
  entity : Option String
  attributes : List String
  conditions : List String
  transformations : List String
  deriving DecidableEq

/-- The kinds of step. A step from elsewhere may bring a kind of its own. -/
inductive StepKind where
  | interaction
  | process
  | decision
  | dataOperation
  | navigation
  | other (name : String)
  deriving DecidableEq

namespace StepKind

def name : StepKind → String
  | interaction => "interaction"
  | process => "process"
  | decision => "decision"
  | dataOperation => "data_operation"
  | navigation => "navigation"
  | other name => name

def ofName (s : String) : StepKind :=
  if s == "interaction" then interaction
  else if s == "process" then process
  else if s == "decision" then decision
  else if s == "data_operation" then dataOperation
  else if s == "navigation" then navigation
  else other s

end StepKind

/-- One step of a journey, at a component. -/
structure Step (α : Type) where
  id : String
  order : α
  kind : StepKind
  description : String
  component : String
  action : String
  response : String
  operation : Option DataOperation
  next : List String
  duration : Option α

/-- What starts a journey. -/
structure Trigger where
  kind : String
  description : String
  component : String
  preconditions : List String

/-- A datum that a step takes in or hands on. -/
structure DataPoint where
  kind : Json
  source : String
  required : Bool

/-- The data that a step handles. -/
structure StepData where
  step : String
  incoming : List DataPoint
  processing : List String
  outgoing : List DataPoint
  sideEffects : List String

/-- How a journey may end. -/
structure Outcome where
  kind : String
  description : String
  impact : String
  result : String
  measures : List String

/-- A way around a step. -/
structure Detour (α : Type) where
  id : String
  condition : String
  description : String
  origin : String
  destination : String
  probability : α
  steps : List (Step α)

/-- The measures of a journey. -/
structure JourneyMetrics (α : Type) where
  duration : α
  complexity : α
  effort : Nat
  load : Nat
  dataPoints : Nat
  decisions : Nat
  integrations : Nat

/-- The measures of a journey before anything is counted. -/
def JourneyMetrics.zero {α : Type} [Scalar α] : JourneyMetrics α :=
  ⟨Scalar.int 0, Scalar.int 0, 0, 0, 0, 0, 0⟩

/-- What a user goes through from one entry point. -/
structure Journey (α : Type) where
  id : String
  name : String
  persona : String
  goal : Option String
  trigger : Trigger
  steps : List (Step α)
  data : List StepData
  outcomes : List Outcome
  detours : List (Detour α)
  metrics : JourneyMetrics α
  value : Option String

namespace Journey

variable {α : Type}

/-- The components of the steps, in the order in which the journey comes to them. -/
def components (j : Journey α) : List String := distinctItems (j.steps.map (·.component))

def transitions (j : Journey α) : List (Step α × Step α) := j.steps.zip j.steps.tail

end Journey

end BusinessAtlas
