import BusinessAtlas.Classifier.Basic
import BusinessAtlas.Journey.Inference
import BusinessAtlas.Text.Character

/-!
# The flow of data

The components that journeys come to are the nodes of the flow, and a step that follows another one
is an edge between their components. Journeys that share a transition share its edge. Components of
one subject form a cluster.
-/

namespace BusinessAtlas

/-- A component in the flow of data. -/
structure FlowNode where
  name : String
  operations : List DataOperation
  journeys : List String

/-- How much hangs on an edge of the flow. -/
inductive Criticality where
  | low
  | medium
  | high
  | critical
  | other (name : String)
  deriving DecidableEq

namespace Criticality

def name : Criticality → String
  | low => "low"
  | medium => "medium"
  | high => "high"
  | critical => "critical"
  | other name => name

def ofName (s : String) : Criticality :=
  if s == "low" then low
  else if s == "medium" then medium
  else if s == "high" then high
  else if s == "critical" then critical
  else other s

/-- How much hangs on leaving a step of a journey. -/
def ofStep {α : Type} (s : Step α) (j : Journey α) : Criticality :=
  if s.operation.any (·.operation == some "delete") then critical
  else if s.kind == .dataOperation && j.persona == signedInPersona then high
  else if s.kind == .interaction then medium
  else low

end Criticality

/-- A transition between two components. -/
structure FlowEdge where
  id : String
  source : String
  target : String
  data : String
  operation : String
  volume : String
  criticality : Criticality

/-- Components of one subject. -/
structure FlowCluster where
  id : String
  name : String
  nodes : List String
  purpose : String
  requirements : List String

/-- The flow of data between components. -/
structure FlowGraph where
  nodes : List FlowNode
  edges : List FlowEdge
  clusters : List FlowCluster

/-- A list with an item added unless it is there. -/
def addNew {κ : Type} [DecidableEq κ] (x : κ) (xs : List κ) : List κ :=
  if x ∈ xs then xs else xs ++ [x]

namespace FlowNode

/-- The component of a step, with the journey and the operation of the step. -/
def noted (journey : String) (operation : Option DataOperation) (n : FlowNode) : FlowNode :=
  { n with
    journeys := addNew journey n.journeys
    operations := match operation with
      | some o => addNew o n.operations
      | none => n.operations }

def noteStep {α : Type} (journey : String) (s : Step α) : List FlowNode → List FlowNode
  | [] => [noted journey s.operation ⟨s.component, [], []⟩]
  | n :: rest =>
    if n.name == s.component then n.noted journey s.operation :: rest
    else n :: noteStep journey s rest

def ofJourneys {α : Type} (journeys : List (Journey α)) : List FlowNode :=
  journeys.foldl (fun nodes j => j.steps.foldl (fun nodes s => noteStep j.id s nodes) nodes) []

end FlowNode

namespace FlowEdge

def ofTransition {α : Type} (j : Journey α) (pair : Step α × Step α) : FlowEdge :=
  { id := "edge-" ++ pair.1.id ++ "-" ++ pair.2.id
    source := pair.1.component
    target := pair.2.component
    data := "user-data"
    operation := pair.1.kind.name
    volume := "medium"
    criticality := .ofStep pair.1 j }

def ends (e : FlowEdge) : String × String := (e.source, e.target)

/-- The edges of some journeys: for all transitions between two components the first one. -/
def ofJourneys {α : Type} (journeys : List (Journey α)) : List FlowEdge :=
  firstPer ends (journeys.flatMap fun j => j.transitions.map (ofTransition j))

end FlowEdge

/-- What has to be kept consistent in a cluster of that name. -/
def consistencyRequirements (name : String) : List String :=
  let when (b : Bool) (rs : List String) : List String := if b then rs else []
  "Data integrity"
  :: when (Text.occurs "User" name) ["Authentication consistency", "Session management"]
  ++ when (Text.occurs "Task" name) ["Task state consistency", "Order preservation"]

namespace FlowCluster

def ofGroup (subject : Option String) (nodes : List String) : Except Fault FlowCluster :=
  match subject with
  | none => .error .notText
  | some name => .ok {
      id := "cluster-" ++ "-".intercalate (Text.words (Text.lower name))
      name
      nodes
      purpose := "Group components related to " ++ name
      requirements := consistencyRequirements name }

/-- The names of nodes by their subjects, where a subject has several. -/
def groups (table : Classifier) (nodes : List FlowNode) : List (Option String × List String) :=
  (grouped (nodes.map fun n => (table.classify n.name, n.name))).filter fun g =>
    decide (1 < g.2.length)

end FlowCluster

end BusinessAtlas
