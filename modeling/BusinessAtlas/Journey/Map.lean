import BusinessAtlas.Journey.Flow
import BusinessAtlas.Journey.Pattern
import BusinessAtlas.Journey.Relationship
import BusinessAtlas.Journey.Trace
import BusinessAtlas.Progress

/-!
# The journey map

All journeys of a project, how they relate, the patterns they share and the flow of data that they
make. The map is filled in passes, each of which adds to what is there.
-/

namespace BusinessAtlas

/-- The journeys of a project and what is known about them together. -/
structure JourneyMap (α : Type) where
  journeys : List (Journey α)
  relationships : List JourneyRelationship
  patterns : List StepPattern
  flow : FlowGraph

/-- The highest complexity, effort and load of a journey. -/
def topRating : Nat := 10

namespace Journey

variable {α : Type} [Scalar α]

def stepCount (kind : StepKind) (j : Journey α) : Nat := j.steps.countP (·.kind == kind)

def totalDuration (j : Journey α) : α :=
  Scalar.sum (j.steps.map fun s => match s.duration with
    | some d => if Scalar.isZero d then Scalar.int 0 else d
    | none => Scalar.int 0)

/-- A third of the steps, twice the decisions, and the detours. -/
def complexity (j : Journey α) : α :=
  Scalar.cap topRating (Scalar.add
    (Scalar.add (Scalar.div (Scalar.count j.steps.length) (Scalar.int 3))
      (Scalar.count (2 * j.metrics.decisions)))
    (Scalar.count j.detours.length))

def measured (j : Journey α) : Journey α :=
  { j with metrics := { j.metrics with
      duration := j.totalDuration
      complexity := j.complexity
      effort := min topRating (2 * j.stepCount .interaction)
      load := min topRating (3 * j.metrics.integrations + 2 * j.stepCount .dataOperation) } }

end Journey

namespace JourneyMap

variable {α : Type} [Scalar α]

def empty : JourneyMap α := ⟨[], [], [], ⟨[], [], []⟩⟩

def ids (m : JourneyMap α) : List String := m.journeys.map (·.id)

def addJourney (t : Terrain) (m : JourneyMap α) (entry : Component) : Progress (JourneyMap α) :=
  .step m do
    match ← t.trace m.ids entry with
    | some j => return { m with journeys := m.journeys ++ [j] }
    | none => return m

/-- Adds the journeys from all entry points. -/
def addJourneys (t : Terrain) (m : JourneyMap α) : Progress (JourneyMap α) :=
  match t.entryPoints with
  | .error f => ⟨m, some f⟩
  | .ok entries => .each (addJourney t) m entries

def addPatterns (m : JourneyMap α) : JourneyMap α :=
  { m with patterns := m.patterns ++ StepPattern.shared m.journeys }

/-- Adds the nodes and edges of the flow of data. -/
def addFlow (m : JourneyMap α) : JourneyMap α :=
  { m with flow := { m.flow with
      nodes := m.flow.nodes ++ FlowNode.ofJourneys m.journeys
      edges := m.flow.edges ++ FlowEdge.ofJourneys m.journeys } }

def addClusters (table : Classifier) (m : JourneyMap α) : Progress (JourneyMap α) :=
  .each (fun m group => .step m do
    let cluster ← FlowCluster.ofGroup group.1 group.2
    return { m with flow := { m.flow with clusters := m.flow.clusters ++ [cluster] } })
    m (FlowCluster.groups table m.flow.nodes)

/-- Adds the flow of data with its clusters. -/
def traceFlow (table : Classifier) (m : JourneyMap α) : Progress (JourneyMap α) :=
  m.addFlow.addClusters table

def relate (m : JourneyMap α) : JourneyMap α :=
  { m with relationships := m.relationships ++ Journey.relationships m.journeys }

def measure (m : JourneyMap α) : JourneyMap α :=
  { m with journeys := m.journeys.map Journey.measured }

def build (t : Terrain) : Progress (JourneyMap α) :=
  ((addJourneys t empty).andThen fun m => m.addPatterns.traceFlow t.tables.cluster).andThen
    fun m => .done m.relate.measure

end JourneyMap

end BusinessAtlas
