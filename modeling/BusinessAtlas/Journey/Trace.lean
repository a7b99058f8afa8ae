import BusinessAtlas.Journey.Walk

/-!
# Tracing a journey

The steps that a walk makes and what follows from them: the data of each step, the outcomes of the
journey and a detour around every step at which something is decided.
-/

namespace BusinessAtlas

namespace PatternKind

/-- The kind of step that an interaction becomes. -/
def stepKind : PatternKind → StepKind
  | userInput => .interaction
  | navigation => .navigation
  | apiCall => .dataOperation
  | display | stateManagement | other _ => .process

/-- How long the step of an interaction takes, in seconds. -/
def duration {α : Type} [Scalar α] : PatternKind → α
  | userInput => Scalar.int 5
  | navigation => Scalar.int 2
  | stateManagement => Scalar.decimal 5 1
  | apiCall => Scalar.int 3
  | display | other _ => Scalar.int 1

/-- Whether an interaction works on data of its own. -/
def handlesData : PatternKind → Bool
  | apiCall | stateManagement => true
  | _ => false

end PatternKind

/-- Something is decided where an interaction has several outcomes or says so. -/
def Pattern.decides (p : Pattern) : Bool :=
  decide (1 < p.outcomes.length) || Text.occurs "decision" p.description

variable {α : Type} [Scalar α]

/-- What an interaction of a component does to data. -/
def JourneyTables.operationOf (tables : JourneyTables) (name : String) (p : Pattern) :
    Option DataOperation :=
  if p.kind.handlesData then
    some ⟨tables.operation.classify name, tables.entity.classify name, [], [], []⟩
  else none

/-- The id of the step of an interaction of a component. -/
def stepId (name : String) (index : Nat) : String := "step-" ++ name ++ "-" ++ toString index

/-- The step that an interaction of a component becomes. -/
def Step.ofPattern (tables : JourneyTables) (name : String) (p : Pattern) (index order : Nat) :
    Step α where
  id := stepId name index
  order := Scalar.count order
  kind := p.kind.stepKind
  description := p.description
  component := name
  action := ", ".intercalate p.triggers
  response := ", ".intercalate p.outcomes
  operation := tables.operationOf name p
  next := []
  duration := some p.kind.duration

/-- The steps at a component, each with the interaction that it stands for. -/
def Visit.steps (tables : JourneyTables) (v : Visit) : List (Pattern × Step α) :=
  v.mapping.patterns.mapIdx fun i p =>
    (p, .ofPattern tables v.component.name.shown p i (v.order + i))

/-- What is counted on a walk: the inputs of the user, the calls of other systems and the ids of the
steps at which something is decided. -/
structure Tally where
  effort : Nat
  integrations : Nat
  deciding : List String
  deriving DecidableEq

def Tally.ofSteps (made : List (Pattern × Step α)) : Tally :=
  let kind (k : PatternKind) : Nat := made.countP fun m => m.1.kind == k
  ⟨kind .userInput, kind .apiCall, (made.filter fun m => m.1.decides).map (·.2.id)⟩

/-- Steps that each lead to the one after. -/
def chained : List (Step α) → List (Step α)
  | s :: after :: rest => { s with next := s.next ++ [after.id] } :: chained (after :: rest)
  | steps => steps

omit [Scalar α] in
/-- What does not depend on where the steps lead is not changed by chaining them. -/
theorem map_chained {β : Type} {f : Step α → β} (hf : ∀ s next, f { s with next } = f s)
    (steps : List (Step α)) : (chained steps).map f = steps.map f := by
  induction steps using chained.induct with
  | case1 s after rest ih =>
    rw [chained, List.map_cons, hf, ih]
    rfl
  | case2 steps h => rw [chained.eq_2 steps h]

/-- The data that a step handles: what goes through its component. -/
def Step.handled (mappings : List Mapping) (s : Step α) : StepData :=
  match findMapping s.component mappings with
  | none => ⟨s.id, [], [], [], []⟩
  | some m =>
    { step := s.id
      incoming := m.data.inputs.map fun i => ⟨i.kind, i.source, true⟩
      processing := m.data.transformations.map (·.logic)
      outgoing := m.data.outputs.map fun o => ⟨.text o.kind, "computation", false⟩
      sideEffects := m.data.sideEffects }

def StepData.size (d : StepData) : Nat := d.incoming.length + d.outgoing.length

/-- How the journey may end: well; badly where other systems take part; half way if it is long. -/
def Journey.endings (j : Journey α) : List Outcome :=
  let when (b : Bool) (o : Outcome) : List Outcome := if b then [o] else []
  ⟨"success", "Successfully complete " ++ (Json.text? j.goal).shown,
    "User achieves intended goal", "All operations completed successfully",
    ["Completion time", "Success rate", "User satisfaction"]⟩
  :: when (decide (0 < j.metrics.integrations))
    ⟨"failure", "API/Integration failure", "User cannot complete task",
      "External service unavailable or error",
      ["Error rate", "Retry attempts", "Fallback usage"]⟩
  ++ when (decide (3 < j.steps.length))
    ⟨"partial", "User abandons journey", "Goal partially achieved or abandoned",
      "Journey interrupted by user action",
      ["Drop-off rate", "Completion percentage", "Time to abandon"]⟩

/-- The steps of the way around a step: the error is shown, then the user tries again. -/
def Step.recovery (s : Step α) : List (Step α) :=
  let tenth (k : Int) : α := Scalar.add s.order (Scalar.decimal k 1)
  [{ id := s.id ++ "-error", order := tenth 1, kind := .process
     description := "Display error message", component := s.component, action := ""
     response := "Show error notification", operation := none, next := [s.id ++ "-retry"]
     duration := some (Scalar.int 2) },
   { id := s.id ++ "-retry", order := tenth 2, kind := .interaction
     description := "User can retry action", component := s.component, action := "Click retry"
     response := "", operation := none, next := [s.id], duration := some (Scalar.int 3) }]

/-- The way around a step, which leads back to it. -/
def Step.detour (s : Step α) : Detour α :=
  ⟨"alt-path-error-" ++ s.id, "Error or validation failure", "Error handling path", s.id, s.id,
    Scalar.decimal 1 1, s.recovery⟩

/-- A detour around every step at which something is decided. -/
def detoursFor (decisions : List String) (steps : List (Step α)) : List (Detour α) :=
  (steps.filter fun s => s.kind == .decision || decisions.contains s.id).map Step.detour

namespace Terrain

/-- The steps of the walk from an entry point, each with the interaction that it stands for. -/
def stepsFrom (t : Terrain) (entry : Component) : Except Fault (List (Pattern × Step α)) := do
  return (← t.visits entry).flatMap (Visit.steps t.tables)

/-- The journey with these steps, finished: its steps are chained, the data of every step is known,
and so are its outcomes and detours. -/
def finish (t : Terrain) (j : Journey α) (made : List (Pattern × Step α)) : Journey α :=
  let tally := Tally.ofSteps made
  let steps := chained (made.map (·.2))
  let data := steps.map (Step.handled t.mappings)
  let metrics : JourneyMetrics α := { j.metrics with
    effort := tally.effort
    integrations := tally.integrations
    decisions := tally.deciding.length
    dataPoints := totalOf (data.map StepData.size) }
  let j := { j with steps, data, metrics }
  { j with outcomes := j.endings, detours := detoursFor tally.deciding steps }

/-- The journey from an entry point, given the ids that are taken; there is none without steps. -/
def trace (t : Terrain) (taken : List String) (entry : Component) :
    Except Fault (Option (Journey α)) := do
  let goal ← t.journeyGoal entry
  let id ← journeyId taken entry
  let name ← t.journeyName entry
  let persona ← entry.persona
  let trigger ← entry.trigger
  let value ← t.tables.value.classifyValue (.text? goal)
  let made ← t.stepsFrom entry
  if made.isEmpty then return none
  let blank : Journey α := ⟨id, name, persona, goal, trigger, [], [], [], [], .zero, value⟩
  return some (t.finish blank made)

end Terrain

end BusinessAtlas
