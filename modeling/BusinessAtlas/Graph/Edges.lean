import BusinessAtlas.Graph.Nodes

/-!
# Edges

The edges that each thing in a project declares. Whether both ends of an edge are in the graph does
not matter here: the arena passes over an edge with a loose end.
-/

namespace BusinessAtlas

variable {α : Type} [Scalar α]

namespace Edge

/-- An edge that is drawn like any other. -/
def plain (source target : Ident) (kind : EdgeKind) (label : String) (weight : α) : Edge α where
  id := "edge-" ++ source.toJson.shown ++ "-" ++ target.toJson.shown ++ "-" ++ kind.name
  source
  target
  kind
  label
  weight
  direction := .oneWay
  note := .plain
  style := .plain

/-- An edge drawn in a colour of its own. -/
def colored (color : String) (e : Edge α) : Edge α :=
  { e with style := { e.style with color := some color } }

def dashed (e : Edge α) : Edge α := { e with style := { e.style with dashed := true } }

/-- The edges from the thing with an id to those of some names, drawn in one way. Without a name the
id is not looked at. -/
def toEach (id : Json) (target : Json → Ident) (draw : Ident → Ident → Edge α)
    (names : List Json) : Except Fault (List (Edge α)) :=
  names.mapM fun name => do return draw (← id.asIdent) (target name)

end Edge

def Story.belonging (capabilities : List Capability) (s : Story α) :
    Except Fault (List (Edge α)) :=
  match capabilities.find? fun c => s.id.isAmong c.stories with
  | none => .ok []
  | some c => do
    let e := Edge.plain (← s.id.asIdent) (← c.id.asIdent) .belongsTo "belongs to"
      (Scalar.decimal 8 1)
    return [{ e with note := .confidence s.confidence }]

def Story.edges (capabilities : List Capability) (s : Story α) : Except Fault (List (Edge α)) := do
  let belonging ← s.belonging capabilities
  let implementing ← Edge.toEach s.id componentId (fun story component =>
    (Edge.plain story component .implements "implemented by" (Scalar.decimal 7 1)).colored
      "#3498DB") s.components
  return belonging ++ implementing

def Capability.edges (c : Capability) : Except Fault (List (Edge α)) :=
  Edge.toEach c.id entityId (fun capability entity =>
    let e := Edge.plain capability entity .uses "uses" (Scalar.decimal 6 1)
    { (e.colored "#9B59B6").dashed with direction := .bothWays }) c.entities

/-- The edge that a relationship of features is drawn as. -/
def RelationshipKind.edge : RelationshipKind → Except Fault EdgeKind
  | dependsOn => .ok .dependsOn
  | extendsOther | alternativeTo => .ok .extendsOther
  | complements => .ok .uses
  | other name => .error (.unknownRelationship name)

def Relationship.edges (r : Relationship α) : Except Fault (List (Edge α)) := do
  let kind ← r.kind.edge
  let needed := kind == .dependsOn
  let e := Edge.plain (.text r.source) (.text r.target) kind r.description r.strength
  return [{ e with
    direction := if needed then .oneWay else .bothWays
    note := .criticalPath needed }]

/-- The edges of a feature: to the components that it owns. -/
def Feature.edges (f : Feature α) : List (Edge α) :=
  f.componentNames.map fun name =>
    .plain (.text f.id) (componentId (.text name)) .uses "contains" (Scalar.decimal 7 1)

def JourneyRelationshipKind.edge : JourneyRelationshipKind → Except Fault EdgeKind
  | leadsTo => .ok .navigatesTo
  | requires => .ok .requires
  | alternativeTo | extendsOther => .ok .extendsOther
  | other name => .error (.unknownRelationship name)

def JourneyRelationship.edges (r : JourneyRelationship) : Except Fault (List (Edge α)) := do
  let e := Edge.plain (.text r.source) (.text r.target) (← r.kind.edge) r.kind.name
    (Scalar.decimal 6 1)
  return [{ e with note := .condition r.condition }]

/-- The edges of a journey: to the components that it comes to. -/
def Journey.edges (j : Journey α) : List (Edge α) :=
  j.components.map fun name =>
    let e := Edge.plain (.text j.id) (componentId (.text name)) .uses "traverses"
      (Scalar.decimal 5 1)
    { e with style := { e.style with animated := some true } }

namespace Criticality

/-- The weight of an edge by how much hangs on it. -/
def weight : Criticality → α
  | critical => Scalar.decimal 10 1
  | high => Scalar.decimal 8 1
  | medium => Scalar.decimal 5 1
  | low | other _ => Scalar.decimal 3 1

def color : Criticality → String
  | critical => "#E74C3C"
  | high => "#F39C12"
  | low | medium | other _ => "#95A5A6"

end Criticality

namespace FlowEdge

/-- How wide an edge is drawn, by how much goes over it. -/
def width (f : FlowEdge) : Nat := (List.lookup f.volume [("high", 3), ("medium", 2)]).getD 1

/-- The edge of a transition. It keeps the id of the transition, if that has one. -/
def edge (f : FlowEdge) : Edge α :=
  let critical := f.criticality == .critical
  let e : Edge α := .plain (componentId (.text f.source)) (componentId (.text f.target)) .transforms
    f.operation f.criticality.weight
  { e with
    id := if f.id.isEmpty then e.id else f.id
    note := .flow f.data critical
    style := ⟨some f.width, some f.criticality.color, false, some critical⟩ }

end FlowEdge

/-- The edges of a rule: to the entities that it affects and to the components that enforce it. -/
def Rule.edges (r : Rule) : Except Fault (List (Edge α)) := do
  let validating ← Edge.toEach r.id entityId (fun rule entity =>
    ((Edge.plain rule entity .validates "validates" (Scalar.decimal 7 1)).colored
      "#E74C3C").dashed) r.entities
  let enforcing ← Edge.toEach r.id componentId (fun rule component =>
    Edge.plain rule component .implements "enforced by" (Scalar.decimal 8 1)) r.implementation
  return validating ++ enforcing

end BusinessAtlas
