import BusinessAtlas.Journey.Map

/-!
# Journeys as values

The records in which journeys are written to files.
-/

namespace BusinessAtlas

def DataOperation.toJson (o : DataOperation) : Json :=
  .record [("operation", .text? o.operation), ("entity", .text? o.entity),
    ("attributes", .texts o.attributes), ("conditions", .texts o.conditions),
    ("transformations", .texts o.transformations)]

def Json.number? : Option Number → Json
  | some n => .number n
  | none => .null

def Step.toJson (s : Step Number) : Json :=
  .record [("id", .text s.id), ("order", .number s.order), ("type", .text s.kind.name),
    ("description", .text s.description), ("component", .text s.component),
    ("user_action", .text s.action), ("system_response", .text s.response),
    ("data_transformation", (s.operation.map DataOperation.toJson).getD .null),
    ("next_steps", .texts s.next), ("duration", .number? s.duration)]

def Trigger.toJson (t : Trigger) : Json :=
  .record [("type", .text t.kind), ("description", .text t.description),
    ("component", .text t.component), ("preconditions", .texts t.preconditions)]

def DataPoint.toJson (d : DataPoint) : Json :=
  .record [("name", d.kind), ("type", d.kind), ("source", .text d.source), ("validation", .list []),
    ("required", .bool d.required)]

def StepData.toJson (d : StepData) : Json :=
  .record [("step_id", .text d.step), ("data_in", .list (d.incoming.map DataPoint.toJson)),
    ("processing", .texts d.processing), ("data_out", .list (d.outgoing.map DataPoint.toJson)),
    ("side_effects", .texts d.sideEffects)]

def Outcome.toJson (o : Outcome) : Json :=
  .record [("type", .text o.kind), ("description", .text o.description),
    ("business_impact", .text o.impact), ("technical_result", .text o.result),
    ("measurable_metrics", .texts o.measures)]

def Detour.toJson (d : Detour Number) : Json :=
  .record [("id", .text d.id), ("condition", .text d.condition),
    ("description", .text d.description), ("from_step", .text d.origin),
    ("to_step", .text d.destination), ("probability", .number d.probability),
    ("steps", .list (d.steps.map Step.toJson))]

def JourneyMetrics.toJson (m : JourneyMetrics Number) : Json :=
  .record [("estimated_duration", .number m.duration), ("complexity", .number m.complexity),
    ("user_effort", .nat m.effort), ("system_load", .nat m.load),
    ("data_points", .nat m.dataPoints), ("decision_points", .nat m.decisions),
    ("integration_points", .nat m.integrations)]

def Journey.toJson (j : Journey Number) : Json :=
  .record [("id", .text j.id), ("name", .text j.name), ("persona", .text j.persona),
    ("goal", .text? j.goal), ("trigger", j.trigger.toJson),
    ("steps", .list (j.steps.map Step.toJson)), ("data_flow", .list (j.data.map StepData.toJson)),
    ("outcomes", .list (j.outcomes.map Outcome.toJson)),
    ("alternative_paths", .list (j.detours.map Detour.toJson)), ("metrics", j.metrics.toJson),
    ("business_value", .text? j.value)]

def JourneyRelationship.toJson (r : JourneyRelationship) : Json :=
  .record [("source", .text r.source), ("target", .text r.target),
    ("relationship_type", .text r.kind.name), ("condition", .text r.condition)]

def StepPattern.toJson (p : StepPattern) : Json :=
  .record [("id", .text p.id), ("name", .text p.name), ("description", .text p.description),
    ("occurrences", .texts p.occurrences),
    ("pattern_steps", .list (p.steps.map fun s =>
      .record [("type", .text s.kind), ("common_components", .list []),
        ("data_pattern", .text s.data), ("frequency", .nat s.frequency)])),
    ("business_purpose", .text p.purpose)]

def FlowNode.toJson (n : FlowNode) : Json :=
  .record [("id", .text n.name), ("type", .text "component"), ("name", .text n.name),
    ("data_operations", .list (n.operations.map DataOperation.toJson)),
    ("journey_references", .texts n.journeys)]

def FlowEdge.toJson (e : FlowEdge) : Json :=
  .record [("id", .text e.id), ("source", .text e.source), ("target", .text e.target),
    ("data_type", .text e.data), ("operation", .text e.operation), ("volume", .text e.volume),
    ("criticality", .text e.criticality.name)]

def FlowCluster.toJson (c : FlowCluster) : Json :=
  .record [("id", .text c.id), ("name", .text c.name), ("nodes", .texts c.nodes),
    ("purpose", .text c.purpose), ("data_consistency_requirements", .texts c.requirements)]

def FlowGraph.toJson (g : FlowGraph) : Json :=
  .record [("nodes", .list (g.nodes.map FlowNode.toJson)),
    ("edges", .list (g.edges.map FlowEdge.toJson)),
    ("clusters", .list (g.clusters.map FlowCluster.toJson))]

def JourneyMap.toJson (m : JourneyMap Number) : Json :=
  .record [("journeys", .list (m.journeys.map Journey.toJson)),
    ("journey_relationships", .list (m.relationships.map JourneyRelationship.toJson)),
    ("common_patterns", .list (m.patterns.map StepPattern.toJson)),
    ("data_flow_graph", m.flow.toJson)]

end BusinessAtlas
