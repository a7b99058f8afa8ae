import BusinessAtlas.Graph.Build
import BusinessAtlas.Journey.Json
import BusinessAtlas.Json.Printer

/-!
# The graph builder

The graph is exported in three formats: a full record, elements for one drawing tool, and nodes with
links for another. All show the same nodes and edges in the same order. A builder keeps the graph of
its last build for as many exports as are asked for. The graph is kept from the moment the build
starts, so a build that stops leaves what it had made.
-/

namespace BusinessAtlas

def NodeData.toJson : NodeData Number → Json
  | record value => value
  | feature value => value.toJson
  | mapping value => value.toJson
  | journey value => value.toJson

def NodeMetrics.toJson (m : NodeMetrics Number) : Json :=
  .record [("importance", .number m.importance), ("complexity", .number m.complexity),
    ("connectivity", .nat m.connectivity), ("business_value", .number m.value)]

def Position.toJson (p : Position Json) : Json := .record [("x", p.x), ("y", p.y)]

def EdgeNote.toJson : EdgeNote Number → Json
  | plain => .record []
  | confidence value => .record [("confidence", .number value)]
  | criticalPath value => .record [("critical_path", .bool value)]
  | condition text => .record [("business_rule", .text text)]
  | flow data critical => .record [("data_flow", .text data), ("critical_path", .bool critical)]

def EdgeStyle.toJson (s : EdgeStyle) : Json :=
  .record ((s.width.map fun n => ("stroke_width", .nat n)).toList
    ++ (s.color.map fun c => ("stroke_color", .text c)).toList
    ++ (if s.dashed then [("dashed", .bool true)] else [])
    ++ (s.animated.map fun b => ("animated", .bool b)).toList)

def Edge.toJson (e : Edge Number) : Json :=
  .record [("id", .text e.id), ("source", e.source.toJson), ("target", e.target.toJson),
    ("type", .text e.kind.name), ("label", .text e.label), ("weight", .number e.weight),
    ("direction", .text e.direction.name), ("metadata", e.note.toJson), ("style", e.style.toJson)]

def Cluster.toJson (c : Cluster Number) : Json :=
  .record [("id", .text c.id), ("name", .text c.name), ("type", .text c.kind.name),
    ("nodes", .list (c.nodes.map Ident.toJson)), ("color", .text c.color),
    ("collapsed", .bool c.collapsed),
    ("metadata", .record [("business_value", .number c.value), ("complexity", .number c.complexity),
      ("completeness", .number c.completeness), ("risk_level", .text c.risk.name)])]

def Statistics.toJson (s : Statistics Number) : Json :=
  .record [("total_nodes", .nat s.nodes), ("total_edges", .nat s.edges),
    ("nodes_by_type", .record (s.nodesByKind.map fun c => (c.1.name, .nat c.2))),
    ("edges_by_type", .record (s.edgesByKind.map fun c => (c.1.name, .nat c.2))),
    ("avg_connectivity", .number s.averageConnectivity), ("graph_density", .number s.density),
    ("clusters", .nat s.clusters), ("isolated_nodes", .nat s.isolated)]

/-- The formats that a graph can be exported in. -/
inductive ExportFormat where
  | json
  | cytoscape
  | d3
  deriving DecidableEq

namespace ExportFormat

def all : List ExportFormat := [json, cytoscape, d3]

def name : ExportFormat → String
  | json => "json"
  | cytoscape => "cytoscape"
  | d3 => "d3"

/-- The formats that settings may name and that cannot be exported. -/
def planned : List String := ["graphml", "gexf", "vis"]

def ofJson (v : Json) : Except Fault ExportFormat :=
  match v with
  | .text s =>
    match all.find? (·.name == s) with
    | some f => .ok f
    | none => .error (if planned.contains s then .unsupportedFormat s else .unknownFormat s)
  | v => .error (.unknownFormat v.shown)

end ExportFormat

/-- How a graph is exported. -/
structure ExportOptions where
  format : Json
  metadata : Bool
  positions : Bool
  pretty : Bool

/-- The part of an exported record that is there only if it is asked for. -/
def when (asked : Bool) (fields : List (String × Json)) : List (String × Json) :=
  if asked then fields else []

theorem forall_when {P : String × Json → Prop} {asked : Bool} {fields : List (String × Json)}
    (h : ∀ f ∈ fields, P f) : ∀ f ∈ when asked fields, P f := by
  cases asked with
  | true => exact h
  | false => exact nofun

namespace Node

/-- The place of a node, if places are asked for and it has one. -/
def shownPosition (positions : Bool) (n : Node Number Json) : Option (Position Json) :=
  if positions then n.position else none

def positionField (positions : Bool) (n : Node Number Json) : List (String × Json) :=
  ((n.shownPosition positions).map fun p => ("position", p.toJson)).toList

def toRecord (metadata positions : Bool) (n : Node Number Json) : Json :=
  .record ([("id", n.id.toJson), ("type", .text n.kind.name), ("label", n.label),
      ("description", n.description), ("color", .text n.color), ("icon", .text n.kind.icon),
      ("tags", .list n.tags)]
    ++ when metadata [("data", n.data.toJson), ("metrics", n.metrics.toJson)]
    ++ n.positionField positions)

def toElement (metadata positions : Bool) (n : Node Number Json) : Json :=
  .record ([("data", .record ([("id", n.id.toJson), ("label", n.label),
        ("type", .text n.kind.name)] ++ when metadata [("metrics", n.metrics.toJson)])),
      ("classes", .text n.kind.name)]
    ++ n.positionField positions)

/-- The size at which a node is drawn: its importance, and a middling size where that is zero. -/
def size (n : Node Number Json) : Number :=
  if n.metrics.importance.isZero then .int 50 else n.metrics.importance

def toPoint (positions : Bool) (n : Node Number Json) : Json :=
  .record ([("id", n.id.toJson), ("label", n.label), ("group", .text n.kind.name),
      ("value", .number n.size)]
    ++ match n.shownPosition positions with
      | some p => [("x", p.x), ("y", p.y)]
      | none => [])

end Node

namespace Edge

def toElement (e : Edge Number) : Json :=
  .record [("data", .record [("id", .text e.id), ("source", e.source.toJson),
      ("target", e.target.toJson), ("label", .text e.label), ("type", .text e.kind.name),
      ("weight", .number e.weight)]),
    ("classes", .text e.kind.name)]

def toLink (e : Edge Number) : Json :=
  .record [("source", e.source.toJson), ("target", e.target.toJson), ("value", .number e.weight),
    ("type", .text e.kind.name)]

end Edge

namespace Graph

/-- What is said about the graph as a whole. -/
def about (g : Graph Number Json) : Json :=
  .record [("title", g.title), ("description", g.description),
    ("generated_at", .text g.generatedAt.isoWithOffset), ("statistics", g.statistics.toJson),
    ("view_options", viewOptions), ("legend", legend)]

def toRecord (metadata positions : Bool) (g : Graph Number Json) : Json :=
  .record ([("nodes", .list (g.arena.nodes.map (Node.toRecord metadata positions))),
      ("edges", .list (g.arena.edges.map Edge.toJson))]
    ++ when metadata [("clusters", .list (g.clusters.map Cluster.toJson)), ("metadata", g.about)])

/-- The drawing elements of a graph: the nodes, then the edges. -/
def toElements (metadata positions : Bool) (g : Graph Number Json) : Json :=
  .record [("elements", .list (g.arena.nodes.map (Node.toElement metadata positions)
    ++ g.arena.edges.map Edge.toElement))]

def toLinks (positions : Bool) (g : Graph Number Json) : Json :=
  .record [("nodes", .list (g.arena.nodes.map (Node.toPoint positions))),
    ("links", .list (g.arena.edges.map Edge.toLink))]

def exported (format : ExportFormat) (metadata positions : Bool) (g : Graph Number Json) : Json :=
  match format with
  | .json => g.toRecord metadata positions
  | .cytoscape => g.toElements metadata positions
  | .d3 => g.toLinks positions

end Graph

namespace ExportOptions

def apply (o : ExportOptions) (last : Option (Graph Number Json)) : Except Fault Json :=
  match last with
  | none => .error .nothingBuilt
  | some g => do return g.exported (← ExportFormat.ofJson o.format) o.metadata o.positions

def text (o : ExportOptions) (last : Option (Graph Number Json)) : Except Fault String := do
  return (← o.apply last).render o.pretty

end ExportOptions

/-- The settings of a builder and the graph that it keeps. -/
structure GraphBuilder where
  settings : GraphSettings Json
  graph : Option (Graph Number Json)

namespace GraphBuilder

/-- What a builder can be asked for. -/
inductive Call where
  | build (now : Moment) (sources : Graph.Sources Number)
  | exportAs (options : ExportOptions)

inductive Answer where
  | built (graph : Graph Number Json)
  | exported (value : Json)

def fresh (settings : GraphSettings Json) : GraphBuilder := ⟨settings, none⟩

def build (b : GraphBuilder) (now : Moment) (s : Graph.Sources Number) :
    Except Fault (Graph Number Json) × GraphBuilder :=
  let reached := Graph.build b.settings now s
  (reached.toExcept, { b with graph := some reached.state })

def exported (b : GraphBuilder) (o : ExportOptions) : Except Fault Json := o.apply b.graph

def call (b : GraphBuilder) : Call → Except Fault Answer × GraphBuilder
  | .build now s => ((b.build now s).1.map .built, (b.build now s).2)
  | .exportAs o => ((b.exported o).map .exported, b)

/-- The answers to some calls, one after the other, and the builder after them. -/
def run (b : GraphBuilder) : List Call → List (Except Fault Answer) × GraphBuilder
  | [] => ([], b)
  | c :: rest =>
    let (answer, b) := b.call c
    let (answers, b) := b.run rest
    (answer :: answers, b)

end GraphBuilder

end BusinessAtlas
