import BusinessAtlas.Graph.Builder
import BusinessAtlas.Network.Community
import BusinessAtlas.Network.Coverage
import BusinessAtlas.Network.Cycle

/-!
# The atlas of a project

One run over the facts of a project: its features, its journeys, the graph that joins them with the
requirements, the network of that graph and, where it is asked for, all analyses of the network
together.
-/

namespace BusinessAtlas

/-- Everything that is found about a network. -/
structure Analysis where
  date : Moment
  nodes : Nat
  links : Nat
  density : Number
  parts : Nat
  centrality : List MeasureResult
  communities : CommunityReport
  cycles : CycleReport
  gaps : List Gap

def Network.analyse (n : Network Number) (now : Moment) : Except Fault Analysis := do
  let gaps ← n.gaps
  let g := n.digraph
  let centrality ← n.centrality
  let communities ← n.communities
  return ⟨now, n.nodes.length, n.links.length, g.density, g.parts, centrality, communities,
    n.cycleReport, gaps⟩

namespace Analysis

def totalGaps (a : Analysis) : Nat := a.gaps.length

def topBy (m : Measure) (a : Analysis) : List (Ident × Number) :=
  ((a.centrality.find? (·.measure == m)).map (·.top)).getD []

def toJson (a : Analysis) : Json :=
  .record [
    ("metadata", .record [("analysis_date", .text a.date.iso), ("num_nodes", .nat a.nodes),
      ("num_edges", .nat a.links), ("density", .number a.density),
      ("weakly_connected_components", .nat a.parts)]),
    ("centrality", centralityToJson a.centrality),
    ("communities", a.communities.toJson),
    ("cycles", a.cycles.toJson),
    ("coverage_gaps", gapsToJson a.gaps),
    ("coverage_gaps_summary", .record [("total_gaps", .nat a.totalGaps),
      ("by_type", .record ((gapCounts a.gaps).map fun c => (c.1.name, .nat c.2)))])]

end Analysis

namespace Graph

variable {α β : Type} [Scalar α] [Coordinate β]

/-- The features and journeys of a project, beside its requirements. -/
def Sources.ofProject (p : Project) (c : Context α) : Except Fault (Sources α) := do
  let features ← (FeatureMap.build p .bundled c.stories c.capabilities).toExcept
  let journeys ← (JourneyMap.build ⟨p, features.mappings, .bundled⟩).toExcept
  return ⟨c, features, journeys⟩

def ofProject (settings : GraphSettings β) (now : Moment) (p : Project) (c : Context α) :
    Except Fault (Graph α β) := do
  (build settings now (← Sources.ofProject p c)).toExcept

end Graph

/-- Everything that one run finds out about a project. -/
structure Atlas where
  sources : Graph.Sources Number
  graph : Graph Number Json
  network : Network Number
  analysis : Option Analysis

namespace Atlas

def make (config : Config) (now : Moment) (analyse : Bool) (p : Project) (c : Context Number) :
    Except Fault Atlas := do
  let sources ← Graph.Sources.ofProject p c
  let graph ← (Graph.build config.graphSettings now sources).toExcept
  let network ← Network.ofGraph graph
  let analysis ← if analyse then some <$> network.analyse now else pure none
  return ⟨sources, graph, network, analysis⟩

/-- The counts that are shown after a run. -/
def summary (a : Atlas) : Json :=
  .record [("components", .nat a.sources.features.mappings.length),
    ("features", .nat a.sources.features.features.length),
    ("domains", .nat a.sources.features.domains.length),
    ("journeys", .nat a.sources.journeys.journeys.length),
    ("patterns", .nat a.sources.journeys.patterns.length),
    ("statistics", a.graph.statistics.toJson)]

end Atlas

end BusinessAtlas
