import BusinessAtlas.Graph.Clusters
import BusinessAtlas.Graph.Layout
import BusinessAtlas.Graph.Scoring

/-!
# Building the graph

The graph is built in passes over the requirements, the feature map and the journey map: nodes of
each sort, edges of each sort, clusters, connections, statistics and places. A pass that stops
leaves what it added.
-/

namespace BusinessAtlas.Graph

variable {α β : Type} [Scalar α]

def start (settings : GraphSettings β) (now : Moment) : Graph α β :=
  ⟨settings.title, settings.description, now, .empty, [], .zero⟩

def inArena (f : Arena α β → Arena α β) (g : Graph α β) : Graph α β :=
  { g with arena := f g.arena }

def addNodes {ι : Type} (node : ι → Except Fault (Node α β)) (items : List ι) (g : Graph α β) :
    Progress (Graph α β) :=
  .each (fun g item => .step g do
    let n ← node item
    return g.inArena (·.addNode n)) g items

def addEdges {ι : Type} (edges : ι → Except Fault (List (Edge α))) (items : List ι)
    (g : Graph α β) : Progress (Graph α β) :=
  .each (fun g item => .step g do
    let es ← edges item
    return g.inArena (·.addEdges es)) g items

def addClusters {ι : Type} (cluster : Arena α β → ι → Except Fault (Option (Cluster α)))
    (items : List ι) (g : Graph α β) : Progress (Graph α β) :=
  .each (fun g item => .step g do
    match ← cluster g.arena item with
    | some c => return { g with clusters := g.clusters ++ [c] }
    | none => return g) g items

def addStories (stories : List (Story α)) : Graph α β → Progress (Graph α β) :=
  addNodes Node.ofStory stories

def addCapabilities (capabilities : List Capability) : Graph α β → Progress (Graph α β) :=
  addNodes Node.ofCapability capabilities

def addFeatures (features : List (Feature α)) : Graph α β → Progress (Graph α β) :=
  addNodes (fun f => .ok (Node.ofFeature f)) features

def addComponents (mappings : List Mapping) : Graph α β → Progress (Graph α β) :=
  addNodes (fun m => .ok (Node.ofMapping m)) mappings

def addEntities (entities : List Entity) : Graph α β → Progress (Graph α β) :=
  addNodes (fun e => .ok (Node.ofEntity e)) entities

def addJourneys (journeys : List (Journey α)) : Graph α β → Progress (Graph α β) :=
  addNodes (fun j => .ok (Node.ofJourney j)) journeys

def addRules (rules : List Rule) : Graph α β → Progress (Graph α β) := addNodes Node.ofRule rules

def addPersonas (personas : List Persona) : Graph α β → Progress (Graph α β) :=
  addNodes Node.ofPersona personas

def linkStories (c : Context α) : Graph α β → Progress (Graph α β) :=
  addEdges (Story.edges c.capabilities) c.stories

def linkCapabilities (c : Context α) : Graph α β → Progress (Graph α β) :=
  addEdges Capability.edges c.capabilities

/-- Links features by their relationships, then each to its components. -/
def linkFeatures (m : FeatureMap α) (g : Graph α β) : Progress (Graph α β) :=
  (addEdges Relationship.edges m.relationships g).andThen
    (addEdges (fun f => .ok f.edges) m.features)

/-- Links journeys by their relationships, then each to its components. -/
def linkJourneys (m : JourneyMap α) (g : Graph α β) : Progress (Graph α β) :=
  (addEdges JourneyRelationship.edges m.relationships g).andThen
    (addEdges (fun j => .ok j.edges) m.journeys)

def linkFlow (m : JourneyMap α) : Graph α β → Progress (Graph α β) :=
  addEdges (fun f => .ok [f.edge]) m.flow.edges

def linkRules (c : Context α) : Graph α β → Progress (Graph α β) := addEdges Rule.edges c.rules

def clusterDomains (domains : List Domain) : Graph α β → Progress (Graph α β) :=
  addClusters (fun a d => .ok (d.cluster a)) domains

def clusterFeatures (threshold : Json) (features : List (Feature α)) :
    Graph α β → Progress (Graph α β) :=
  addClusters (Feature.cluster threshold) features

def clusterJourneys (journeys : List (Journey α)) (g : Graph α β) : Graph α β :=
  { g with clusters := g.clusters ++ personaClusters journeys }

/-- Counts the connections of the nodes. -/
def connect (g : Graph α β) : Graph α β := g.inArena Arena.connected

def takeStatistics (g : Graph α β) : Graph α β := { g with statistics := g.counted }

/-- Puts the nodes into places, level by level. -/
def place [Coordinate β] (layout : Layout β) (g : Graph α β) : Progress (Graph α β) :=
  .each (fun g level => .step g do
    let nodes ← layout.placeLevel g.arena.nodes level
    return g.inArena fun a => { a with nodes }) g (List.range NodeKind.levels)

/-- What a graph is built from. -/
structure Sources (α : Type) where
  context : Context α
  features : FeatureMap α
  journeys : JourneyMap α

def addAllNodes (s : Sources α) (g : Graph α β) : Progress (Graph α β) :=
  (((((((addStories s.context.stories g).andThen
    (addCapabilities s.context.capabilities)).andThen
    (addFeatures s.features.features)).andThen
    (addComponents s.features.mappings)).andThen
    (addEntities s.context.entities)).andThen
    (addJourneys s.journeys.journeys)).andThen
    (addRules s.context.rules)).andThen
    (addPersonas s.context.personas)

def addAllEdges (s : Sources α) (g : Graph α β) : Progress (Graph α β) :=
  (((((linkStories s.context g).andThen
    (linkCapabilities s.context)).andThen
    (linkFeatures s.features)).andThen
    (linkJourneys s.journeys)).andThen
    (linkFlow s.journeys)).andThen
    (linkRules s.context)

def addAllClusters (threshold : Json) (s : Sources α) (g : Graph α β) : Progress (Graph α β) :=
  ((clusterDomains s.features.domains g).andThen
    (clusterFeatures threshold s.features.features)).andThen fun g =>
      .done (g.clusterJourneys s.journeys.journeys)

def build [Coordinate β] (settings : GraphSettings β) (now : Moment) (s : Sources α) :
    Progress (Graph α β) :=
  (((addAllNodes s (start settings now)).andThen (addAllEdges s)).andThen
    (addAllClusters settings.collapseThreshold s)).andThen fun g =>
      place settings.layout g.connect.takeStatistics

end BusinessAtlas.Graph
