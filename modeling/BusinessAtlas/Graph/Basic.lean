import BusinessAtlas.Clock
import BusinessAtlas.Config.Settings
import BusinessAtlas.Facts.Context
import BusinessAtlas.Feature.Basic
import BusinessAtlas.Graph.Kind
import BusinessAtlas.Journey.Basic

/-!
# The business graph

Everything that is known about a project as one graph. Scores are of a type `α` and coordinates of a
type `β`, so that the same graph can be computed with the numbers that files show and read exactly.

A node is added unless its id is taken. An edge is added if both its ends are there and no edge with
its key is: of several edges with one key the first one counts, and an edge that came too early may
be offered again.
-/

namespace BusinessAtlas

/-- What a node stands for. -/
inductive NodeData (α : Type) where
  | record (value : Json)
  | feature (value : Feature α)
  | mapping (value : Mapping)
  | journey (value : Journey α)

/-- The scores of a node. -/
structure NodeMetrics (α : Type) where
  importance : α
  complexity : α
  connectivity : Nat
  value : α

/-- A place in the drawing. -/
structure Position (β : Type) where
  x : β
  y : β

/-- A node of the graph. -/
structure Node (α β : Type) where
  id : Ident
  kind : NodeKind
  label : Json
  description : Json
  data : NodeData α
  position : Option (Position β)
  color : String
  metrics : NodeMetrics α
  tags : List Json

/-- Whether an edge is read in one direction or in both. -/
inductive Direction where
  | oneWay
  | bothWays
  deriving DecidableEq

def Direction.name : Direction → String
  | oneWay => "unidirectional"
  | bothWays => "bidirectional"

/-- What is noted about an edge. -/
inductive EdgeNote (α : Type) where
  | plain
  | confidence (value : α)
  | criticalPath (value : Bool)
  | condition (text : String)
  | flow (data : String) (critical : Bool)

/-- How an edge is drawn, where it differs from the default. -/
structure EdgeStyle where
  width : Option Nat
  color : Option String
  dashed : Bool
  animated : Option Bool

/-- An edge that is drawn like any other. -/
def EdgeStyle.plain : EdgeStyle := ⟨none, none, false, none⟩

/-- An edge of the graph. -/
structure Edge (α : Type) where
  id : String
  source : Ident
  target : Ident
  kind : EdgeKind
  label : String
  weight : α
  direction : Direction
  note : EdgeNote α
  style : EdgeStyle

/-- What tells edges apart. -/
structure EdgeKey where
  source : Key
  target : Key
  kind : EdgeKind
  deriving DecidableEq

def Edge.key {α : Type} (e : Edge α) : EdgeKey := ⟨e.source.key, e.target.key, e.kind⟩

/-- How likely a cluster is to cause trouble. -/
inductive Risk where
  | low
  | medium
  | high
  deriving DecidableEq

def Risk.name : Risk → String
  | low => "low"
  | medium => "medium"
  | high => "high"

/-- What nodes of a cluster have in common. -/
inductive ClusterKind where
  | domain
  | feature
  | journey
  deriving DecidableEq

def ClusterKind.name : ClusterKind → String
  | domain => "domain"
  | feature => "feature"
  | journey => "journey"

/-- A group of nodes. -/
structure Cluster (α : Type) where
  id : String
  name : String
  kind : ClusterKind
  nodes : List Ident
  color : String
  collapsed : Bool
  value : α
  complexity : α
  completeness : α
  risk : Risk

/-- The counts of a graph. -/
structure Statistics (α : Type) where
  nodes : Nat
  edges : Nat
  nodesByKind : List (NodeKind × Nat)
  edgesByKind : List (EdgeKind × Nat)
  averageConnectivity : α
  density : α
  clusters : Nat
  isolated : Nat

/-- The counts of a graph before anything is counted. -/
def Statistics.zero {α : Type} [Scalar α] : Statistics α :=
  ⟨0, 0, [], [], Scalar.decimal 0 1, Scalar.decimal 0 1, 0, 0⟩

/-- The nodes and edges of a graph in the order in which they were added, and the maps by which they
are found: where the node with a key and the edge with a key stand. A node that changes keeps its
place. -/
structure Arena (α β : Type) where
  nodes : List (Node α β)
  edges : List (Edge α)
  nodeSlots : List (Key × Nat)
  edgeSlots : List (EdgeKey × Nat)

/-- The business graph. -/
structure Graph (α β : Type) where
  title : Json
  description : Json
  generatedAt : Moment
  arena : Arena α β
  clusters : List (Cluster α)
  statistics : Statistics α

/-- The settings by which a graph is made. -/
structure GraphSettings (β : Type) where
  title : Json
  description : Json
  layout : Layout β
  collapseThreshold : Json

/-- The part of the settings that a graph needs. -/
def Config.graphSettings (c : Config) : GraphSettings Json :=
  ⟨c.title, c.description, c.layout, c.collapseThreshold⟩

namespace Graph

variable {α β : Type}

def node? (id : Ident) (g : Graph α β) : Option (Node α β) :=
  g.arena.nodes.find? (·.id.same id)

def edgesFrom (id : Ident) (g : Graph α β) : List (Edge α) :=
  g.arena.edges.filter (·.source.same id)

end Graph

end BusinessAtlas

namespace BusinessAtlas.Arena

variable {α β : Type}

def empty : Arena α β := ⟨[], [], [], []⟩

/-- Whether there is a node with the key. -/
def hasKey (key : Key) (a : Arena α β) : Bool := (a.nodeSlots.lookup key).isSome

/-- Whether there is a node with the id. -/
def has (id : Ident) (a : Arena α β) : Bool := a.hasKey id.key

def node? (id : Ident) (a : Arena α β) : Option (Node α β) := do
  a.nodes[← a.nodeSlots.lookup id.key]?

def hasEdge (key : EdgeKey) (a : Arena α β) : Bool := (a.edgeSlots.lookup key).isSome

def admitsNode (n : Node α β) (a : Arena α β) : Bool := !a.has n.id

def admitsEdge (e : Edge α) (a : Arena α β) : Bool :=
  a.has e.source && a.has e.target && !a.hasEdge e.key

def putNode (a : Arena α β) (n : Node α β) : Arena α β :=
  { a with nodes := a.nodes ++ [n], nodeSlots := (n.id.key, a.nodes.length) :: a.nodeSlots }

def putEdge (a : Arena α β) (e : Edge α) : Arena α β :=
  { a with edges := a.edges ++ [e], edgeSlots := (e.key, a.edges.length) :: a.edgeSlots }

def addNode (a : Arena α β) (n : Node α β) : Arena α β := if a.admitsNode n then a.putNode n else a

def addEdge (a : Arena α β) (e : Edge α) : Arena α β := if a.admitsEdge e then a.putEdge e else a

@[simp] theorem addNode_edges (a : Arena α β) (n : Node α β) : (a.addNode n).edges = a.edges := by
  unfold addNode putNode; split <;> rfl

@[simp] theorem addEdge_nodes (a : Arena α β) (e : Edge α) : (a.addEdge e).nodes = a.nodes := by
  unfold addEdge putEdge; split <;> rfl

def addNodes (a : Arena α β) (ns : List (Node α β)) : Arena α β := ns.foldl addNode a

def addEdges (a : Arena α β) (es : List (Edge α)) : Arena α β := es.foldl addEdge a

@[simp] theorem addEdges_nodes (a : Arena α β) (es : List (Edge α)) :
    (a.addEdges es).nodes = a.nodes := by
  induction es generalizing a with
  | nil => rfl
  | cons e rest ih => exact (ih (a.addEdge e)).trans (a.addEdge_nodes e)

end BusinessAtlas.Arena
