import BusinessAtlas.Graph.Builder

/-!
# Networks

The business graph seen as a simple directed graph: edges of different kinds between the same two
nodes become one link, which keeps all kinds and the largest weight. A link may mention a node that
the graph does not have; such a node has no attributes.
-/

namespace BusinessAtlas

/-- What is known about a node of a network. -/
structure NodeAttributes (α : Type) where
  kind : NodeKind
  label : Json
  importance : α
  connectivity : Nat

/-- A node of a network. -/
structure NetworkNode (α : Type) where
  id : Ident
  attributes : Option (NodeAttributes α)

/-- A link of a network. -/
structure Link (α : Type) where
  source : Ident
  target : Ident
  kinds : List EdgeKind
  weight : α
  label : String

/-- A simple directed graph. Links are in the order in which they were first made. -/
structure Network (α : Type) where
  nodes : List (NetworkNode α)
  links : List (Link α)

namespace NetworkNode

variable {α : Type}

def isOfKind (kind : NodeKind) (n : NetworkNode α) : Bool :=
  n.attributes.any (·.kind == kind)

def label (n : NetworkNode α) : Except Fault Json :=
  match n.attributes with
  | some a => .ok a.label
  | none => .error .unlabelled

end NetworkNode

namespace Network

variable {α β : Type} [Scalar α]

/-- Whether there is a node with the key. -/
def has (key : Key) (n : Network α) : Bool := n.nodes.any (·.id.key == key)

/-- The nodes with the attributes of one set, which comes last if it is new. -/
def putNode (id : Ident) (attributes : NodeAttributes α) :
    List (NetworkNode α) → List (NetworkNode α)
  | [] => [⟨id, some attributes⟩]
  | n :: rest =>
    if n.id.same id then { n with attributes := some attributes } :: rest
    else n :: putNode id attributes rest

def checkNode : Ident → Except Fault Unit
  | .null => .error .nullNode
  | _ => .ok ()

def addNode (n : Network α) (node : Node α β) : Except Fault (Network α) := do
  checkNode node.id
  let attributes : NodeAttributes α :=
    ⟨node.kind, node.label, node.metrics.importance, node.metrics.connectivity⟩
  return { n with nodes := putNode node.id attributes n.nodes }

/-- The network with a node that may be there already. -/
def mention (n : Network α) (id : Ident) : Network α :=
  if n.has id.key then n else { n with nodes := n.nodes ++ [⟨id, none⟩] }

def Link.joins (l : Link α) (e : Edge α) : Bool :=
  l.source.same e.source && l.target.same e.target

/-- A link that stands for one more edge. -/
def Link.merge (l : Link α) (e : Edge α) : Link α :=
  { l with kinds := l.kinds ++ [e.kind], weight := Scalar.larger l.weight e.weight }

/-- The links with one more edge: merged into the link of its ends, or as a new link. -/
def putLink (e : Edge α) : List (Link α) → List (Link α)
  | [] => [⟨e.source, e.target, [e.kind], e.weight, e.label⟩]
  | l :: rest => if Link.joins l e then Link.merge l e :: rest else l :: putLink e rest

def addEdge (n : Network α) (e : Edge α) : Except Fault (Network α) := do
  checkNode e.source
  checkNode e.target
  let n := (n.mention e.source).mention e.target
  return { n with links := putLink e n.links }

def ofLists (nodes : List (Node α β)) (edges : List (Edge α)) : Except Fault (Network α) := do
  edges.foldlM addEdge (← nodes.foldlM addNode ⟨[], []⟩)

def ofGraph (g : Graph α β) : Except Fault (Network α) := ofLists g.arena.nodes g.arena.edges

def linksFrom (n : Network α) (id : Ident) : List (Link α) := n.links.filter (·.source.same id)

def linksTo (n : Network α) (id : Ident) : List (Link α) := n.links.filter (·.target.same id)

def node? (n : Network α) (id : Ident) : Option (NetworkNode α) := n.nodes.find? (·.id.same id)

end Network

namespace NetworkNode

def toJson (n : NetworkNode Number) : Json :=
  .record ((match n.attributes with
    | some a => [("type", .text a.kind.name), ("label", a.label),
        ("importance", .number a.importance), ("connectivity", .nat a.connectivity)]
    | none => []) ++ [("id", n.id.toJson)])

end NetworkNode

def Link.toJson (l : Link Number) : Json :=
  .record [("types", .texts (l.kinds.map EdgeKind.name)), ("weight", .number l.weight),
    ("label", .text l.label), ("source", l.source.toJson), ("target", l.target.toJson)]

/-- A network as lists of its nodes and links; the links are in the order of their sources. -/
def Network.toJson (n : Network Number) : Json :=
  .record [("directed", .bool true), ("multigraph", .bool false), ("graph", .record []),
    ("nodes", .list (n.nodes.map NetworkNode.toJson)),
    ("edges", .list ((n.nodes.flatMap fun v => n.linksFrom v.id).map Link.toJson))]

end BusinessAtlas
