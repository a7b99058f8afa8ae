import BusinessAtlas.Network.Basic

/-!
# Numbered graphs

The nodes of a network by number, in their order, for the algorithms that only need to know which
node is next to which. Neighbours are in the order in which their links were made.
-/

namespace BusinessAtlas

/-- A directed graph on the numbers below `size`. -/
structure Digraph where
  size : Nat
  successors : Array (List Nat)
  predecessors : Array (List Nat)

namespace Digraph

/-- A list of neighbours, longer by one at `v`. -/
def attach (lists : Array (List Nat)) (v w : Nat) : Array (List Nat) :=
  lists.modify v (· ++ [w])

def ofEdges (size : Nat) (edges : List (Nat × Nat)) : Digraph where
  size
  successors := edges.foldl (fun lists e => attach lists e.1 e.2) (Array.replicate size [])
  predecessors := edges.foldl (fun lists e => attach lists e.2 e.1) (Array.replicate size [])

def next (g : Digraph) (v : Nat) : List Nat := g.successors.getD v []

def previous (g : Digraph) (v : Nat) : List Nat := g.predecessors.getD v []

def nodes (g : Digraph) : List Nat := List.range g.size

/-- The number of edges that leave a node. -/
def outDegree (g : Digraph) (v : Nat) : Nat := (g.next v).length

/-- The number of edges that enter a node. -/
def inDegree (g : Digraph) (v : Nat) : Nat := (g.previous v).length

def edgeCount (g : Digraph) : Nat := totalOf (g.nodes.map g.outDegree)

end Digraph

/-- An undirected graph on the numbers below `size`, with the weights of its edges. An edge of a
node to itself is in the list of its neighbours once. -/
structure Undirected where
  size : Nat
  edges : List ((Nat × Nat) × Number)
  neighbours : Array (List Nat)

namespace Undirected

/-- Whether an edge joins two nodes, in either direction. -/
def joins (u v : Nat) (e : (Nat × Nat) × Number) : Bool := e.1 == (u, v) || e.1 == (v, u)

/-- The edges with the weight of one set, which comes last if it is new. -/
def putEdge (u v : Nat) (weight : Number) :
    List ((Nat × Nat) × Number) → List ((Nat × Nat) × Number)
  | [] => [((u, v), weight)]
  | e :: rest => if joins u v e then (e.1, weight) :: rest else e :: putEdge u v weight rest

/-- The edges of directed edges with their directions forgotten; of two opposite edges the later one
gives the weight. -/
def mergeEdges (edges : List ((Nat × Nat) × Number)) : List ((Nat × Nat) × Number) :=
  edges.foldl (fun merged e => putEdge e.1.1 e.1.2 e.2 merged) []

/-- The graph of directed edges with their directions forgotten. -/
def ofEdges (size : Nat) (edges : List ((Nat × Nat) × Number)) : Undirected :=
  let merged := mergeEdges edges
  { size
    edges := merged
    neighbours := merged.foldl (fun lists e =>
      let lists := Digraph.attach lists e.1.1 e.1.2
      if e.1.1 == e.1.2 then lists else Digraph.attach lists e.1.2 e.1.1)
      (Array.replicate size []) }

def next (g : Undirected) (v : Nat) : List Nat := g.neighbours.getD v []

def nodes (g : Undirected) : List Nat := List.range g.size

def degree (g : Undirected) (v : Nat) : Nat := (g.next v).length + (g.next v).count v

end Undirected

namespace Network

variable {α : Type}

def number (n : Network α) (id : Ident) : Nat := n.nodes.findIdx (·.id.same id)

def idAt (n : Network α) (v : Nat) : Ident := ((n.nodes[v]?).map (·.id)).getD .null

def ends (n : Network α) (l : Link α) : Nat × Nat := (n.number l.source, n.number l.target)

def digraph (n : Network α) : Digraph := .ofEdges n.nodes.length (n.links.map n.ends)

/-- The numbered graph of a network with the directions of its links forgotten, taken source by
source. -/
def undirected (n : Network Number) : Undirected :=
  .ofEdges n.nodes.length
    ((n.nodes.flatMap fun v => n.links.filter (·.source.same v.id)).map fun l =>
      (n.ends l, l.weight))

end Network

end BusinessAtlas
