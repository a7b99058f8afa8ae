import BusinessAtlas.Json.Printer
import BusinessAtlas.Network.Digraph

/-!
# Centrality

How central a node is: by its links, by how many shortest paths lead through it, and by how near
the nodes are from which it can be reached.
-/

namespace BusinessAtlas

/-- A search from one node, breadth first: distances, numbers of shortest paths and the nodes before
each node on them. Visited nodes are listed from the last to the first. -/
structure Search where
  distance : Array (Option Nat)
  paths : Array Float
  before : Array (List Nat)
  visited : List Nat
  queue : List Nat

namespace Search

/-- A search that has only seen its source. -/
def start (size source : Nat) : Search where
  distance := (Array.replicate size none).setIfInBounds source (some 0)
  paths := (Array.replicate size 0).setIfInBounds source 1
  before := Array.replicate size []
  visited := []
  queue := [source]

/-- The distance of a node, if it was seen. -/
def distanceOf (s : Search) (v : Nat) : Option Nat := s.distance.getD v none

/-- The number of shortest paths to a node. -/
def pathsTo (s : Search) (v : Nat) : Float := s.paths.getD v 0

/-- Sees `w` from `v`, which is at distance `d`. -/
def see (v d : Nat) (s : Search) (w : Nat) : Search :=
  let s := match s.distanceOf w with
    | some _ => s
    | none => { s with
        distance := s.distance.setIfInBounds w (some (d + 1))
        queue := s.queue ++ [w] }
  if s.distanceOf w == some (d + 1) then
    { s with
      paths := s.paths.setIfInBounds w (s.pathsTo w + s.pathsTo v)
      before := s.before.modify w (· ++ [v]) }
  else s

/-- Visits the nodes of the queue. A node is queued once, so as many rounds as there are nodes are
enough. -/
def run (next : Nat → List Nat) : Nat → Search → Search
  | 0, s => s
  | rounds + 1, s =>
    match s.queue with
    | [] => s
    | v :: queue =>
      run next rounds ((next v).foldl (see v ((s.distanceOf v).getD 0))
        { s with visited := v :: s.visited, queue })

def ofSource (next : Nat → List Nat) (size source : Nat) : Search :=
  run next size (start size source)

/-- How much of the shortest paths from the source depends on each node. -/
def dependencies (s : Search) : Array Float :=
  s.visited.foldl (fun delta w =>
    let part := (1 + delta.getD w 0) / s.pathsTo w
    (s.before.getD w []).foldl (fun delta v =>
      delta.setIfInBounds v (delta.getD v 0 + s.pathsTo v * part)) delta)
    (Array.replicate s.distance.size 0)

end Search

namespace Digraph

/-- A degree in proportion to the other nodes. -/
def relativeDegree (g : Digraph) (degree : Nat) : Number :=
  if g.size ≤ 1 then .int 1
  else .float (Float.ofNat degree * (1 / Float.ofNat (g.size - 1)))

/-- The part of the shortest paths that lead through each node. -/
def betweenness (g : Digraph) : Array Float :=
  let total := g.nodes.foldl (fun (total : Array Float) source =>
    let s := Search.ofSource g.next g.size source
    let delta := s.dependencies
    s.visited.foldl (fun total w =>
      if w == source then total
      else total.setIfInBounds w (total.getD w 0 + delta.getD w 0)) total)
    (Array.replicate g.size 0)
  if g.size < 3 then total
  else
    let scale := 1 / Float.ofNat ((g.size - 1) * (g.size - 2))
    total.map (· * scale)

/-- How near the nodes are from which a node can be reached. -/
def closeness (g : Digraph) (v : Nat) : Float :=
  let s := Search.ofSource g.previous g.size v
  let total := totalOf (s.visited.map fun w => (s.distanceOf w).getD 0)
  if total == 0 || g.size ≤ 1 then 0
  else
    let others := Float.ofNat s.visited.length - 1
    others / Float.ofNat total * (others / Float.ofNat (g.size - 1))

/-- The edges in proportion to the pairs of nodes. -/
def density (g : Digraph) : Number :=
  if g.edgeCount == 0 || g.size ≤ 1 then .int 0
  else (Number.int g.edgeCount).div (.int (g.size * (g.size - 1) : Nat))

end Digraph

/-- The measures of centrality. -/
inductive Measure where
  | degree
  | betweenness
  | closeness
  | inDegree
  | outDegree
  deriving DecidableEq

namespace Measure

def all : List Measure := [degree, betweenness, closeness, inDegree, outDegree]

def name : Measure → String
  | degree => "degree_centrality"
  | betweenness => "betweenness_centrality"
  | closeness => "closeness_centrality"
  | inDegree => "in_degree_centrality"
  | outDegree => "out_degree_centrality"

/-- The measure of every node, in their order. -/
def scores (g : Digraph) : Measure → List Number
  | degree => g.nodes.map fun v => g.relativeDegree (g.inDegree v + g.outDegree v)
  | betweenness => g.betweenness.toList.map .float
  | closeness => g.nodes.map fun v => .float (g.closeness v)
  | inDegree => g.nodes.map fun v => g.relativeDegree (g.inDegree v)
  | outDegree => g.nodes.map fun v => g.relativeDegree (g.outDegree v)

end Measure

/-- The kinds of id that have an order of their own. -/
inductive IdentSort where
  | text
  | number
  | null
  deriving DecidableEq

namespace Ident

def sort : Ident → IdentSort
  | .text _ => .text
  | .bool _ | .number _ => .number
  | .null => .null

/-- The number that an id is; a truth value counts as one or zero. -/
def value : Ident → Number
  | .number n => n
  | .bool true => .int 1
  | _ => .int 0

def less : Ident → Ident → Bool
  | .text s, .text t => s < t
  | a, b => a.value.less b.value

/-- Whether two different ids of a list have no common order. -/
def unordered : List Ident → Bool
  | [] => false
  | a :: rest => rest.any (fun b => a.sort != b.sort) || unordered rest

/-- Ids in their order, if they have a common one. -/
def sorted (ids : List Ident) : Except Fault (List Ident) :=
  if unordered ids then .error .notOrdered
  else .ok (ids.mergeSort fun a b => !b.less a)

def fieldName : Ident → String
  | .text s => s
  | .null => "null"
  | .bool true => "true"
  | .bool false => "false"
  | .number n => Json.writtenNumber n

end Ident

/-- Nodes with their scores, the best first; nodes with one score are in the order of their ids. -/
def ranked (scores : List (Ident × Number)) : Except Fault (List (Ident × Number)) :=
  let clash := scores.any fun a => scores.any fun b =>
    a.2.same b.2 && a.1.sort != b.1.sort
  if clash then .error .notOrdered
  else .ok (scores.mergeSort fun a b =>
    if a.2.same b.2 then !b.1.less a.1 else b.2.less a.2)

/-- The scores of all nodes by one measure, and the best of them. -/
structure MeasureResult where
  measure : Measure
  scores : List (Ident × Number)
  top : List (Ident × Number)

def topCount : Nat := 5

def Network.centrality (n : Network Number) : Except Fault (List MeasureResult) :=
  let g := n.digraph
  Measure.all.mapM fun m => do
    let scores := (n.nodes.map (·.id)).zip (m.scores g)
    return ⟨m, scores, (← ranked scores).take topCount⟩

/-- The scores as fields, then the best nodes of every measure. -/
def centralityToJson (results : List MeasureResult) : Json :=
  .record (results.map (fun r =>
      (r.measure.name, .record (r.scores.map fun s => (s.1.fieldName, .number s.2))))
    ++ [("top_nodes", .record (results.map fun r =>
      (r.measure.name, .list (r.top.map fun s => .list [s.1.toJson, .number s.2]))))])

end BusinessAtlas
