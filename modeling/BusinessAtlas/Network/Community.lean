import BusinessAtlas.Network.Centrality

/-!
# Communities

Nodes that are linked more to each other than to the rest, found on the graph with directions
forgotten. One method merges communities as long as that makes the division better; the other lets
nodes take over the label that most of their neighbours have.
-/

namespace BusinessAtlas

/-- How much better a division gets when two communities are merged, for every pair of communities
that is linked, with the part of all edge ends that each community has. -/
structure Gains where
  gain : Array (Array (Option Float))
  part : Array Float
  communities : List (Nat × List Nat)

namespace Gains

def gainOf (s : Gains) (u v : Nat) : Option Float := (s.gain.getD u #[]).getD v none

def partOf (s : Gains) (u : Nat) : Float := s.part.getD u 0

def setGain (u v : Nat) (x : Option Float) (gain : Array (Array (Option Float))) :
    Array (Array (Option Float)) :=
  gain.modify u fun row => row.setIfInBounds v x

def start (g : Undirected) : Gains :=
  let share := 1 / Float.ofNat g.edges.length
  let part := (g.nodes.map fun v => Float.ofNat (g.degree v) * share * 0.5).toArray
  let partOf (v : Nat) : Float := part.getD v 0
  { part
    communities := g.nodes.map fun v => (v, [v])
    gain := g.edges.foldl (fun gain e =>
      let (u, v) := e.1
      if u == v then gain
      else
        let forward := share * 1 - 1 * (partOf u * partOf v + partOf v * partOf u)
        let backward := share * 1 - 1 * (partOf v * partOf u + partOf u * partOf v)
        setGain v u (some backward) (setGain u v (some forward) gain))
      (Array.replicate g.size (Array.replicate g.size none)) }

/-- The better one of two merges: the larger gain, then the earlier pair of ids. -/
def better (ids : Nat → Ident) (a b : Float × Nat × Nat) : Bool :=
  if a.1 == b.1 then
    (ids a.2.1).less (ids b.2.1)
      || (!(ids b.2.1).less (ids a.2.1) && (ids a.2.2).less (ids b.2.2))
  else b.1 < a.1

def best (ids : Nat → Ident) (s : Gains) : Option (Float × Nat × Nat) :=
  let heads := s.communities.map (·.1)
  heads.foldl (fun found u => heads.foldl (fun found v =>
    match s.gainOf u v with
    | none => found
    | some x =>
      match found with
      | none => some (x, u, v)
      | some old => if better ids (x, u, v) old then some (x, u, v) else found) found) none

/-- The gain of merging `v` with `w` after `u` was merged into `v`. -/
def merged (s : Gains) (u v w : Nat) : Option Float :=
  match s.gainOf v w, s.gainOf u w with
  | some x, some y => some (x + y)
  | some x, none => some (x - 1 * (s.partOf u * s.partOf w + s.partOf w * s.partOf u))
  | none, some y => some (y - 1 * (s.partOf v * s.partOf w + s.partOf w * s.partOf v))
  | none, none => none

def merge (u v : Nat) (s : Gains) : Gains :=
  let others := (s.communities.map (·.1)).filter fun w => w != u && w != v
  let gain := others.foldl (fun gain w =>
    let x := s.merged u v w
    setGain u w none (setGain w u none (setGain v w x (setGain w v x gain)))) s.gain
  let members := ((s.communities.filter (·.1 == u)).map (·.2)).flatten
  { gain := setGain u v none (setGain v u none gain)
    part := s.part.setIfInBounds v (s.partOf v + s.partOf u)
    communities := (s.communities.filter (·.1 != u)).map fun c =>
      if c.1 == v then (v, c.2 ++ members) else c }

/-- Merges communities as long as the best merge is no loss. A merge leaves one community less. -/
def run (ids : Nat → Ident) : Nat → Gains → Gains
  | 0, s => s
  | rounds + 1, s =>
    if s.communities.length ≤ 1 then s
    else match s.best ids with
      | none => s
      | some (x, u, v) => if x < 0 then s else run ids rounds (s.merge u v)

end Gains

/-- The communities of a graph, the largest first. -/
def Undirected.communities (ids : Nat → Ident) (g : Undirected) : List (List Nat) :=
  (((Gains.start g).run ids g.size).communities.map (·.2)).mergeSort fun a b =>
    decide (b.length ≤ a.length)

/-- The total of weights is zero: of integers, or of numbers that are not all integers. -/
inductive ZeroTotal where
  | whole
  | floating

def ZeroTotal.message : ZeroTotal → String
  | whole => "division by zero"
  | floating => "float division by zero"

namespace Undirected

/-- The weights of the edge ends at a node. -/
def weightAt (g : Undirected) (v : Nat) : Number :=
  g.edges.foldl (fun total e =>
    let total := if e.1.1 == v then total.add e.2 else total
    if e.1.2 == v then total.add e.2 else total) (.int 0)

def weightInside (g : Undirected) (community : List Nat) : Number :=
  g.edges.foldl (fun total e =>
    if community.contains e.1.1 && community.contains e.1.2 then total.add e.2 else total) (.int 0)

/-- Whether the square of a total is zero or too large to divide by. -/
def checkTotal (total : Number) : Except Fault (Option ZeroTotal) :=
  match total with
  | .int n =>
    if n == 0 then .ok (some .whole)
    else if ((Number.int n).div (.int 2)).toFloat.isInf then .error .tooLarge
    else .ok none
  | .float x =>
    let square := x * x
    if square == 0 then .ok (some .floating)
    else if square.isInf && !x.isInf then .error .tooLarge
    else .ok none

/-- How good a division into communities is. -/
def modularity (g : Undirected) (communities : List (List Nat)) :
    Except Fault (Except ZeroTotal Float) := do
  let total := (g.nodes.map g.weightAt).foldl Number.add (.int 0)
  match ← checkTotal total with
  | some zero => return .error zero
  | none =>
    let whole := total.toFloat
    let terms := communities.map fun c =>
      let inside := (g.weightInside c).toFloat
      let ends := ((c.map g.weightAt).foldl Number.add (.int 0)).toFloat
      inside / (whole / 2) - ends * ends / (whole * whole)
    return .ok (terms.foldl (· + ·) 0)

def firstFree (taken : List Nat) : Nat :=
  ((List.range (taken.length + 1)).find? fun c => !taken.contains c).getD 0

/-- A colour for every node such that neighbours differ, nodes of high degree first. -/
def coloring (g : Undirected) : List (Nat × Nat) :=
  let order := g.nodes.mergeSort fun a b => decide (g.degree b ≤ g.degree a)
  order.foldl (fun colors v =>
    colors ++ [(v, firstFree ((g.next v).filterMap fun w => colors.lookup w))]) []

/-- The nodes of each colour, in the order in which the colours appear. -/
def colorClasses (g : Undirected) : List (List Nat) :=
  (grouped (g.coloring.map fun c => (c.2, c.1))).map (·.2)

/-- The labels that most neighbours of a node have. -/
def frequentLabels (g : Undirected) (labels : Array Nat) (v : Nat) : List Nat :=
  let near := (g.next v).map fun w => labels.getD w 0
  let most := near.foldl (fun m l => max m (near.count l)) 0
  (distinctItems near).filter fun l => near.count l == most

/-- Whether a node has a label that most of its neighbours have. -/
def isSettled (g : Undirected) (labels : Array Nat) (v : Nat) : Bool :=
  (g.next v).isEmpty || (g.frequentLabels labels v).contains (labels.getD v 0)

/-- A node takes over the label that most of its neighbours have, the largest one if there are
several and its own is none of them. -/
def relabel (g : Undirected) (labels : Array Nat) (v : Nat) : Array Nat :=
  match g.frequentLabels labels v with
  | [] => labels
  | [l] => labels.setIfInBounds v l
  | several =>
    if several.contains (labels.getD v 0) then labels
    else labels.setIfInBounds v (several.foldl max 0)

/-- Nodes take over labels, in the given order again and again, until all are settled. Every change
makes more edges join nodes of one label, so a round for every edge is enough. -/
def settle (g : Undirected) (order : List Nat) : Nat → Array Nat → Array Nat
  | 0, labels => labels
  | rounds + 1, labels =>
    if g.nodes.all (g.isSettled labels) then labels
    else settle g order rounds (order.foldl g.relabel labels)

/-- The sizes of the groups of nodes with one label, the largest first. -/
def labelSizes (g : Undirected) : List Nat :=
  let labels := g.settle g.colorClasses.flatten (g.edges.length + 1) g.nodes.toArray
  ((grouped (labels.toList.map fun l => (l, ()))).map (·.2.length)).mergeSort fun a b =>
    decide (b ≤ a)

end Undirected

/-- A division into communities: their number and sizes, and the members of the first ones. -/
structure Division where
  sizes : List Nat
  members : List (List Ident)

/-- How many communities are shown with their members. -/
def shownCommunities : Nat := 10

/-- What is found about the communities of a network. A network without links has no labels. -/
structure CommunityReport where
  division : Except ZeroTotal (Division × Float)
  labels : Option (List Nat)

namespace Network

def communities (n : Network Number) : Except Fault CommunityReport := do
  let g := n.undirected
  if g.edges.isEmpty then
    let ids ← Ident.sorted (n.nodes.map (·.id))
    let division : Division :=
      ⟨List.replicate ids.length 1, (ids.map fun id => [id]).take shownCommunities⟩
    return ⟨.ok (division, 0), none⟩
  let found := g.communities n.idAt
  let members ← (found.take shownCommunities).mapM fun c => Ident.sorted (c.map n.idAt)
  let modularity ← g.modularity found
  return ⟨modularity.map fun q => (⟨found.map (·.length), members⟩, q), some g.labelSizes⟩

end Network

def CommunityReport.toJson (r : CommunityReport) : Json :=
  let sizes (ns : List Nat) : List (String × Json) :=
    [("num_communities", .nat ns.length), ("sizes", .list (ns.map .nat))]
  .record ((match r.division with
      | .ok (d, q) =>
        [("greedy_modularity", .record (sizes d.sizes ++
            [("communities", .list (d.members.map fun c => .list (c.map Ident.toJson)))])),
          ("modularity", .number (.float q))]
      | .error zero =>
        [("greedy_modularity", .text ("Error in greedy modularity: " ++ zero.message))])
    ++ match r.labels with
      | some ns => [("label_propagation", .record (sizes ns))]
      | none => [])

end BusinessAtlas
