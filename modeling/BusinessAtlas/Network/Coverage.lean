import BusinessAtlas.Network.Centrality

/-!
# Coverage gaps

What the code of a project does not cover: stories that no component implements, components that no
journey comes to, entities that nothing uses, nodes without links, and nodes that alone hold parts
of the network together.
-/

namespace BusinessAtlas

/-- The kinds of gap. -/
inductive GapKind where
  | unimplemented
  | untraversed
  | unused
  | isolated
  | structuralHole
  deriving DecidableEq

namespace GapKind

def all : List GapKind := [unimplemented, untraversed, unused, isolated, structuralHole]

def name : GapKind → String
  | unimplemented => "unimplemented_stories"
  | untraversed => "untraversed_components"
  | unused => "unused_entities"
  | isolated => "isolated_nodes"
  | structuralHole => "structural_holes"

end GapKind

/-- A node of the network that something is missing at. -/
structure Gap where
  kind : GapKind
  node : Ident
  nodeKind : Option NodeKind
  betweenness : Option Float
  description : String

namespace Gap

def severity (g : Gap) : String :=
  match g.kind with
  | .unimplemented | .unused | .structuralHole => "warning"
  | .untraversed | .isolated => "info"

/-- What can be done about a gap of a kind. -/
def recommendation (g : Gap) : Option String :=
  match g.kind with
  | .unimplemented => some "Link the story to the components that deliver it"
  | .untraversed => some "Check whether the component is reachable from an entry point"
  | .unused => some "Remove the entity or attach it to the capability that owns it"
  | .isolated => none
  | .structuralHole => some "Consider whether other elements should relate directly"

def toJson (g : Gap) : Json :=
  let kind : List (String × Json) :=
    if g.kind == .isolated then [("type", .text? (g.nodeKind.map NodeKind.name))] else []
  let score : List (String × Json) :=
    (g.betweenness.map fun x => ("betweenness", Json.number (.float x))).toList
  .record ([("node", g.node.toJson)] ++ kind ++ score
    ++ [("severity", .text g.severity), ("description", .text g.description)]
    ++ (g.recommendation.map fun r => ("recommendation", Json.text r)).toList)

end Gap

namespace Network

variable {α : Type}

def gapAt (kind : GapKind) (v : NetworkNode α) (before after : String) : Except Fault Gap := do
  let label ← v.label
  return ⟨kind, v.id, v.attributes.map (·.kind), none, before ++ label.shown ++ after⟩

def ofKind (n : Network α) (kind : NodeKind) : List (NetworkNode α) :=
  n.nodes.filter (·.isOfKind kind)

/-- Whether a link that implements leaves a node. -/
def isImplemented (n : Network α) (v : NetworkNode α) : Bool :=
  n.links.any fun l => l.source.same v.id && l.kinds.contains .implements

/-- Whether a link from a journey enters a node. -/
def isTraversed (n : Network α) (v : NetworkNode α) : Bool :=
  n.links.any fun l => l.target.same v.id
    && (n.nodes.find? (·.id.same l.source)).any (·.isOfKind .journey)

def isUsed (n : Network α) (v : NetworkNode α) : Bool := n.links.any (·.target.same v.id)

def isIsolated (n : Network α) (v : NetworkNode α) : Bool :=
  n.links.all fun l => !l.source.same v.id && !l.target.same v.id

/-- The stories that no component implements. -/
def unimplemented (n : Network α) : List (NetworkNode α) :=
  (n.ofKind .story).filter fun v => !n.isImplemented v

/-- The components that no journey comes to. -/
def untraversed (n : Network α) : List (NetworkNode α) :=
  (n.ofKind .component).filter fun v => !n.isTraversed v

def unused (n : Network α) : List (NetworkNode α) :=
  (n.ofKind .entity).filter fun v => !n.isUsed v

def isolated (n : Network α) : List (NetworkNode α) := n.nodes.filter n.isIsolated

def sortedNodes (vs : List (NetworkNode α)) : Except Fault (List (NetworkNode α)) :=
  if Ident.unordered (vs.map (·.id)) then .error .notOrdered
  else .ok (vs.mergeSort fun a b => !b.id.less a.id)

end Network

namespace Digraph

/-- The number of parts of the graph that are linked, in any direction, without the nodes that are
left out. -/
def partsWithout (g : Digraph) (out : Nat → Bool) : Nat :=
  let near (v : Nat) : List Nat := (g.next v ++ g.previous v).filter fun w => !out w
  (g.nodes.foldl (fun (state : Nat × Array Bool) v =>
    if out v || state.2.getD v false then state
    else
      let s := Search.ofSource near g.size v
      (state.1 + 1, s.visited.foldl (fun seen w => seen.setIfInBounds w true) state.2))
    (0, Array.replicate g.size false)).1

/-- The number of parts of the graph that are linked in any direction. -/
def parts (g : Digraph) : Nat := g.partsWithout fun _ => false

end Digraph

/-- The part of shortest paths above which a node may hold parts of a network together. -/
def holeThreshold : Float := 0.5

namespace Network

/-- The nodes that alone hold parts of the network together, with their betweenness. -/
def structuralHoles (n : Network Number) : Except Fault (List (NetworkNode Number × Float)) := do
  let g := n.digraph
  if g.size ≤ 2 then return []
  let scored := n.nodes.zip (g.nodes.zip g.betweenness.toList)
  if Ident.unordered (n.nodes.map (·.id)) then .error .notOrdered
  let sorted := scored.mergeSort fun a b => !b.1.id.less a.1.id
  let holes := sorted.filter fun v =>
    decide (holeThreshold < v.2.2) && decide (g.parts < g.partsWithout (· == v.2.1))
  return holes.map fun v => (v.1, v.2.2)

/-- All gaps of a network, kind by kind. -/
def gaps (n : Network Number) : Except Fault (List Gap) := do
  let stories ← n.unimplemented.mapM fun v =>
    gapAt .unimplemented v "User story '" "' has no implementing component"
  let components ← n.untraversed.mapM fun v =>
    gapAt .untraversed v "Component '" "' is not part of any user journey"
  let entities ← n.unused.mapM fun v =>
    gapAt .unused v "Data entity '" "' is not used by any capability or rule"
  let alone ← (← sortedNodes n.isolated).mapM fun v =>
    gapAt .isolated v "'" "' has no relationships"
  let holes ← (← n.structuralHoles).mapM fun (v, score) => do
    let gap ← gapAt .structuralHole v "'"
      "' is a single point of contact between parts of the graph"
    return { gap with betweenness := some score }
  return stories ++ components ++ entities ++ alone ++ holes

end Network

def gapsOf (kind : GapKind) (gaps : List Gap) : List Gap := gaps.filter (·.kind == kind)

def gapCounts (gaps : List Gap) : List (GapKind × Nat) :=
  GapKind.all.map fun k => (k, (gapsOf k gaps).length)

def gapsToJson (gaps : List Gap) : Json :=
  .record (GapKind.all.map fun k => (k.name, .list ((gapsOf k gaps).map Gap.toJson)))

end BusinessAtlas
