import BusinessAtlas.Facts.Context
import BusinessAtlas.Feature.Basic
import BusinessAtlas.Graph.Basic
import BusinessAtlas.Graph.Kind
import BusinessAtlas.Journey.Basic
import BusinessAtlas.Journey.Inference

/-!
# Scoring nodes

How important, complex and valuable a node is, and in which colour it is drawn, by the attributes of
what it stands for. Every edge end at a node counts as a connection, so an edge from a node to itself
counts twice, and connections make a node more important.
-/

namespace BusinessAtlas

section Scores

variable {α : Type} [Scalar α]

def topImportance : Int := 100

namespace Story

/-- The importance of a story by its priority, and by how sure it is. -/
def importance (s : Story α) : Except Fault α := do
  let bonus ← s.priority.choose [("critical", 30), ("high", 20), ("medium", 10)] 0
  return Scalar.cap topImportance
    (Scalar.add (Scalar.count (50 + bonus)) (Scalar.mul s.confidence (Scalar.int 20)))

def effort (s : Story α) : Except Fault Nat :=
  s.complexity.choose [("complex", 80), ("medium", 50)] 20

def worth (s : Story α) : Except Fault Nat :=
  s.priority.choose [("critical", 100), ("high", 75), ("medium", 50)] 25

def color (s : Story α) : Except Fault String :=
  s.priority.choose [("critical", "#E74C3C"), ("high", "#F39C12"), ("medium", "#3498DB")] "#95A5A6"

end Story

namespace Capability

def importance (c : Capability) : Except Fault Nat :=
  c.value.choose [("core", 90), ("supporting", 60)] 30

def worth (c : Capability) : Except Fault Nat :=
  c.value.choose [("core", 100), ("supporting", 60)] 30

def color (c : Capability) : Except Fault String :=
  c.value.choose [("core", "#27AE60"), ("supporting", "#3498DB")] "#95A5A6"

end Capability

def Category.color : Category → String
  | core => "#E74C3C"
  | supporting => "#9B59B6"
  | utility => "#95A5A6"

namespace ComponentKind

/-- What the kind of a component adds to its importance. -/
def bonus : ComponentKind → Nat
  | container => 20
  | hybrid => 30
  | functional | presentational | other _ => 0

def color : ComponentKind → String
  | container => "#E67E22"
  | presentational => "#3498DB"
  | functional => "#27AE60"
  | hybrid => "#9B59B6"
  | other _ => "#95A5A6"

end ComponentKind

namespace Mapping

/-- The importance of a component by its kind and by what it does. -/
def importance (m : Mapping) : Nat :=
  min topImportance.toNat
    (30 + m.kind.bonus + 5 * m.patterns.length + 10 * m.data.transformations.length)

/-- How complex the component is to draw. -/
def effort (m : Mapping) : Nat := 10 * m.patterns.length + 15 * m.data.transformations.length

end Mapping

/-- What a journey is worth: more for signed-in users, when it is complex, and when other systems
take part. -/
def Journey.worth (j : Journey α) : Nat :=
  min 100 (50 + (if j.persona == signedInPersona then 20 else 0)
    + (if Scalar.less (Scalar.int 5) j.metrics.complexity then 10 else 0)
    + (if 2 < j.metrics.integrations then 15 else 0))

namespace Rule

def importance (r : Rule) : Except Fault Nat :=
  r.category.choose [("validation", 80), ("authorization", 90)] 60

end Rule

/-- The colour of the cluster of a domain. -/
def domainColor (name : String) : String :=
  (List.lookup name [("User Management", "#3498DB"), ("Task Management", "#27AE60"),
    ("Analytics", "#9B59B6"), ("Infrastructure", "#95A5A6")]).getD "#F39C12"

end Scores

section Connections

variable {α β : Type} [Scalar α]

namespace Arena

def degree (a : Arena α β) (key : Key) : Nat :=
  a.edges.countP (·.source.key == key) + a.edges.countP (·.target.key == key)

/-- The arena with the connections of its nodes counted; each connection adds two to the importance
of its node, up to the highest. -/
def connected (a : Arena α β) : Arena α β :=
  { a with nodes := a.nodes.map fun n =>
      let degree := a.degree n.id.key
      { n with metrics := { n.metrics with
          connectivity := degree
          importance := Scalar.cap topImportance
            (Scalar.add n.metrics.importance (Scalar.count (2 * degree))) } } }

end Arena

/-- How often each kind is among some kinds, in the order in which they first appear. -/
def countsOf {κ : Type} [DecidableEq κ] (kinds : List κ) : List (κ × Nat) :=
  (distinctItems kinds).map fun k => (k, kinds.count k)

/-- The edges of a graph in proportion to the pairs of its nodes. -/
def densityOf (nodes edges : Nat) : α :=
  if nodes < 2 then Scalar.decimal 0 1
  else Scalar.div (Scalar.count edges)
    (Scalar.div (Scalar.count (nodes * (nodes - 1))) (Scalar.int 2))

namespace Graph

/-- The counts of a graph. The average is left as it was where there are no nodes. -/
def counted (g : Graph α β) : Statistics α :=
  let nodes := g.arena.nodes
  { nodes := nodes.length
    edges := g.arena.edges.length
    nodesByKind := countsOf (nodes.map (·.kind))
    edgesByKind := countsOf (g.arena.edges.map (·.kind))
    averageConnectivity :=
      if nodes.isEmpty then g.statistics.averageConnectivity
      else Scalar.div (Scalar.count (totalOf (nodes.map (·.metrics.connectivity))))
        (Scalar.count nodes.length)
    density := densityOf nodes.length g.arena.edges.length
    clusters := g.clusters.length
    isolated := nodes.countP (·.metrics.connectivity == 0) }

end Graph

end Connections

end BusinessAtlas
