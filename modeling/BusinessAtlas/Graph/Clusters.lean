import BusinessAtlas.Graph.Edges

/-!
# Clusters

Nodes that belong together: the features and core components of a domain, the stories and components
of a feature, the journeys of one persona. Clusters may overlap.
-/

namespace BusinessAtlas

variable {α β : Type} [Scalar α]

def Arena.present (a : Arena α β) (ids : List Ident) : List Ident := ids.filter a.has

def Risk.ofComplexity (n : Nat) : Risk := if 70 < n then .high else if 40 < n then .medium else .low

def Domain.cluster (a : Arena α β) (d : Domain) : Option (Cluster α) :=
  let nodes := a.present (d.features.map .text)
    ++ a.present (d.core.map fun name => componentId (.text name))
  if nodes.isEmpty then none
  else some {
    id := d.id
    name := d.name
    kind := .domain
    nodes
    color := domainColor d.name
    collapsed := false
    value := Scalar.int 80
    complexity := Scalar.int 60
    completeness := Scalar.mul (Scalar.div (Scalar.count d.features.length) (Scalar.int 10))
      (Scalar.int 100)
    risk := .medium }

/-- Whether a count is above a threshold, which has to be a number. -/
def exceeds (threshold : Json) (n : Nat) : Except Fault Bool :=
  match threshold.asNumber? with
  | some t => .ok (t.less (.int n))
  | none => .error .notOrdered

def Feature.clusterNodes (a : Arena α β) (f : Feature α) : Except Fault (List Ident) := do
  let stories ← f.stories.mapM Json.asIdent
  return .text f.id :: a.present stories
    ++ a.present (f.componentNames.map fun name => componentId (.text name))

/-- The cluster of a feature, if it has more than two nodes. -/
def Feature.cluster (threshold : Json) (a : Arena α β) (f : Feature α) :
    Except Fault (Option (Cluster α)) := do
  let nodes ← f.clusterNodes a
  if nodes.length ≤ 2 then return none
  return some {
    id := "cluster-" ++ f.id
    name := f.name.shown ++ " Feature"
    kind := .feature
    nodes
    color := f.category.color
    collapsed := ← exceeds threshold nodes.length
    value := Scalar.count f.value
    complexity := Scalar.count f.complexity
    completeness := Scalar.int 70
    risk := .ofComplexity f.complexity }

def personaCluster (persona : String) (journeys : List (Journey α)) : Cluster α where
  id := "cluster-journey-" ++ persona
  name := persona ++ " Journeys"
  kind := .journey
  nodes := journeys.map fun j => .text j.id
  color := NodeKind.journey.color
  collapsed := false
  value := Scalar.int 70
  complexity := Scalar.mul
    (Scalar.div (Scalar.sum (journeys.map (·.metrics.complexity))) (Scalar.count journeys.length))
    (Scalar.int 10)
  completeness := Scalar.int 80
  risk := .low

def personaClusters (journeys : List (Journey α)) : List (Cluster α) :=
  ((grouped (journeys.map fun j => (j.persona, j))).filter fun g => decide (1 < g.2.length)).map
    fun g => personaCluster g.1 g.2

end BusinessAtlas
