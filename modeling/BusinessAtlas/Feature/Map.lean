import BusinessAtlas.Feature.Domain
import BusinessAtlas.Feature.Inference
import BusinessAtlas.Feature.Ownership
import BusinessAtlas.Feature.Relationship
import BusinessAtlas.Progress

/-!
# The feature map

All that is known about the features of a project: its components in business terms, the features
that own them, how the features relate and the domains they fall into. The map is filled in passes,
each of which adds to what is there.
-/

namespace BusinessAtlas

/-- The components of a project in business terms, its features and its domains. -/
structure FeatureMap (α : Type) where
  mappings : List Mapping
  features : List (Feature α)
  relationships : List (Relationship α)
  domains : List Domain

/-- The tables by which components and features are read. -/
structure FeatureTables where
  responsibility : Classifier
  domain : Classifier

def FeatureTables.bundled : FeatureTables := ⟨.responsibility, .featureDomain⟩

namespace FeatureMap

variable {α : Type} [Scalar α]

def empty : FeatureMap α := ⟨[], [], [], []⟩

def find? (id : String) (g : FeatureMap α) : Option (Feature α) := g.features.find? (·.id == id)

def addFeature (f : Feature α) (g : FeatureMap α) : FeatureMap α :=
  { g with features := g.features ++ [f] }

/-- Adds the mapping of every component of the project. -/
def mapComponents (p : Project) (table : Classifier) (g : FeatureMap α) :
    Progress (FeatureMap α) :=
  .each (fun g c => .step g do
    let m ← c.toMapping p table
    return { g with mappings := putMapping m g.mappings }) g p.components

/-- Adds the features of the capabilities, one after the other; the state is the map together with
the components that are taken. -/
def takeCapabilities (stories : List (Story α)) (capabilities : List Capability)
    (g : FeatureMap α) : Progress (FeatureMap α × List String) :=
  .each (fun s c => .step s do
    let (f, taken) ← Feature.ofCapability s.1.mappings stories s.2 c
    return (s.1.addFeature f, taken)) (g, []) capabilities

def addFeatures (stories : List (Story α)) (capabilities : List Capability) (g : FeatureMap α) :
    Progress (FeatureMap α) :=
  ((takeCapabilities stories capabilities g).andThen fun (g, taken) =>
    match Feature.infrastructure g.mappings taken with
    | some f => .done (g.addFeature f, taken)
    | none => .done (g, taken)).within (·.1)

/-- The ordered pairs of features with different ids. -/
def pairs (g : FeatureMap α) : List (Feature α × Feature α) :=
  g.features.flatMap fun f => (g.features.filter fun h => f.id != h.id).map fun h => (f, h)

def relate (g : FeatureMap α) : Progress (FeatureMap α) :=
  .each (fun g pair => .step g do
    match ← Relationship.between pair.1 pair.2 with
    | some r => return { g with relationships := g.relationships ++ [r] }
    | none => return g) g g.pairs

def addDomains (label : Labelling) (g : FeatureMap α) : Progress (FeatureMap α) :=
  match Domain.groups label g.features with
  | .error f => ⟨g, some f⟩
  | .ok groups =>
    .each (fun g group => .step g do
      return { g with domains := g.domains ++ [← Domain.ofFeatures group.1 group.2] }) g groups

def measure (g : FeatureMap α) : FeatureMap α :=
  { g with features := g.features.map Feature.measured }

/-- The passes over a project, whose features fall into domains by any labels. -/
def buildBy (p : Project) (responsibility : Classifier) (label : Labelling)
    (stories : List (Story α)) (capabilities : List Capability) : Progress (FeatureMap α) :=
  ((((mapComponents p responsibility empty).andThen
    (addFeatures stories capabilities)).andThen relate).andThen (addDomains label)).andThen
      fun g => .done g.measure

def build (p : Project) (tables : FeatureTables) (stories : List (Story α))
    (capabilities : List Capability) : Progress (FeatureMap α) :=
  buildBy p tables.responsibility tables.domain stories capabilities

end FeatureMap

def mappingsToJson (ms : List Mapping) : Json := .record (ms.map fun m => (m.name, m.toJson))

def FeatureMap.toJson (g : FeatureMap Number) : Json :=
  .record [("features", .list (g.features.map Feature.toJson)),
    ("mappings", mappingsToJson g.mappings),
    ("relationships", .list (g.relationships.map Relationship.toJson)),
    ("domains", .list (g.domains.map Domain.toJson))]

end BusinessAtlas
