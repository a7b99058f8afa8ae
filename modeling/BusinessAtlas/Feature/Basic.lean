import BusinessAtlas.Feature.Mapping
import BusinessAtlas.Number.Scalar

/-!
# Features

A feature groups the components that deliver one capability. It owns components and refers to
those that are already taken; `references` lists the two together.
-/

namespace BusinessAtlas

/-- How much a feature matters to the business. -/
inductive Category where
  | core
  | supporting
  | utility
  deriving DecidableEq

def Category.name : Category → String
  | core => "core"
  | supporting => "supporting"
  | utility => "utility"

/-- A feature that another one needs. -/
structure Dependency where
  feature : String
  kind : String
  reason : String
  deriving DecidableEq

/-- The size of a feature. -/
structure FeatureMetrics (α : Type) where
  codeLines : Nat
  components : Nat
  interactionPoints : Nat
  endpoints : Nat
  averageComplexity : α

/-- A group of components that delivers a capability. -/
structure Feature (α : Type) where
  id : String
  name : Json
  description : Json
  category : Category
  components : List Mapping
  stories : List Json
  entities : List Json
  value : Nat
  complexity : Nat
  dependencies : List Dependency
  metrics : FeatureMetrics α
  shared : List String

/-- The metrics of a feature that was not measured yet. -/
def FeatureMetrics.unmeasured {α : Type} [Scalar α] (endpoints : Nat) : FeatureMetrics α :=
  ⟨0, 0, 0, endpoints, Scalar.decimal 0 1⟩

namespace Feature

variable {α : Type}

def componentNames (f : Feature α) : List String := f.components.map (·.name)

/-- The components that the feature owns, then those it refers to. -/
def references (f : Feature α) : List String := f.componentNames ++ f.shared

end Feature

def Dependency.toJson (d : Dependency) : Json :=
  .record [("feature_id", .text d.feature), ("dependency_type", .text d.kind),
    ("reason", .text d.reason)]

def FeatureMetrics.toJson (m : FeatureMetrics Number) : Json :=
  .record [("code_lines", .nat m.codeLines), ("component_count", .nat m.components),
    ("user_interaction_points", .nat m.interactionPoints), ("api_endpoints", .nat m.endpoints),
    ("average_complexity", .number m.averageComplexity)]

def Feature.toJson (f : Feature Number) : Json :=
  .record [("id", .text f.id), ("name", f.name), ("description", f.description),
    ("category", .text f.category.name), ("components", .list (f.components.map Mapping.toJson)),
    ("user_stories", .list f.stories), ("data_entities", .list f.entities),
    ("business_value", .nat f.value), ("technical_complexity", .nat f.complexity),
    ("dependencies", .list (f.dependencies.map Dependency.toJson)),
    ("metrics", f.metrics.toJson), ("shared_components", .texts f.shared)]

end BusinessAtlas
