import BusinessAtlas.Classifier.Tables
import BusinessAtlas.Feature.Basic
import BusinessAtlas.Grouping
import BusinessAtlas.Text.Character

/-!
# Domains

Features fall into domains by their names. A domain knows the components that hold its features
together, those at its boundary to other systems, and the vocabulary that its features bring.
-/

namespace BusinessAtlas

/-- A word of a domain and what it stands for. -/
structure Term where
  word : Json
  mapping : String
  components : List String
  description : Json

/-- A group of features with one vocabulary. -/
structure Domain where
  id : String
  name : String
  description : String
  features : List String
  core : List String
  boundary : List String
  vocabulary : List Term

namespace Domain

variable {α : Type}

def coreComponents (features : List (Feature α)) : List String :=
  let names := features.flatMap Feature.references
  (distinctItems names).filter fun n => decide (1 < names.count n)

/-- The components of a domain that talk to other systems. -/
def boundaryComponents (features : List (Feature α)) : List String :=
  distinctItems (((features.flatMap (·.components)).filter (Mapping.hasPattern .apiCall)).map
    (·.name))

def featureTerm (f : Feature α) : Term := ⟨f.name, f.id, f.componentNames, f.description⟩

def entityTerm (f : Feature α) (entity : Json) : Except Fault Term := do
  let name ← entity.asText
  let uses := f.components.filter fun m => Text.occurs name m.purpose
  return ⟨entity, "entity-" ++ Text.lower name, uses.map (·.name),
    .text ("Data entity representing " ++ Text.lower name)⟩

def vocabularyOf (features : List (Feature α)) : Except Fault (List Term) := do
  let parts ← features.mapM fun f => do
    return featureTerm f :: (← f.entities.mapM (entityTerm f))
  return parts.flatten

def ofFeatures (name : String) (features : List (Feature α)) : Except Fault Domain := do
  return {
    id := "domain-" ++ Text.collapseBlanks "-" (Text.lower name)
    name
    description := "Business domain for " ++ Text.lower name ++ " capabilities"
    features := features.map (·.id)
    core := coreComponents features
    boundary := boundaryComponents features
    vocabulary := ← vocabularyOf features }

def generalName : String := "General"

/-- The name of the domain for a label: the label itself, if there is one and it is not empty. -/
def nameOf : Option String → String
  | some name => if name.isEmpty then generalName else name
  | none => generalName

def nameFor (label : Labelling) (f : Feature α) : Except Fault String := do
  return nameOf (← label f.name)

/-- The features by the names of their domains. -/
def groups (label : Labelling) (features : List (Feature α)) :
    Except Fault (List (String × List (Feature α))) := do
  let named ← features.mapM fun f => return (← nameFor label f, f)
  return grouped named

end Domain

def Term.toJson (t : Term) : Json :=
  .record [("term", t.word), ("technical_mapping", .text t.mapping),
    ("component_references", .texts t.components), ("description", t.description)]

def Domain.toJson (d : Domain) : Json :=
  .record [("id", .text d.id), ("name", .text d.name), ("description", .text d.description),
    ("features", .texts d.features), ("core_components", .texts d.core),
    ("boundary_components", .texts d.boundary),
    ("domain_language", .list (d.vocabulary.map Term.toJson))]

end BusinessAtlas
