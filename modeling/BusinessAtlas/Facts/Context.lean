import BusinessAtlas.Json.Access
import BusinessAtlas.Number.Scalar

/-!
# Business context

The requirements that a code base serves: stories, capabilities, entities, rules and personas. Each
record keeps the value it was read from, which is what the context is written back from.
-/

namespace BusinessAtlas

/-- A user story. The confidence is the one number that is computed with. -/
structure Story (α : Type) where
  id : Json
  title : Json
  description : Json
  persona : Json
  priority : Json
  confidence : α
  kind : Json
  capability : Json
  complexity : Json
  components : List Json
  criteria : List Json
  raw : Json

/-- What the business can do. -/
structure Capability where
  id : Json
  name : Json
  description : Json
  stories : List Json
  components : List Json
  entities : List Json
  operations : List Json
  value : Json
  raw : Json

/-- A thing that data is kept about. -/
structure Entity where
  name : Json
  attributes : List Json
  relationships : List Json
  operations : List Json
  purpose : Json
  raw : Json

/-- A rule that the business follows. -/
structure Rule where
  id : Json
  description : Json
  category : Json
  implementation : List Json
  entities : List Json
  conditions : List Json
  actions : List Json
  raw : Json

/-- A kind of user. -/
structure Persona where
  id : Json
  name : Json
  description : Json
  goals : List Json
  capabilities : List Json
  raw : Json

/-- All requirements. -/
structure Context (α : Type) where
  stories : List (Story α)
  capabilities : List Capability
  entities : List Entity
  rules : List Rule
  personas : List Persona

def Story.ofJson (v : Json) : Except Fault (Story Number) := do
  let id ← v.getD "id" (.text "")
  let title ← v.getD "title" (.text "")
  let description ← v.getD "description" (.text "")
  let persona ← v.getD "persona" (.text "")
  let priority ← v.getOr "priority" (.text "low")
  let confidence ← (← v.getD "confidence" .null).asFloat
  let kind ← v.pickD ["storyType", "story_type"] (.text "")
  let capability ← v.pickD ["businessCapability", "business_capability"] (.text "")
  let complexity ← v.getOr "complexity" (.text "simple")
  let components ← v.pickItems ["sourceComponents", "source_components"]
  let criteria ← v.pickItems ["acceptanceCriteria", "acceptance_criteria"]
  return ⟨id, title, description, persona, priority, .float confidence, kind, capability,
    complexity, components, criteria, v⟩

def Capability.ofJson (v : Json) : Except Fault Capability := do
  let id ← v.getD "id" (.text "")
  let name ← v.getD "name" (.text "")
  let description ← v.getD "description" (.text "")
  let stories ← v.pickItems ["userStories", "user_stories"]
  let components ← v.itemsOf "components"
  let entities ← v.pickItems ["dataEntities", "data_entities"]
  let operations ← v.itemsOf "operations"
  let value ← v.pickD ["businessValue", "business_value"] (.text "generic")
  return ⟨id, name, description, stories, components, entities, operations, value, v⟩

def Entity.ofJson (v : Json) : Except Fault Entity := do
  let name ← v.getD "name" (.text "")
  let attributes ← v.itemsOf "attributes"
  let relationships ← v.itemsOf "relationships"
  let operations ← v.itemsOf "operations"
  let purpose ← v.pickD ["businessPurpose", "business_purpose"] (.text "")
  return ⟨name, attributes, relationships, operations, purpose, v⟩

def Rule.ofJson (v : Json) : Except Fault Rule := do
  let id ← v.getD "id" (.text "")
  let description ← v.getD "description" (.text "")
  let category ← v.getOr "category" (.text "workflow")
  let implementation ← v.itemsOf "implementation"
  let entities ← v.pickItems ["affectedEntities", "affected_entities"]
  let conditions ← v.itemsOf "conditions"
  let actions ← v.itemsOf "actions"
  return ⟨id, description, category, implementation, entities, conditions, actions, v⟩

def Persona.ofJson (v : Json) : Except Fault Persona := do
  let id ← v.getD "id" (.text "")
  let name ← v.getD "name" (.text "")
  let description ← v.getD "description" (.text "")
  let goals ← v.itemsOf "goals"
  let capabilities ← v.itemsOf "capabilities"
  return ⟨id, name, description, goals, capabilities, v⟩

namespace Context

/-- Reads the requirements; a vacant value holds none. -/
def ofJson (v : Json) : Except Fault (Context Number) := do
  let v := v.orElse (.record [])
  let stories ← (← v.pickItems ["userStories", "user_stories"]).mapM Story.ofJson
  let capabilities ← (← v.itemsOf "capabilities").mapM Capability.ofJson
  let entities ← (← v.pickItems ["dataModel", "data_model"]).mapM Entity.ofJson
  let rules ← (← v.pickItems ["businessRules", "business_rules"]).mapM Rule.ofJson
  let personas ← (← v.itemsOf "personas").mapM Persona.ofJson
  return ⟨stories, capabilities, entities, rules, personas⟩

/-- The requirements of a facts document. -/
def ofFacts (v : Json) : Except Fault (Context Number) := do
  ofJson (← v.pickD ["businessContext", "business_context"] (.record []))

def toJson {α : Type} (c : Context α) : Json :=
  .record [("user_stories", .list (c.stories.map (·.raw))),
    ("capabilities", .list (c.capabilities.map (·.raw))),
    ("data_model", .list (c.entities.map (·.raw))),
    ("business_rules", .list (c.rules.map (·.raw))),
    ("personas", .list (c.personas.map (·.raw)))]

end Context

end BusinessAtlas
