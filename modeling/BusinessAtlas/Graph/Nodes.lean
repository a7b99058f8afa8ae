import BusinessAtlas.Feature.Map
import BusinessAtlas.Graph.Basic
import BusinessAtlas.Graph.Scoring
import BusinessAtlas.Journey.Map

/-!
# Nodes

The node of everything that is known about a project. Stories, capabilities, rules and personas
bring ids of their own; the ids of the others are made from their names.
-/

namespace BusinessAtlas

def componentId (name : Json) : Ident := .text ("component-" ++ name.shown)

def entityId (name : Json) : Ident := .text ("entity-" ++ name.shown)

def tagged (tags : List Json) : List Json := tags.filter fun t => !t.isVacant

variable {α β : Type} [Scalar α]

/-- Scores of a node without connections. -/
def NodeMetrics.counts (importance complexity value : Nat) : NodeMetrics α :=
  ⟨Scalar.count importance, Scalar.count complexity, 0, Scalar.count value⟩

namespace Node

def ofStory (s : Story α) : Except Fault (Node α β) := do
  let importance ← s.importance
  let complexity ← s.effort
  let value ← s.worth
  let color ← s.color
  return {
    id := ← s.id.asIdent
    kind := .story
    label := s.title
    description := s.description
    data := .record s.raw
    position := none
    color
    metrics := ⟨importance, Scalar.count complexity, 0, Scalar.count value⟩
    tags := tagged [s.kind, s.priority, s.capability] }

def ofCapability (c : Capability) : Except Fault (Node α β) := do
  let importance ← c.importance
  let value ← c.worth
  let color ← c.color
  return {
    id := ← c.id.asIdent
    kind := .capability
    label := c.name
    description := c.description
    data := .record c.raw
    position := none
    color
    metrics := .counts importance (10 * c.operations.length) value
    tags := tagged [c.value] }

def ofFeature (f : Feature α) : Node α β where
  id := .text f.id
  kind := .feature
  label := f.name
  description := f.description
  data := .feature f
  position := none
  color := f.category.color
  metrics := .counts f.value f.complexity f.value
  tags := [.text f.category.name]

def ofMapping (m : Mapping) : Node α β where
  id := componentId (.text m.name)
  kind := .component
  label := .text m.name
  description := .text m.purpose
  data := .mapping m
  position := none
  color := m.kind.color
  metrics := .counts m.importance m.effort 50
  tags := tagged [.text m.kind.name]

def ofEntity (e : Entity) : Node α β where
  id := entityId e.name
  kind := .entity
  label := e.name
  description := e.purpose
  data := .record e.raw
  position := none
  color := NodeKind.entity.color
  metrics := .counts (15 * e.operations.length)
    (5 * e.attributes.length + 10 * e.relationships.length) 60
  tags := [.text "data"]

def ofJourney (j : Journey α) : Node α β where
  id := .text j.id
  kind := .journey
  label := .text j.name
  description := .text? j.goal
  data := .journey j
  position := none
  color := NodeKind.journey.color
  metrics := ⟨Scalar.int 70, Scalar.mul j.metrics.complexity (Scalar.int 10), 0,
    Scalar.count j.worth⟩
  tags := tagged [.text j.persona, .text j.trigger.kind]

def ofRule (r : Rule) : Except Fault (Node α β) := do
  let affected ← Json.joinTexts ", " r.entities
  let importance ← r.importance
  return {
    id := ← r.id.asIdent
    kind := .rule
    label := r.description
    description := .text (r.category.shown ++ " rule affecting " ++ affected)
    data := .record r.raw
    position := none
    color := NodeKind.rule.color
    metrics := .counts importance (10 * r.conditions.length + 5 * r.actions.length) 70
    tags := tagged [r.category] }

def ofPersona (p : Persona) : Except Fault (Node α β) := do
  return {
    id := ← p.id.asIdent
    kind := .persona
    label := p.name
    description := p.description
    data := .record p.raw
    position := none
    color := NodeKind.persona.color
    metrics := .counts 80 20 90
    tags := [.text "persona"] }

end Node

end BusinessAtlas
