import BusinessAtlas.Feature.Basic
import BusinessAtlas.Json.Access

/-!
# How features relate

Of two features the first may depend on the second, or the two may complement each other because
they refer to the same components or work on the same data. The first of these that holds counts.
-/

namespace BusinessAtlas

/-- The ways in which features relate. A relationship from elsewhere may bring one of its own. -/
inductive RelationshipKind where
  | dependsOn
  | extendsOther
  | complements
  | alternativeTo
  | other (name : String)
  deriving DecidableEq

namespace RelationshipKind

def name : RelationshipKind → String
  | dependsOn => "depends_on"
  | extendsOther => "extends"
  | complements => "complements"
  | alternativeTo => "alternative_to"
  | other name => name

def ofName (s : String) : RelationshipKind :=
  if s == "depends_on" then dependsOn
  else if s == "extends" then extendsOther
  else if s == "complements" then complements
  else if s == "alternative_to" then alternativeTo
  else other s

end RelationshipKind

/-- A directed relationship between features. -/
structure Relationship (α : Type) where
  source : String
  target : String
  kind : RelationshipKind
  strength : α
  description : String

namespace Relationship

variable {α : Type} [Scalar α]

/-- The part of the larger list of references that is shared. -/
def overlap (shared left right : Nat) : α :=
  Scalar.div (Scalar.count shared) (Scalar.count (max left right))

/-- How the first feature relates to the second one. -/
def between (f g : Feature α) : Except Fault (Option (Relationship α)) := do
  if f.dependencies.any (·.feature == g.id) then
    return some ⟨f.id, g.id, .dependsOn, Scalar.decimal 8 1,
      f.name.shown ++ " depends on " ++ g.name.shown⟩
  let shared := f.references.filter g.references.contains
  if !shared.isEmpty then
    return some ⟨f.id, g.id, .complements,
      overlap shared.length f.references.length g.references.length,
      "Features share " ++ toString shared.length ++ " component(s)"⟩
  let entities := f.entities.filter fun e => e.isAmong g.entities
  if !entities.isEmpty then
    return some ⟨f.id, g.id, .complements, Scalar.decimal 5 1,
      "Features operate on shared data: " ++ (← Json.joinTexts ", " entities)⟩
  return none

end Relationship

def Relationship.toJson (r : Relationship Number) : Json :=
  .record [("source", .text r.source), ("target", .text r.target),
    ("relationship_type", .text r.kind.name), ("strength", .number r.strength),
    ("description", .text r.description)]

end BusinessAtlas
