import BusinessAtlas.Journey.Inference

/-!
# How journeys relate

A journey leads to one that starts where it ends, and a journey for signed-in users requires one
that signs them in.
-/

namespace BusinessAtlas

/-- The ways in which journeys relate. A relationship from elsewhere may bring one of its own. -/
inductive JourneyRelationshipKind where
  | leadsTo
  | requires
  | alternativeTo
  | extendsOther
  | other (name : String)
  deriving DecidableEq

namespace JourneyRelationshipKind

def name : JourneyRelationshipKind → String
  | leadsTo => "leads_to"
  | requires => "requires"
  | alternativeTo => "alternative_to"
  | extendsOther => "extends"
  | other name => name

def ofName (s : String) : JourneyRelationshipKind :=
  if s == "leads_to" then leadsTo
  else if s == "requires" then requires
  else if s == "alternative_to" then alternativeTo
  else if s == "extends" then extendsOther
  else other s

end JourneyRelationshipKind

/-- A directed relationship between journeys. -/
structure JourneyRelationship where
  source : String
  target : String
  kind : JourneyRelationshipKind
  condition : String

namespace Journey

variable {α : Type}

/-- Whether the second journey starts where the first one ends. -/
def leadsTo (j k : Journey α) : Bool :=
  match j.steps.getLast?, k.steps.head? with
  | some last, some first => last.component == first.component || last.next.contains first.id
  | _, _ => false

/-- Whether the first journey is for signed-in users and the second one signs them in. -/
def requires (j k : Journey α) : Bool :=
  j.trigger.preconditions.contains signedInCondition && Text.occurs "login" (Text.lower k.name)

/-- How the first journey relates to the second one. -/
def relationshipsTo (j k : Journey α) : List JourneyRelationship :=
  (if j.leadsTo k then [⟨j.id, k.id, .leadsTo, "After completion"⟩] else [])
    ++ if j.requires k then [⟨j.id, k.id, .requires, "Must complete first"⟩] else []

/-- How the journeys with different ids relate to each other. -/
def relationships (journeys : List (Journey α)) : List JourneyRelationship :=
  journeys.flatMap fun j => (journeys.filter fun k => j.id != k.id).flatMap j.relationshipsTo

end Journey

end BusinessAtlas
