import BusinessAtlas.Classifier.Tables
import BusinessAtlas.Facts.Project
import BusinessAtlas.Feature.Mapping
import BusinessAtlas.Journey.Basic

/-!
# Where journeys start

Which components start a journey, and what the name of such a component says about the journey: its
id and name, its goal, who goes on it and what starts it.
-/

namespace BusinessAtlas

/-- The tables by which journeys are read. -/
structure JourneyTables where
  entry : Classifier
  name : Classifier
  goal : Classifier
  value : Classifier
  operation : Classifier
  entity : Classifier
  cluster : Classifier

def JourneyTables.bundled : JourneyTables :=
  ⟨.entryPoint, .journeyName, .journeyGoal, .journeyValue, .dataOperation, .dataEntity,
    .dataFlowCluster⟩

/-- Where journeys are looked for: the project, its components in business terms, and the tables. -/
structure Terrain where
  project : Project
  mappings : List Mapping
  tables : JourneyTables

namespace Terrain

/-- The mapping of the component that a value names. -/
def mapping? (t : Terrain) (name : Json) : Except Fault (Option Mapping) := do
  match ← name.asIdent with
  | .text s => return findMapping s t.mappings
  | _ => return none

/-- A route starts a journey, and so does a form or list that no other component contains. -/
def isEntryPoint (t : Terrain) (c : Component) : Except Fault Bool := do
  match ← t.tables.entry.classifyValue c.name with
  | some "route" => return true
  | some "form" | some "list" => return !t.project.hasParent c
  | _ => return false

def entryPoints (t : Terrain) : Except Fault (List Component) := do
  let marked ← t.project.components.mapM fun c => return (c, ← t.isEntryPoint c)
  return (marked.filter (·.2)).map (·.1)

theorem mem_entryPoints {t : Terrain} {entries : List Component} (h : t.entryPoints = .ok entries)
    {c : Component} : c ∈ entries ↔ c ∈ t.project.components ∧ t.isEntryPoint c = .ok true := by
  obtain ⟨marked, hmarked, h⟩ := bind_eq_ok.mp h
  cases h
  have hmark (b : Bool) : (c, b) ∈ marked ↔ c ∈ t.project.components ∧ t.isEntryPoint c = .ok b := by
    rw [mem_of_mapM hmarked]
    constructor
    · rintro ⟨d, hd, hstep⟩
      obtain ⟨b', hb, hpair⟩ := bind_eq_ok.mp hstep
      cases hpair
      exact ⟨hd, hb⟩
    · rintro ⟨hc, hb⟩
      exact ⟨c, hc, bind_eq_ok.mpr ⟨b, hb, rfl⟩⟩
  rw [List.mem_map, ← hmark]
  constructor
  · rintro ⟨⟨d, b⟩, hd, rfl⟩
    obtain ⟨hd, hb⟩ := List.mem_filter.mp hd
    cases hb
    exact hd
  · intro hc
    exact ⟨(c, true), List.mem_filter.mpr ⟨hc, rfl⟩, rfl⟩

def journeyName (t : Terrain) (c : Component) : Except Fault String := do
  let named := c.name.shown ++ " User Journey"
  match ← t.tables.name.classifyValue c.name with
  | some name => return if name.isEmpty then named else name
  | none => return named

/-- The goal of the journey that starts at a component: the purpose of the component, or else what
its name says. -/
def journeyGoal (t : Terrain) (c : Component) : Except Fault (Option String) := do
  match ← t.mapping? c.name with
  | some m => return some m.purpose
  | none => t.tables.goal.classifyValue c.name

end Terrain

def Binding.knowsUser (b : Binding) : Except Fault Bool := do
  if ← b.name.hasWord "useUser" then return true else b.name.hasWord "useAuth"

def Binding.anyKnowsUser : List Binding → Except Fault Bool
  | [] => .ok false
  | b :: rest => do
    if ← b.knowsUser then return true else anyKnowsUser rest

def signedInPersona : String := "authenticated-user"

def signedInCondition : String := "User is authenticated"

namespace Component

/-- Who goes on the journey that starts at the component. -/
def persona (c : Component) : Except Fault String := do
  if ← Binding.anyKnowsUser c.bindings then return signedInPersona
  let name ← c.name.asText
  return if Text.occurs "admin" (Text.lower name) then "admin-user" else "guest-user"

/-- What starts the journey at a component of that name. -/
def triggerNamed (name : String) : Trigger :=
  let lowered := Text.lower name
  if Text.occurs "dashboard" lowered || Text.occurs "home" lowered then
    ⟨"user_action", "User navigates to dashboard", name,
      [signedInCondition, "Application is loaded"]⟩
  else if Text.occurs "form" lowered then
    ⟨"user_action", "User initiates form interaction", name,
      ["Form is accessible", "User has necessary permissions"]⟩
  else ⟨"user_action", "User accesses " ++ name, name, []⟩

def trigger (c : Component) : Except Fault Trigger := do
  return triggerNamed (← c.name.asText)

end Component

/-- The id that is tried after `n` others. -/
def idCandidate (base : String) (n : Nat) : String :=
  if n == 0 then base else base ++ "-" ++ toString (n + 1)

/-- The first of the ids `base`, `base-2`, `base-3` and so on that is not taken. One more candidate
than there are ids to avoid is enough. -/
def freeId (taken : List String) (base : String) : String :=
  (((List.range (taken.length + 1)).map (idCandidate base)).find? fun id =>
    !taken.contains id).getD base

/-- The id of the journey that starts at a component, given the ids that are taken. -/
def journeyId (taken : List String) (c : Component) : Except Fault String := do
  return freeId taken ("journey-" ++ Text.lower (← c.name.asText))

end BusinessAtlas
