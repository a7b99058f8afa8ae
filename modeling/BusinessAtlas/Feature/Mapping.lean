import BusinessAtlas.Json.Basic

/-!
# Component mappings

What a component means in business terms: its kind and purpose, the interactions it offers and the
data that goes through it.
-/

namespace BusinessAtlas

/-- The kinds of component. A mapping from elsewhere may bring a kind of its own. -/
inductive ComponentKind where
  | functional
  | presentational
  | container
  | hybrid
  | other (name : String)
  deriving DecidableEq

namespace ComponentKind

def name : ComponentKind → String
  | functional => "functional"
  | presentational => "presentational"
  | container => "container"
  | hybrid => "hybrid"
  | other name => name

def ofName (s : String) : ComponentKind :=
  if s == "functional" then functional
  else if s == "presentational" then presentational
  else if s == "container" then container
  else if s == "hybrid" then hybrid
  else other s

@[simp] theorem name_ofName (s : String) : (ofName s).name = s := by
  unfold ofName
  repeat' split
  all_goals simp_all [name]

end ComponentKind

/-- The kinds of interaction. -/
inductive PatternKind where
  | userInput
  | display
  | navigation
  | stateManagement
  | apiCall
  | other (name : String)
  deriving DecidableEq

namespace PatternKind

def name : PatternKind → String
  | userInput => "user_input"
  | display => "display"
  | navigation => "navigation"
  | stateManagement => "state_management"
  | apiCall => "api_call"
  | other name => name

def ofName (s : String) : PatternKind :=
  if s == "user_input" then userInput
  else if s == "display" then display
  else if s == "navigation" then navigation
  else if s == "state_management" then stateManagement
  else if s == "api_call" then apiCall
  else other s

end PatternKind

/-- An interaction that a component offers. -/
structure Pattern where
  kind : PatternKind
  description : String
  triggers : List String
  outcomes : List String
  deriving DecidableEq

/-- Data that comes into a component. -/
structure DataSource where
  source : String
  kind : Json
  purpose : String

/-- What a component does to its data. -/
structure Transformation where
  operation : String
  logic : String
  validation : List String
  deriving DecidableEq

/-- Data that a component hands on. -/
structure DataSink where
  destination : String
  kind : String
  effect : String
  deriving DecidableEq

/-- The data that goes through a component. -/
structure DataPath where
  inputs : List DataSource
  transformations : List Transformation
  outputs : List DataSink
  sideEffects : List String

/-- A component in business terms. -/
structure Mapping where
  name : String
  kind : ComponentKind
  responsibility : String
  purpose : String
  patterns : List Pattern
  data : DataPath

namespace Mapping

/-- Whether the component offers an interaction of the kind. -/
def hasPattern (kind : PatternKind) (m : Mapping) : Bool := m.patterns.any (·.kind == kind)

end Mapping

def findMapping (name : String) : List Mapping → Option Mapping
  | [] => none
  | m :: rest => if m.name == name then some m else findMapping name rest

/-- A table with a mapping set: in its place if its name is there, at the end if it is new. -/
def putMapping (m : Mapping) : List Mapping → List Mapping
  | [] => [m]
  | k :: rest => if k.name == m.name then m :: rest else k :: putMapping m rest

@[simp] theorem findMapping_putMapping_self (m : Mapping) (table : List Mapping) :
    findMapping m.name (putMapping m table) = some m := by
  induction table with
  | nil => simp [putMapping, findMapping]
  | cons k rest ih => by_cases h : k.name == m.name <;> simp [putMapping, findMapping, h, ih]

section

variable {name : String} {m : Mapping} {table : List Mapping}

theorem name_of_findMapping (h : findMapping name table = some m) : m.name = name := by
  induction table with
  | nil => cases h
  | cons k rest ih =>
    by_cases hk : k.name == name
    · rw [findMapping, if_pos hk] at h
      cases h
      exact eq_of_beq hk
    · rw [findMapping, if_neg hk] at h
      exact ih h

theorem mem_of_findMapping (h : findMapping name table = some m) : m ∈ table := by
  induction table with
  | nil => cases h
  | cons k rest ih =>
    by_cases hk : k.name == name
    · rw [findMapping, if_pos hk] at h
      cases h
      exact List.mem_cons_self
    · rw [findMapping, if_neg hk] at h
      exact List.mem_cons_of_mem _ (ih h)

theorem findMapping_eq_none_iff : findMapping name table = none ↔ name ∉ table.map (·.name) := by
  induction table with
  | nil => simp [findMapping]
  | cons k rest ih =>
    by_cases hk : k.name = name
    · simp [findMapping, hk]
    · rw [findMapping, if_neg (by simpa using hk), ih, List.map_cons, List.mem_cons, not_or]
      exact ⟨fun h => ⟨Ne.symm hk, h⟩, fun h => h.2⟩

theorem findMapping_eq_some_iff (hn : (table.map (·.name)).Nodup) :
    findMapping name table = some m ↔ m ∈ table ∧ m.name = name := by
  refine ⟨fun h => ⟨mem_of_findMapping h, name_of_findMapping h⟩, ?_⟩
  rintro ⟨hm, rfl⟩
  induction table with
  | nil => cases hm
  | cons k rest ih =>
    rw [List.map_cons, List.nodup_cons] at hn
    rcases List.mem_cons.mp hm with rfl | hm
    · rw [findMapping, if_pos (beq_self_eq_true _)]
    · have hk : k.name ≠ m.name := fun he => hn.1 (he ▸ List.mem_map_of_mem hm)
      rw [findMapping, if_neg (by simpa using hk)]
      exact ih hn.2 hm

theorem map_name_putMapping (m : Mapping) (table : List Mapping) :
    (putMapping m table).map (·.name) =
      table.map (·.name) ++ if m.name ∈ table.map (·.name) then [] else [m.name] := by
  induction table with
  | nil => simp [putMapping]
  | cons k rest ih =>
    by_cases hk : k.name = m.name
    · simp [putMapping, hk]
    · have hne : (k.name == m.name) = false := by simpa using hk
      simp only [putMapping, hne, Bool.false_eq_true, if_false, List.map_cons, ih, List.mem_cons,
        Ne.symm hk, false_or, List.cons_append]

theorem nodup_putMapping (m : Mapping) (h : (table.map (·.name)).Nodup) :
    ((putMapping m table).map (·.name)).Nodup := by
  rw [map_name_putMapping]
  by_cases hm : m.name ∈ table.map (·.name)
  · simpa [hm] using h
  · rw [if_neg hm, List.nodup_append]
    refine ⟨h, by simp, fun a ha b hb hab => hm ?_⟩
    rw [List.mem_singleton.mp hb] at hab
    exact hab ▸ ha

end

def Pattern.toJson (p : Pattern) : Json :=
  .record [("type", .text p.kind.name), ("description", .text p.description),
    ("triggers", .texts p.triggers), ("outcomes", .texts p.outcomes)]

def DataPath.toJson (d : DataPath) : Json :=
  .record [
    ("inputs", .list (d.inputs.map fun i =>
      .record [("source", .text i.source), ("data_type", i.kind), ("purpose", .text i.purpose)])),
    ("transformations", .list (d.transformations.map fun t =>
      .record [("operation", .text t.operation), ("business_logic", .text t.logic),
        ("validation", .texts t.validation)])),
    ("outputs", .list (d.outputs.map fun o =>
      .record [("destination", .text o.destination), ("data_type", .text o.kind),
        ("effect", .text o.effect)])),
    ("side_effects", .texts d.sideEffects)]

def Mapping.toJson (m : Mapping) : Json :=
  .record [("component_name", .text m.name), ("component_type", .text m.kind.name),
    ("responsibility", .text m.responsibility), ("business_purpose", .text m.purpose),
    ("interaction_patterns", .list (m.patterns.map Pattern.toJson)),
    ("data_flow", m.data.toJson)]

end BusinessAtlas
