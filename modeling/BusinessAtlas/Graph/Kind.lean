import BusinessAtlas.Json.Basic

/-!
# Kinds of nodes and edges

What the nodes and edges of the business graph can be, how each kind is called and drawn, and on
which level of the drawing the nodes of a kind stand.
-/

namespace BusinessAtlas

/-- The kinds of node. Nothing produces the last two yet; their level is kept for them. -/
inductive NodeKind where
  | story
  | capability
  | feature
  | component
  | entity
  | journey
  | rule
  | persona
  | endpoint
  | integration
  deriving DecidableEq

/-- The kinds of edge. -/
inductive EdgeKind where
  | implements
  | uses
  | dependsOn
  | extendsOther
  | triggers
  | validates
  | transforms
  | navigatesTo
  | belongsTo
  | requires
  deriving DecidableEq

/-- A name with underscores as a title: a blank for each of them, a capital at the start of a
word. -/
def titled (name : String) : String := .ofList (go true name.toList)
where
  /-- The rest of a title, at the start of a word or inside it. -/
  go (start : Bool) : List Char → List Char
    | [] => []
    | '_' :: cs => ' ' :: go true cs
    | c :: cs => (if start then c.toUpper else c) :: go false cs

namespace NodeKind

/-- All kinds, in the order of the legend. -/
def all : List NodeKind :=
  [story, capability, feature, component, entity, journey, rule, persona, endpoint, integration]

theorem mem_all (k : NodeKind) : k ∈ all := by cases k <;> simp [all]

def name : NodeKind → String
  | story => "user_story"
  | capability => "business_capability"
  | feature => "business_feature"
  | component => "component"
  | entity => "data_entity"
  | journey => "user_journey"
  | rule => "business_rule"
  | persona => "user_persona"
  | endpoint => "api_endpoint"
  | integration => "integration_point"

def ofName? (s : String) : Option NodeKind := all.find? (·.name == s)

@[simp] theorem ofName?_name (k : NodeKind) : ofName? k.name = some k := by
  cases k <;> simp [ofName?, all, name]

def icon : NodeKind → String
  | story => "story"
  | capability => "capability"
  | feature => "feature"
  | component => "component"
  | entity => "database"
  | journey => "journey"
  | rule => "rule"
  | persona => "user"
  | endpoint => "api"
  | integration => "integration"

def level : NodeKind → Nat
  | persona => 0
  | journey => 1
  | story => 2
  | capability | feature => 3
  | component => 4
  | entity | rule => 5
  | endpoint | integration => 6

def levels : Nat := 7

theorem level_lt (k : NodeKind) : k.level < levels := by cases k <;> decide

def color : NodeKind → String
  | story | feature => "#3498DB"
  | capability | persona => "#27AE60"
  | component => "#E67E22"
  | entity => "#4A90E2"
  | journey => "#9B59B6"
  | rule => "#E74C3C"
  | endpoint => "#F39C12"
  | integration => "#95A5A6"

def description : NodeKind → String
  | story => "User requirements and features"
  | capability => "High-level business functions"
  | feature => "Features grouping components by capability"
  | component => "UI/Code components"
  | entity => "Data models and entities"
  | journey => "User interaction flows"
  | rule => "Validation and business logic"
  | persona => "Types of application users"
  | endpoint => "Backend endpoints"
  | integration => "External system integrations"

end NodeKind

namespace EdgeKind

/-- All kinds, in the order of the legend. -/
def all : List EdgeKind :=
  [implements, uses, dependsOn, extendsOther, triggers, validates, transforms, navigatesTo,
    belongsTo, requires]

theorem mem_all (k : EdgeKind) : k ∈ all := by cases k <;> simp [all]

def name : EdgeKind → String
  | implements => "implements"
  | uses => "uses"
  | dependsOn => "depends_on"
  | extendsOther => "extends"
  | triggers => "triggers"
  | validates => "validates"
  | transforms => "transforms"
  | navigatesTo => "navigates_to"
  | belongsTo => "belongs_to"
  | requires => "requires"

def ofName? (s : String) : Option EdgeKind := all.find? (·.name == s)

@[simp] theorem ofName?_name (k : EdgeKind) : ofName? k.name = some k := by
  cases k <;> simp [ofName?, all, name]

def description : EdgeKind → String
  | implements => "Component implements story/feature"
  | uses => "Component uses entity/service"
  | dependsOn => "Feature dependency relationship"
  | extendsOther => "Extension of another element"
  | triggers => "Action triggers another element"
  | validates => "Rule validates entity"
  | transforms => "Data transformation flow"
  | navigatesTo => "Journey leads to another journey"
  | belongsTo => "Story belongs to capability"
  | requires => "Journey must complete first"

end EdgeKind

/-- What the colours, icons and names of a drawing mean. -/
def legend : Json :=
  .list (NodeKind.all.map (fun k =>
      .record [("type", .text "node"), ("category", .text (titled k.name)),
        ("color", .text k.color), ("icon", .text k.icon), ("description", .text k.description)])
    ++ EdgeKind.all.map fun k =>
      .record [("type", .text "edge"), ("category", .text (titled k.name)),
        ("description", .text k.description)])

def viewOptions : Json :=
  .record [("layout", .text "hierarchical"), ("show_labels", .bool true),
    ("show_metrics", .bool false), ("highlight_critical_paths", .bool true),
    ("collapse_threshold", .int 10)]

end BusinessAtlas
