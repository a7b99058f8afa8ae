import BusinessAtlas.Classifier.Tables
import BusinessAtlas.Facts.Project
import BusinessAtlas.Feature.Mapping
import BusinessAtlas.Text.Character

/-!
# Reading meaning from names

How a component fact becomes a mapping: its kind from its bindings and children, its responsibility
and purpose from its name, its interactions and data from its inputs, bindings and imports.
-/

namespace BusinessAtlas

/-- The bindings that hold local state. -/
def stateBindings : List String := ["useState", "useReducer"]

/-- The purposes of components that are known by name. -/
def knownPurposes : List (String × String) := [
  ("TodoList", "Enable task management and organization"),
  ("UserProfile", "Manage user identity and preferences"),
  ("Dashboard", "Provide business insights and overview"),
  ("CreateTodoForm", "Capture new task requirements"),
  ("Header", "Facilitate application navigation"),
  ("TodoItem", "Display and manage individual tasks"),
  ("UserAvatar", "Represent user identity visually"),
  ("RecentActivity", "Track and display user actions"),
  ("TodoSummary", "Provide task completion metrics")]

def knownInputPurposes : List (String × String) := [
  ("data", "Provide data for display"),
  ("items", "Supply collection for rendering"),
  ("value", "Current value or state"),
  ("onChange", "Handle value changes"),
  ("onSubmit", "Handle form submission"),
  ("onClick", "Handle user clicks"),
  ("loading", "Indicate loading state"),
  ("error", "Display error state"),
  ("disabled", "Control interaction availability")]

/-- A blank before every ASCII capital. -/
def spaceCapitals (cs : List Char) : List Char :=
  cs.flatMap fun c => if c.isUpper then [' ', c] else [c]

/-- A handler's name as words: `onToggleComplete` reads as `toggle complete`. -/
def humanizeEvent (name : String) : String :=
  let cs := match name.toList with
    | 'o' :: 'n' :: rest => rest
    | cs => cs
  Text.lower (.ofList (Text.trimChars Text.isBlank (spaceCapitals cs)))

/-- What an event leads to, read from its name. -/
def eventOutcomes (name : String) : List String :=
  if Text.occurs "Submit" name then ["Form submission", "Data validation", "API call"]
  else if Text.occurs "Click" name then ["State update", "Navigation", "Action trigger"]
  else if Text.occurs "Change" name then ["Input update", "Validation", "State change"]
  else []

def inputPurpose (name : String) : String :=
  (knownInputPurposes.lookup name).getD ("Support " ++ name ++ " functionality")

def isHandler (name : String) : Bool := Text.startsWith "on" name

namespace Component

/-- State, children and more than three bindings make a hybrid; state or many bindings alone a
container; children alone a presentational component. -/
def classify (c : Component) : ComponentKind :=
  let hasState := c.hasBinding stateBindings
  let hasChildren := !c.children.isEmpty
  let manyBindings := decide (3 < c.bindings.length)
  if hasState && hasChildren && manyBindings then .hybrid
  else if hasState || manyBindings then .container
  else if hasChildren then .presentational
  else .functional

/-- What the component is responsible for: what its name says, or else what its bindings say. -/
def responsibility (table : Classifier) (c : Component) : Except Fault String := do
  match ← table.classifyValue c.name with
  | some r =>
    if !r.isEmpty then return r
  | none => pure ()
  let names ← c.bindings.mapM fun b => return Text.lower (← b.name.asText)
  if names.any fun n => Text.occurs "fetch" n || Text.occurs "api" n then
    return "Manage data fetching and API interactions"
  else if c.hasBinding ["useContext"] then return "Consume and utilize shared application state"
  else return "Manage " ++ c.name.shown ++ " functionality"

def purpose (table : Classifier) (c : Component) : Except Fault String := do
  match ← c.name.choose (knownPurposes.map fun p => (p.1, some p.2)) none with
  | some p => return p
  | none => return "Support " ++ Text.lower (← c.responsibility table)

/-- The interactions that inputs with handlers stand for. -/
def inputPatterns (names : List String) : List Pattern :=
  (names.filter isHandler).map fun n =>
    ⟨.userInput, "Handle " ++ humanizeEvent n, [n], eventOutcomes n⟩

/-- The interactions that the component offers, given the names of its inputs and the imports it
sees, in lower case. -/
def patternsFrom (c : Component) (names imports : List String) : List Pattern :=
  let when (b : Bool) (p : Pattern) : List Pattern := if b then [p] else []
  inputPatterns names
    ++ when (names.any fun n => n == "data" || n == "items")
      ⟨.display, "Display data to user", ["Data prop change", "Component mount"],
        ["Render updated view", "Show information to user"]⟩
    ++ when (imports.any (Text.occurs "router"))
      ⟨.navigation, "Handle navigation between views", ["User click", "Programmatic navigation"],
        ["Route change", "View update"]⟩
    ++ when (c.hasBinding stateBindings)
      ⟨.stateManagement, "Manage component state", ["User interaction", "Data updates"],
        ["State change", "Re-render", "Side effects"]⟩
    ++ when (c.hasBinding ["useEffect"]
        && imports.any fun s => Text.occurs "api" s || Text.occurs "service" s)
      ⟨.apiCall, "Communicate with backend services",
        ["Component mount", "User action", "State change"],
        ["Data fetch", "Data mutation", "Error handling"]⟩

/-- The interactions that the component offers within its project. -/
def patterns (p : Project) (c : Component) : Except Fault (List Pattern) := do
  let imports ← (← p.visibleImports c).mapM fun s => return Text.lower (← s.asText)
  let names ← c.inputNames.mapM Json.asText
  return c.patternsFrom names imports

/-- The data that goes through the component, given its name and the names of its inputs. -/
def dataPathFrom (c : Component) (name : String) (names : List String) : DataPath :=
  let when {β : Type} (b : Bool) (x : β) : List β := if b then [x] else []
  { inputs :=
      (c.inputs.zip names).map (fun i =>
        ⟨"props", i.1.kind.orElse (.text "unknown"), inputPurpose i.2⟩)
      ++ when (c.hasBinding ["useState"])
        ⟨"state", .text "component state", "Maintain component-specific data"⟩
      ++ when (c.hasBinding ["useContext"])
        ⟨"context", .text "shared state", "Access application-wide data"⟩
    transformations :=
      when (c.hasBinding ["useMemo"]) ⟨"Memoization", "Optimize expensive computations", []⟩
      ++ when (Text.occurs "form" (Text.lower name))
        ⟨"Form validation", "Ensure data integrity",
          ["Required fields", "Format validation", "Business rules"]⟩
    outputs :=
      when (names.any isHandler) ⟨"event", "user action", "Trigger parent component handler"⟩
      ++ when (c.hasBinding ["useState"])
        ⟨"state_update", "state mutation", "Update component state and trigger re-render"⟩
    sideEffects :=
      when (c.hasBinding ["useEffect"]) "Perform side effects on state/prop changes" }

/-- The data that goes through the component. -/
def dataPath (c : Component) : Except Fault DataPath := do
  let names ← c.inputNames.mapM Json.asText
  return c.dataPathFrom (← c.name.asText) names

def toMapping (p : Project) (table : Classifier) (c : Component) : Except Fault Mapping := do
  let responsibility ← c.responsibility table
  let purpose ← c.purpose table
  let patterns ← c.patterns p
  let data ← c.dataPath
  return ⟨← c.name.asText, c.classify, responsibility, purpose, patterns, data⟩

end Component

end BusinessAtlas
