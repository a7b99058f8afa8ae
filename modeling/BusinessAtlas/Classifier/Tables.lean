import BusinessAtlas.Classifier.Basic

/-!
# The bundled tables

The heuristics by which names of components, features and journeys are read. Each is a first guess
that a project can replace by a table of its own.
-/

namespace BusinessAtlas.Classifier

private def table (rows : List (List String × String)) (fallback : Option String)
    (caseSensitive : Bool) : Classifier :=
  ⟨rows.map fun r => ⟨r.1, r.2⟩, fallback, caseSensitive⟩

/-- What a component is responsible for. -/
def responsibility : Classifier := table [
  (["list"], "Display and manage collection of items"),
  (["form"], "Collect and validate user input"),
  (["dashboard"], "Provide overview and key metrics"),
  (["profile"], "Display and manage user information"),
  (["header"], "Provide navigation and app context"),
  (["footer"], "Display supplementary information"),
  (["modal", "dialog"], "Present focused interaction"),
  (["button"], "Trigger user actions"),
  (["input"], "Accept user input"),
  (["card"], "Display grouped information")] none false

/-- The domain of a feature. Case counts, so that `UI` is not found in `build`. -/
def featureDomain : Classifier := table [
  (["User", "Auth"], "User Management"),
  (["Todo", "Task"], "Task Management"),
  (["Dashboard", "Analytics"], "Analytics"),
  (["UI", "Infrastructure"], "Infrastructure")] (some "General") true

def dataFlowCluster : Classifier := table [
  (["todo", "task"], "Task Management"),
  (["user", "profile"], "User Management"),
  (["dashboard"], "Analytics")] (some "General") false

/-- The name of the journey that starts at a component. -/
def journeyName : Classifier := table [
  (["Login"], "User Login Journey"),
  (["Register"], "User Registration Journey"),
  (["TodoList"], "Task Management Journey"),
  (["Dashboard"], "Dashboard Overview Journey"),
  (["Profile"], "Profile Management Journey"),
  (["CreateTodo"], "Task Creation Journey"),
  (["Settings"], "Settings Configuration Journey")] none true

/-- The goal of the journey that starts at a component without a mapping. -/
def journeyGoal : Classifier := table [
  (["create"], "Create a new item"),
  (["edit"], "Edit existing item"),
  (["delete"], "Remove an item"),
  (["list"], "View and manage items"),
  (["dashboard"], "Get overview of system state"),
  (["profile"], "Manage user information")] (some "Complete user task") false

/-- What a journey with that goal is worth. -/
def journeyValue : Classifier := table [
  (["create", "add"],
    "Enables users to add new data to the system, expanding business capabilities"),
  (["manage", "edit"], "Provides control and flexibility over business data"),
  (["view", "overview"], "Offers insights and visibility into business operations"),
  (["delete", "remove"], "Maintains data hygiene and system efficiency")]
  (some "Supports business operations and user productivity") false

def dataOperation : Classifier := table [
  (["create", "add"], "create"),
  (["edit", "update"], "update"),
  (["delete", "remove"], "delete"),
  (["validate"], "validate")] (some "read") false

/-- The entity that a component works on. -/
def dataEntity : Classifier := table [
  (["todo", "task"], "Task"),
  (["user"], "User"),
  (["profile"], "Profile")] (some "data") false

/-- The kind of entry point that a component is. -/
def entryPoint : Classifier := table [
  (["page", "view", "screen", "dashboard", "home"], "route"),
  (["form"], "form"),
  (["list"], "list")] none false

end BusinessAtlas.Classifier
