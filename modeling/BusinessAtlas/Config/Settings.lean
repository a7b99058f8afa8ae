import BusinessAtlas.Json.Access

/-!
# Settings

The settings of a run and how they are laid over the defaults. Settings that are not checked against
their shape may hold any value, so a leaf is kept as a value and each use says what it needs; only a
section that is no record is refused.
-/

namespace BusinessAtlas

/-- The numbers that place the nodes. -/
structure Layout (β : Type) where
  totalWidth : β
  levelGap : β
  leftMargin : β
  topMargin : β

/-- What is exported and how. -/
structure ExportSettings where
  formats : Json
  includeMetadata : Json
  includePositions : Json
  prettyPrint : Json

/-- All settings of a run. -/
structure Config where
  title : Json
  description : Json
  layout : Layout Json
  exports : ExportSettings
  collapseThreshold : Json
  logLevel : Json

namespace Config

/-- The settings that hold where a file says nothing. -/
def defaults : Json :=
  .record [
    ("graph", .record [
      ("title", .text "Business Context Graph"),
      ("description", .text "Reverse-engineered business context from codebase")]),
    ("layout", .record [
      ("total_width", .int 1000),
      ("level_gap", .int 150),
      ("left_margin", .int 100),
      ("top_margin", .int 100)]),
    ("clusters", .record [("feature_collapse_threshold", .int 5)]),
    ("export", .record [
      ("formats", .texts ["json", "cytoscape", "d3"]),
      ("include_metadata", .bool true),
      ("include_positions", .bool true),
      ("pretty_print", .bool true)]),
    ("logging", .record [("level", .text "INFO")])]

def declaredFormats : List String := ["json", "cytoscape", "d3", "graphml", "gexf", "vis"]

def schema : Json.Schema :=
  let object (fields : List (String × List Json.Check)) : List Json.Check :=
    [.kinds [.object], .fields fields]
  [.kinds [.object], .fields [
    ("graph", object [("title", [.kinds [.string]]), ("description", [.kinds [.string]])]),
    ("layout", object [
      ("total_width", [.kinds [.number], .above (.int 0)]),
      ("level_gap", [.kinds [.number], .above (.int 0)]),
      ("left_margin", [.kinds [.number], .atLeast (.int 0)]),
      ("top_margin", [.kinds [.number], .atLeast (.int 0)])]),
    ("clusters", object [
      ("feature_collapse_threshold", [.kinds [.integer], .atLeast (.int 0)])]),
    ("export", object [
      ("formats", [.kinds [.array], .items [.oneOf (declaredFormats.map .text)]]),
      ("include_metadata", [.kinds [.boolean]]),
      ("include_positions", [.kinds [.boolean]]),
      ("pretty_print", [.kinds [.boolean]])]),
    ("logging", object [
      ("level", [.oneOf (["DEBUG", "INFO", "WARNING", "ERROR", "CRITICAL"].map .text)])])]]

mutual

/-- A value laid over another one: records field by field, anything else as a whole. -/
def overlay : Json → Json → Json
  | .record base, .record upper => .record (overlayFields base upper)
  | _, upper => upper

/-- Fields laid over others. The result has the fields of the base, in its order; a field that the
base does not have is left out. -/
def overlayFields (base : List (String × Json)) : List (String × Json) → List (String × Json)
  | [] => base
  | (k, v) :: rest =>
    match Json.lookup k base with
    | some old => overlayFields (Json.put k (overlay old v) base) rest
    | none => overlayFields base rest

end

/-- Settings laid over a base. A vacant value changes nothing. -/
def merge (base upper : Json) : Except Fault Json :=
  match base, upper.orElse (.record []) with
  | .record base, .record upper => .ok (.record (overlayFields base upper))
  | _, _ => .error .notRecord

/-- The settings that a record of sections holds. -/
def ofSections (v : Json) : Except Fault Config := do
  let leaf (part key : String) : Except Fault Json :=
    match v.field? part with
    | some (.record fields) => .ok ((Json.lookup key fields).getD .null)
    | _ => .error .notSection
  return {
    title := ← leaf "graph" "title"
    description := ← leaf "graph" "description"
    layout := {
      totalWidth := ← leaf "layout" "total_width"
      levelGap := ← leaf "layout" "level_gap"
      leftMargin := ← leaf "layout" "left_margin"
      topMargin := ← leaf "layout" "top_margin" }
    exports := {
      formats := ← leaf "export" "formats"
      includeMetadata := ← leaf "export" "include_metadata"
      includePositions := ← leaf "export" "include_positions"
      prettyPrint := ← leaf "export" "pretty_print" }
    collapseThreshold := ← leaf "clusters" "feature_collapse_threshold"
    logLevel := ← leaf "logging" "level" }

/-- Reads settings, with the defaults where they say nothing. -/
def ofJson (v : Json) : Except Fault Config := do ofSections (← merge defaults v)

/-- The settings of a run without a file. -/
def default : Config where
  title := .text "Business Context Graph"
  description := .text "Reverse-engineered business context from codebase"
  layout := ⟨.int 1000, .int 150, .int 100, .int 100⟩
  exports := ⟨.texts ["json", "cytoscape", "d3"], .bool true, .bool true, .bool true⟩
  collapseThreshold := .int 5
  logLevel := .text "INFO"

instance : Inhabited Config := ⟨default⟩

end Config

end BusinessAtlas
