import BusinessAtlas.Atlas
import BusinessAtlas.Report.Table

/-!
# The output bundle

The files that a run writes, in the order in which it writes them: the context, the mappings and the
journeys, the graph in every format that the settings name, the network, the analysis if there is
one, and the report about all of them, which is a Markdown document for people.
-/

namespace BusinessAtlas

/-- The files that a run can write. -/
inductive OutputFile where
  | context
  | mapping
  | journeys
  | graph (format : ExportFormat)
  | network
  | analysis
  | report
  deriving DecidableEq

namespace OutputFile

def name : OutputFile → String
  | context => "business-context.json"
  | mapping => "component-mapping.json"
  | journeys => "user-journeys.json"
  | graph .json => "business-graph.json"
  | graph .cytoscape => "business-graph-cytoscape.json"
  | graph .d3 => "business-graph-d3.json"
  | network => "business-graph-node-link.json"
  | analysis => "graph-analysis.json"
  | report => "business-report.md"

def all : List OutputFile :=
  [context, mapping, journeys, graph .json, graph .cytoscape, graph .d3, network, analysis, report]

def description : OutputFile → String
  | context => "Business context as consumed by the pipeline"
  | mapping => "Component to business feature mappings"
  | journeys => "User journey definitions and data flows"
  | graph .json => "Full graph representation"
  | graph .cytoscape => "Graph formatted for Cytoscape visualization"
  | graph .d3 => "Graph formatted for D3.js visualization"
  | network => "NetworkX node-link representation"
  | analysis => "Centrality, communities, cycles and coverage gaps"
  | report => "This report"

/-- What is said about a file of that name; nothing about a file that no run writes. -/
def describe (name : String) : String :=
  ((all.find? (·.name == name)).map description).getD ""

end OutputFile

namespace Report

def item (s : String) : String := "- " ++ s ++ "\n"

def subitem (s : String) : String := "  - " ++ s ++ "\n"

def number (n : Nat) : String := toString n

def shownStories : Nat := 5

/-- How many goals of a persona are shown. -/
def shownGoals : Nat := 3

def head (a : Atlas) (source : String) : String :=
  "# Business Context Report\n\nGenerated: " ++ a.graph.generatedAt.spaced
    ++ "\nSource: " ++ source
    ++ "\n\n## Executive Summary\n\n" ++ number a.sources.features.mappings.length
    ++ " components mapped to " ++ number a.sources.features.features.length
    ++ " business features\nin " ++ number a.sources.features.domains.length ++ " domains; "
    ++ number a.sources.journeys.journeys.length ++ " user journeys traced.\n"

def story (s : Story Number) : String :=
  item ("**" ++ s.title.shown ++ "** (" ++ s.priority.shown ++ " priority, "
      ++ (s.confidence.mul (.int 100)).fixed 0 ++ "% confidence)")
    ++ (if s.description.isVacant then "" else subitem s.description.shown)
    ++ subitem ("Acceptance Criteria: " ++ number s.criteria.length ++ " items")

def stories (ss : List (Story Number)) : String :=
  "\n## User Stories (" ++ number ss.length ++ " total)\n\n"
    ++ String.join ((ss.take shownStories).map story)
    ++ if shownStories < ss.length then
      item ("... and " ++ number (ss.length - shownStories) ++ " more") else ""

def capabilities (cs : List Capability) : Except Fault String := do
  return "\n## Business Capabilities (" ++ number cs.length ++ " total)\n\n"
    ++ (← Table.text ["Capability", "Value", "Operations", "Components"]
      (cs.map fun c => [c.name, c.value, .nat c.operations.length, .nat c.components.length]))

def features (fs : List (Feature Number)) : Except Fault String := do
  let table ← Table.text
    ["Feature", "Category", "Value", "Complexity", "Components", "Stories", "Est. Lines"]
    (fs.map fun f => [f.name, .text f.category.name, .nat f.value, .nat f.complexity,
      .nat f.components.length, .nat f.stories.length, .nat f.metrics.codeLines])
  let shared := fs.flatMap fun f => f.shared.map fun name =>
    item ("\x60" ++ name ++ "\x60 also referenced by " ++ f.name.shown)
  return "\n## Business Features (" ++ number fs.length ++ " total)\n\n" ++ table
    ++ if shared.isEmpty then ""
      else "\nComponents referenced by more than one capability (owned by the first):\n\n"
        ++ String.join shared

def journey (j : Journey Number) : String :=
  "\n### " ++ j.name ++ "\n\n" ++ item ("**Goal**: " ++ (Json.text? j.goal).shown)
    ++ item ("**Trigger**: " ++ j.trigger.description)
    ++ item ("**Components**: " ++ ", ".intercalate j.components)

def journeys (m : JourneyMap Number) : Except Fault String := do
  let table ← Table.text
    ["Journey", "Persona", "Steps", "Duration (s)", "Complexity", "User Effort"]
    (m.journeys.map fun j => [.text j.name, .text j.persona, .nat j.steps.length,
      .number j.metrics.duration, .text (j.metrics.complexity.fixed 1 ++ "/10"),
      .text (number j.metrics.effort ++ "/10")])
  return "\n## User Journeys (" ++ number m.journeys.length ++ " total)\n\n" ++ table
    ++ String.join (m.journeys.map journey)
    ++ if m.patterns.isEmpty then ""
      else "\n### Common Patterns\n\n" ++ String.join (m.patterns.map fun p =>
        item ("**" ++ p.name ++ "** (" ++ number p.occurrences.length ++ " journeys): "
          ++ p.purpose))

def persona (p : Persona) : Except Fault String := do
  let first := item ("**" ++ p.name.shown ++ "**: " ++ p.description.shown)
  if p.goals.isEmpty then return first
  return first ++ subitem ("Goals: " ++ (← Json.joinTexts ", " (p.goals.take shownGoals)))

def personas (ps : List Persona) : Except Fault String := do
  let parts ← ps.mapM persona
  return "\n## User Personas (" ++ number ps.length ++ " total)\n\n" ++ String.join parts
    ++ if ps.isEmpty then "No personas provided.\n" else ""

def entities (es : List Entity) : Except Fault String := do
  return "\n## Data Model (" ++ number es.length ++ " entities)\n\n"
    ++ (← Table.text ["Entity", "Purpose", "Attributes", "Operations"]
      (es.map fun e =>
        [e.name, e.purpose, .nat e.attributes.length, .nat e.operations.length]))

/-- A table of counts, sorted by their names. -/
def counts (headers : List String) (cs : List (String × Nat)) : Except Fault String :=
  Table.text headers ((cs.mergeSort fun a b => !decide (b.1 < a.1)).map fun c =>
    [.text c.1, .nat c.2])

def statistics (s : Statistics Number) : Except Fault String := do
  return "\n## Graph Analysis\n\n### Network Statistics\n\n"
    ++ item ("**Total Nodes**: " ++ number s.nodes)
    ++ item ("**Total Edges**: " ++ number s.edges)
    ++ item ("**Graph Density**: " ++ (s.density.mul (.int 100)).fixed 2 ++ "%")
    ++ item ("**Average Connectivity**: " ++ s.averageConnectivity.fixed 2)
    ++ item ("**Clusters**: " ++ number s.clusters)
    ++ item ("**Isolated Nodes**: " ++ number s.isolated)
    ++ "\n### Node Distribution\n\n"
    ++ (← counts ["Node Type", "Count"] (s.nodesByKind.map fun c => (c.1.name, c.2)))
    ++ "\n### Edge Distribution\n\n"
    ++ (← counts ["Edge Type", "Count"] (s.edgesByKind.map fun c => (c.1.name, c.2)))

def analysis (a : Analysis) : Except Fault String := do
  let gaps := "\n### Coverage Gaps (" ++ number a.totalGaps ++ " total)\n\n"
    ++ (← counts ["Gap Type", "Count"] ((gapCounts a.gaps).map fun c => (c.1.name, c.2)))
  let top := a.topBy .betweenness
  if top.isEmpty then return gaps
  return gaps ++ "\n### Most Central Elements (betweenness)\n\n"
    ++ (← Table.text ["Node", "Score"]
      (top.map fun s => [s.1.toJson, .text (s.2.fixed 3)]))

def domain (d : Domain) : Except Fault String := do
  return "\n### " ++ d.name ++ "\n\n" ++ item ("Features: " ++ number d.features.length)
    ++ item ("Core Components: " ++ number d.core.length)
    ++ item ("Boundary Components: " ++ number d.boundary.length)
    ++ item ("Vocabulary: " ++ (← Json.joinTexts ", " (d.vocabulary.map (·.word))))

def domains (ds : List Domain) : Except Fault String := do
  return "\n## Business Domains\n" ++ String.join (← ds.mapM domain)

def files (names : List String) : String :=
  if names.isEmpty then ""
  else "\n## Files Generated\n\n" ++ String.join (names.map fun n =>
    item ("\x60" ++ n ++ "\x60: " ++ OutputFile.describe n))

end Report

namespace Atlas

/-- The report about an atlas: where its facts come from and the names of the files that are written
are shown in it. -/
def report (a : Atlas) (source : String) (names : List String) : Except Fault String := do
  let capabilities ← Report.capabilities a.sources.context.capabilities
  let features ← Report.features a.sources.features.features
  let journeys ← Report.journeys a.sources.journeys
  let personas ← Report.personas a.sources.context.personas
  let entities ← Report.entities a.sources.context.entities
  let statistics ← Report.statistics a.graph.statistics
  let analysis ← match a.analysis with
    | some found => Report.analysis found
    | none => pure ""
  let domains ← Report.domains a.sources.features.domains
  return Report.head a source ++ Report.stories a.sources.context.stories ++ capabilities
    ++ features ++ journeys ++ personas ++ entities ++ statistics ++ analysis ++ domains
    ++ Report.files names

end Atlas

/-- A file and its text. -/
structure WrittenFile where
  file : OutputFile
  text : String

namespace Atlas

/-- The formats that the settings name and that can be exported. A planned format is passed over, an
unknown one stops. -/
def exportFormats : List Json → Except Fault (List ExportFormat)
  | [] => .ok []
  | v :: rest => do
    match ExportFormat.ofJson v with
    | .ok f => return f :: (← exportFormats rest)
    | .error (.unsupportedFormat _) => exportFormats rest
    | .error fault => .error fault

/-- The files of an atlas, apart from the report. -/
def dataFiles (a : Atlas) (settings : ExportSettings) : Except Fault (List WrittenFile) := do
  let write (file : OutputFile) (v : Json) : WrittenFile :=
    ⟨file, v.render (!settings.prettyPrint.isVacant)⟩
  let formats ← exportFormats (← settings.formats.items)
  let metadata := !settings.includeMetadata.isVacant
  let positions := !settings.includePositions.isVacant
  return [write .context a.sources.context.toJson, write .mapping a.sources.features.toJson,
      write .journeys a.sources.journeys.toJson]
    ++ formats.map (fun f => write (.graph f) (a.graph.exported f metadata positions))
    ++ [write .network a.network.toJson]
    ++ (a.analysis.map fun found => write .analysis found.toJson).toList

def bundle (a : Atlas) (settings : ExportSettings) (source : String) :
    Except Fault (List WrittenFile) := do
  let files ← a.dataFiles settings
  let names := files.map (·.file.name) ++ [OutputFile.report.name]
  return files ++ [⟨.report, ← a.report source names⟩]

end Atlas

end BusinessAtlas
