import BusinessAtlas.Bundle
import BusinessAtlas.CommandLine.Arguments
import BusinessAtlas.Document

/-!
# Sessions

One call of the program, from its arguments and what it finds on the disk to what it shows, the
files that it writes and the status that it ends with. Settings and facts that are not as they
should be end the call with a complaint and the status 1; any other fault is not handled here.
-/

namespace BusinessAtlas

/-- How a call ends. -/
inductive Ending where
  /-- The arguments were not followed. -/
  | stopped (stop : Stop)
  /-- The settings or the facts were refused. -/
  | refused (fault : Fault)
  /-- The files were written to the directory. -/
  | written (directory : String) (files : List WrittenFile)

/-- What a call shows, line by line, and how it ends. -/
structure Session where
  shown : List String
  ending : Ending

/-- The settings with what the options say laid over them. -/
def Options.adjust (a : Options) (c : Config) : Config :=
  let exports : ExportSettings :=
    { formats := (a.formats.map Json.texts).getD c.exports.formats
      includeMetadata := if a.noMetadata then .bool false else c.exports.includeMetadata
      includePositions := if a.noPositions then .bool false else c.exports.includePositions
      prettyPrint := if a.compact then .bool false else c.exports.prettyPrint }
  { c with exports := exports }

namespace Session

def status (s : Session) : Nat :=
  match s.ending with
  | .stopped stop => stop.status
  | .refused _ => 1
  | .written _ _ => 0

def output (s : Session) : String := String.join (s.shown.map (· ++ "\n"))

/-- The complaint about what was refused. -/
def complaint (s : Session) : String :=
  match s.ending with
  | .refused fault => "ERROR: " ++ fault.message ++ "\n"
  | _ => ""

/-- The files that are written, each with its path. -/
def files (s : Session) : List (String × String) :=
  match s.ending with
  | .written directory files => files.map fun f => (Path.inside directory f.file.name, f.text)
  | _ => []

private def item (s : String) : String := "  - " ++ s

/-- What is shown before the facts are read. -/
def opening (factsPath : String) : List String := ["Loading facts from " ++ factsPath ++ "..."]

def factsLines (p : Project) (c : Context Number) : List String :=
  ["Found " ++ toString p.components.length ++ " components, "
    ++ toString c.capabilities.length ++ " capabilities, "
    ++ toString c.stories.length ++ " user stories", "", "Building business graph..."]

def atlasLines (a : Atlas) : List String :=
  let statistics := a.graph.statistics
  [item (toString a.sources.features.features.length ++ " business features in "
      ++ toString a.sources.features.domains.length ++ " domains"),
    item (toString a.sources.journeys.journeys.length ++ " user journeys ("
      ++ toString a.sources.journeys.patterns.length ++ " common patterns)"),
    item (toString statistics.nodes ++ " nodes, " ++ toString statistics.edges ++ " edges, "
      ++ toString statistics.clusters ++ " clusters"),
    item ("Graph density: " ++ (statistics.density.mul (.int 100)).fixed 2 ++ "%")]

def analysisLines (a : Analysis) : List String :=
  ["", "Coverage gaps detected: " ++ toString a.totalGaps]
    ++ ((gapCounts a.gaps).filter (·.2 ≠ 0)).map fun c => item (c.1.name ++ ": " ++ toString c.2)

def closing (directory : String) (files : List WrittenFile) : List String :=
  ["", "Output written to: " ++ directory] ++ files.map (fun f => item f.file.name)
    ++ ["", "✓ Business graph generation complete!"]

/-- Refuses to write where no directory can be. -/
def checkOutput (directory : String) : Entry → Except Fault Unit
  | .file _ => .error (.occupied directory)
  | .behindFile => .error (.behindFile directory)
  | .nothing | .directory => .ok ()

/-- A call whose arguments, settings and facts are read. -/
def build (a : Arguments) (now : Moment) (look : String → Entry) (config : Config) (p : Project)
    (c : Context Number) : Except Fault Session := do
  let config := a.adjust config
  let atlas ← Atlas.make config now a.analyse p c
  let directory := Path.normal a.outputDir
  checkOutput directory (look a.outputDir)
  let files ← atlas.bundle config.exports a.facts
  return ⟨opening a.facts ++ factsLines p c ++ atlasLines atlas
    ++ ((atlas.analysis.map analysisLines).getD []) ++ closing directory files,
    .written directory files⟩

/-- Whether a fault of a facts file ends in a complaint. -/
def isComplaint : Fault → Bool
  | .missing _ _ | .document _ => true
  | _ => false

/-- A call whose settings are loaded. -/
def proceed (a : Arguments) (now : Moment) (look : String → Entry) (config : Config) :
    Except Fault Session :=
  match Document.loadFacts a.facts (look a.facts) with
  | .ok (p, c) => build a now look config p c
  | .error fault =>
    if isComplaint fault then .ok ⟨opening a.facts, .refused fault⟩ else .error fault

def follow {ε : Type} (reader : Yaml.Reader ε) (a : Arguments) (now : Moment)
    (look : String → Entry) : Except (Config.Halt ε) Session :=
  match Config.loadBy reader (a.config.map fun path => (path, look path)) with
  | .error (.fault (.config fault)) => .ok ⟨[], .refused (.config fault)⟩
  | .error halt => .error halt
  | .ok config => (proceed a now look config).mapError .fault

/-- A call of the program with a reader for settings, where `look` tells what a path leads to. -/
def runBy {ε : Type} (reader : Yaml.Reader ε) (args : List String) (now : Moment)
    (look : String → Entry) : Except (Config.Halt ε) Session :=
  match Arguments.read args with
  | .error stop => .ok ⟨[], .stopped stop⟩
  | .ok a => follow reader a now look

/-- A call of the program. -/
def run (args : List String) (now : Moment) (look : String → Entry) : Except Fault Session :=
  (runBy Yaml.reader args now look).mapError Config.Halt.cause

theorem run_eq_ok {args : List String} {now : Moment} {look : String → Entry} {s : Session} :
    run args now look = .ok s ↔ runBy Yaml.reader args now look = .ok s := mapError_eq_ok

theorem runBy_eq_follow {ε : Type} {reader : Yaml.Reader ε} {args : List String} {a : Arguments}
    (h : Arguments.read args = .ok a) (now : Moment) (look : String → Entry) :
    runBy reader args now look = follow reader a now look := by
  rw [runBy, h]

end Session

end BusinessAtlas
