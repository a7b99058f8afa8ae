import BusinessAtlas.Config.Settings
import BusinessAtlas.Facts.Context
import BusinessAtlas.Facts.Project
import BusinessAtlas.Text.Search
import BusinessAtlas.Yaml.Reader

/-!
# Files that are read

A path leads to a file, to a directory or to nothing; in its normal form it has no empty part and no
part that stands for the directory it is in, and the path without any parts is that of the current
directory.

A facts file is a JSON document with the structural facts and the requirements. Its outer shape is
checked; the contents of its lists are trusted as they are. A settings file is YAML. What it holds has
to be a mapping of the right shape; a file that holds nothing leaves the defaults. Settings can be
loaded by any reader of YAML.
-/

namespace BusinessAtlas

/-- What a path leads to. -/
inductive Entry where
  /-- Nothing is there. -/
  | nothing
  /-- An earlier part of the path is a file, so nothing can be there. -/
  | behindFile
  | directory
  | file (bytes : ByteArray)

namespace Path

def isAbsolute (path : String) : Bool := Text.startsWith "/" path

def parts (path : String) : List String :=
  (Text.splitOn "/" path).filter fun part => part != "" && part != "."

/-- The root that a path starts at: two slashes at the start are a root of their own. -/
def root (path : String) : String :=
  if !isAbsolute path then ""
  else if Text.startsWith "//" path && !Text.startsWith "///" path then "//"
  else "/"

def normal (path : String) : String :=
  let text := root path ++ "/".intercalate (parts path)
  if text.isEmpty then "." else text

def inside (directory name : String) : String :=
  let directory := normal directory
  if directory == "." then name
  else if directory == "/" || directory == "//" then directory ++ name
  else directory ++ "/" ++ name

end Path

namespace Document

def factsSchema : Json.Schema :=
  [.kinds [.object], .fields [
    ("components", [.kinds [.array]]), ("files", [.kinds [.array]]),
    ("dataFlows", [.kinds [.array]]), ("data_flows", [.kinds [.array]]),
    ("businessContext", [.kinds [.object]]), ("business_context", [.kinds [.object]])]]

def check (v : Json) (schema : Json.Schema) (label source : String) : Except Fault Unit :=
  match Json.Violation.worst (schema.violations v) with
  | none => .ok ()
  | some w => .error (.document (.shape label source w w.value.literal))

/-- Checks a value against a shape that is itself given as a value. -/
def checkWith (v schema : Json) (label source : String) : Except Fault Unit :=
  match Json.Schema.ofJson schema with
  | .ok schema => check v schema label source
  | .error kind => .error (.document (.schema label kind))

def load (label path : String) (entry : Entry) : Except Fault Json :=
  let path := Path.normal path
  match entry with
  | .nothing | .behindFile => .error (.missing label path)
  | .directory => .error (.directory path)
  | .file bytes =>
    match String.fromUTF8? bytes with
    | none => .error (.document (.encoding label path))
    | some s =>
      match Json.readChars (Text.unifyLineEnds s.toList) with
      | .ok v => .ok v
      | .error (e, place) => .error (.document (.malformed label path e place))

def factsLabel : String := "project facts"

/-- Reads the facts file that a path leads to. A wrong shape is reported under the path as it was
given. -/
def loadFacts (path : String) (entry : Entry) : Except Fault (Project × Context Number) := do
  let v ← load factsLabel path entry
  check v factsSchema factsLabel path
  let project ← Project.ofJson v
  let context ← Context.ofFacts v
  return (project, context)

end Document

end BusinessAtlas

namespace BusinessAtlas.Config

/-- Why the loading of settings stops: by a fault of its own, or by one with which the reader breaks
off. -/
inductive Halt (ε : Type) where
  | fault (fault : Fault)
  | broken (fault : ε)

/-- The fault that stops the loading by the reader at hand. -/
def Halt.cause : Halt Yaml.ScalarFault → Fault
  | fault f => f
  | broken f => f.fault

/-- The settings that a document holds; a vacant document leaves the defaults. -/
def ofDocument (path : String) (doc : Yaml) : Except Fault Config :=
  match if doc.isVacant then .mapping [] else doc with
  | .mapping pairs =>
    let doc : Yaml := .mapping pairs
    match Json.Violation.worst (schema.violations doc.toJson) with
    | some v =>
      let shown := ((doc.part? v.path).getD .null).literal
      .error (.config (.shape (.shape "bizgraph config" path v shown)))
    | none => ofJson doc.toJson
  | doc => .error (.config (.notMapping path doc.kindName))

variable {ε : Type}

/-- The settings in what was read of a file. -/
def ofReading (path : String) : Except (Yaml.ReadFault ε) Yaml → Except (Halt ε) Config
  | .ok doc => (ofDocument path doc.settled).mapError .fault
  | .error .malformed => .error (.fault (.config (.malformed path)))
  | .error .undecodable => .error (.fault .undecodable)
  | .error (.broken fault) => .error (.broken fault)

/-- The settings of a run: without a file, or where the file is not there, the defaults. -/
def loadBy (reader : Yaml.Reader ε) (file : Option (String × Entry)) : Except (Halt ε) Config :=
  match file with
  | some (path, .file bytes) => ofReading (Path.normal path) (reader.ofBytes bytes)
  | some (path, .directory) => .error (.fault (.directory (Path.normal path)))
  | some (_, .nothing) | some (_, .behindFile) | none => .ok default

/-- The settings of a run, by the reader at hand. -/
def load (file : Option (String × Entry)) : Except Fault Config :=
  (loadBy Yaml.reader file).mapError Halt.cause

theorem load_eq_ok {file : Option (String × Entry)} {c : Config} :
    load file = .ok c ↔ loadBy Yaml.reader file = .ok c := mapError_eq_ok

end BusinessAtlas.Config
