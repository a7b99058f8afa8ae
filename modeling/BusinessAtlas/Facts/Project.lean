import BusinessAtlas.Facts.Component

/-!
# Projects

The component table, the files and the transfers of data of a project. Components nested in others
are found level by level; of two components with one name the first one found is kept.
-/

namespace BusinessAtlas

/-- A source file and what it imports. -/
structure SourceFile where
  path : Json
  imports : List Json

/-- A transfer of data between two components. -/
structure Transfer where
  source : Json
  target : Json
  kind : Json
  data : Json

/-- The structural facts of a project. -/
structure Project where
  components : List Component
  files : List SourceFile
  transfers : List Transfer

/-- The key of a value that identifies something. -/
def Json.key? (v : Json) : Option Key := v.ident?.map Ident.key

@[simp] theorem Json.key?_text (s : String) : (Json.text s).key? = some (.text s) := rfl

theorem Json.key?_eq_some {v : Json} {k : Key} :
    v.key? = some k ↔ ∃ i, v.asIdent = .ok i ∧ i.key = k := by
  cases h : v.ident? <;> simp [Json.key?, Json.asIdent, h]

theorem Json.key?_of_asIdent {v : Json} {i : Ident} (h : v.asIdent = .ok i) :
    v.key? = some i.key := Json.key?_eq_some.mpr ⟨i, h, rfl⟩

theorem Json.key?_eq_some_text {v : Json} {s : String} :
    v.key? = some (.text s) ↔ v = .text s := by
  refine ⟨fun h => ?_, fun h => h ▸ rfl⟩
  obtain ⟨i, hi, hk⟩ := Json.key?_eq_some.mp h
  have hnumber (n : Number) : Ident.numberKey n ≠ .text s := by
    unfold Ident.numberKey
    split
    · exact fun h => by cases h
    · split <;> exact fun h => by cases h
  cases v with
  | null => cases hi; cases hk
  | bool b => cases hi; exact absurd hk (hnumber (.int (if b then 1 else 0)))
  | number n => cases hi; exact absurd hk (hnumber n)
  | text t => cases hi; cases hk; rfl
  | list items => cases hi
  | record fields => cases hi

def SourceFile.ofJson (v : Json) : Except Fault SourceFile := do
  let path ← v.getD "path" (.text "")
  let imports ← (← v.itemsOf "imports").mapM (nameUnder "source")
  return ⟨path, imports⟩

def Transfer.ofJson (v : Json) : Except Fault Transfer := do
  let source ← v.pickD ["from", "source"] (.text "")
  let target ← v.pickD ["to", "target"] (.text "")
  let kind ← v.getOr "type" (.text "props")
  let data ← v.getD "data" .null
  return ⟨source, target, kind, data⟩

mutual

/-- How many values a value is made of. -/
def Json.weight : Json → Nat
  | .list items => Json.listWeight items + 1
  | .record fields => Json.fieldWeight fields + 1
  | _ => 1

def Json.listWeight : List Json → Nat
  | [] => 0
  | v :: rest => v.weight + Json.listWeight rest

/-- How many values the fields of a record are made of. -/
def Json.fieldWeight : List (String × Json) → Nat
  | [] => 0
  | (_, v) :: rest => v.weight + Json.fieldWeight rest

end

/-- The components of the pending records and of those nested in them. A record taken from the front
puts the records nested in it at the back, so components are found level by level. -/
def Component.collect : Nat → List Json → Except Fault (List Component)
  | _, [] => .ok []
  | 0, _ :: _ => .ok []
  | fuel + 1, v :: pending => do
    let c ← Component.ofJson v
    let nested ← Component.nested v
    return c :: (← collect fuel (pending ++ nested))

namespace Project

/-- The components with a name that none before them has. -/
def distinct (seen : List Key) : List Component → Except Fault (List Component)
  | [] => .ok []
  | c :: rest => do
    let name ← c.name.asIdent
    if seen.contains name.key then distinct seen rest
    else return c :: (← distinct (name.key :: seen) rest)

/-- The table of components, files and transfers; a file needs a path that identifies it. -/
def ofParts (components : List Component) (files : List SourceFile) (transfers : List Transfer) :
    Except Fault Project := do
  let table ← distinct [] components
  let _ ← files.mapM fun f => f.path.asIdent
  return ⟨table, files, transfers⟩

/-- Reads the structural facts. A component that is only named adds nothing. Every pending record is
a part of its own of the value read, so the weight of the value is fuel enough. -/
def ofJson (v : Json) : Except Fault Project := do
  let roots ← v.pickItems ["components"]
  let components ← Component.collect v.weight (roots.filter fun r => !r.isText)
  let files ← (← v.pickItems ["files"]).mapM SourceFile.ofJson
  let transfers ← (← v.pickItems ["dataFlows", "data_flows"]).mapM Transfer.ofJson
  ofParts components files transfers

def find? (p : Project) (key : Key) : Option Component :=
  p.components.find? fun c => c.name.key? == some key

def component? (p : Project) (name : Json) : Except Fault (Option Component) := do
  return p.find? (← name.asIdent).key

/-- The file at a path; the last of several counts. -/
def file? (p : Project) (path : Json) : Except Fault (Option SourceFile) := do
  let key := (← path.asIdent).key
  return (p.files.filter fun f => f.path.key? == some key).getLast?

/-- What a component imports, itself or through its file. -/
def visibleImports (p : Project) (c : Component) : Except Fault (List Json) := do
  match ← p.file? c.path with
  | some f => return c.imports ++ f.imports
  | none => return c.imports

/-- Whether another component contains this one. -/
def hasParent (p : Project) (c : Component) : Bool :=
  p.components.any fun other => !other.name.same c.name && c.name.isAmong other.children

end Project

end BusinessAtlas
