import BusinessAtlas.Json.Access

/-!
# Components

The structural facts of a code base: a component with its declared inputs, its stateful bindings,
the components it contains and the modules it imports. Facts come in either of two spellings and
are trusted as they are; only the shape that reading needs is asked for.
-/

namespace BusinessAtlas

/-- A declared input of a component. -/
structure Input where
  name : Json
  kind : Json
  required : Bool

/-- A stateful binding of a component. -/
structure Binding where
  name : Json
  kind : Json

/-- A structural unit of the code base. -/
structure Component where
  name : Json
  path : Json
  kind : Json
  inputs : List Input
  bindings : List Binding
  children : List Json
  imports : List Json

/-- An input is given by its name alone or by a record. -/
def Input.ofJson (v : Json) : Except Fault Input :=
  match v with
  | .text _ => .ok ⟨v, .text "unknown", false⟩
  | v => do
    let name ← v.getD "name" (.text "")
    let kind ← v.getOr "type" (.text "unknown")
    let required ← v.pickD ["isRequired", "is_required"] (.bool false)
    return ⟨name, kind, !required.isVacant⟩

/-- A binding is given by its name alone or by a record. -/
def Binding.ofJson (v : Json) : Except Fault Binding :=
  match v with
  | .text _ => .ok ⟨v, .text "other"⟩
  | v => do
    let name ← v.getD "name" (.text "")
    let kind ← v.getOr "type" (.text "other")
    return ⟨name, kind⟩

/-- A reference is a name or a record that holds the name under `key`. -/
def nameUnder (key : String) (v : Json) : Except Fault Json :=
  match v with
  | .text _ => .ok v
  | v => v.getD key (.text "")

namespace Component

/-- Reads a component, apart from the components nested in it, of which it keeps the names. -/
def ofJson (v : Json) : Except Fault Component := do
  let inputs ← (← v.pickItems ["props"]).mapM Input.ofJson
  let bindings ← (← v.pickItems ["hooks"]).mapM Binding.ofJson
  let imports ← (← v.pickItems ["imports"]).mapM (nameUnder "source")
  let name ← v.getD "name" (.text "")
  let path ← v.pickD ["filePath", "file_path"] (.text "")
  let kind ← v.getOr "type" (.text "function")
  let children ← (← v.pickItems ["children"]).mapM (nameUnder "name")
  return ⟨name, path, kind, inputs, bindings, children, imports⟩

/-- The records nested in a component's record as its children. -/
def nested (v : Json) : Except Fault (List Json) := do
  return (← v.itemsOf "children").filter Json.isRecord

def hasBinding (names : List String) (c : Component) : Bool :=
  c.bindings.any fun b => b.name.isAmong (names.map .text)

def inputNames (c : Component) : List Json := c.inputs.map (·.name)

end Component

end BusinessAtlas
