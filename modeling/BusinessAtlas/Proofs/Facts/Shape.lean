import BusinessAtlas.Json.Access
import BusinessAtlas.Json.Schema

/-!
# What facts are declared to hold

The fields of every record of the facts and the kinds of value that they are declared to hold, in
either spelling, written as schemas. A field that is missing passes every check, so a record passes
if each of its fields is missing or holds a value of the declared kind. What passes can be read.
-/

namespace BusinessAtlas

namespace Json

/-- No check of the schema fails, wherever the value stands. -/
def Conforms (v : Json) (schema : Schema) : Prop := ∃ path, schemaViolations path v schema = []

section

variable {v : Json} {schema rest : Schema}

theorem conforms_of_accepts (h : schema.accepts v = true) : v.Conforms schema :=
  ⟨[], List.isEmpty_iff.mp h⟩

theorem Conforms.head {c : Check} (h : v.Conforms (c :: rest)) :
    ∃ path, c.violations path v = [] := by
  obtain ⟨path, h⟩ := h
  rw [schemaViolations, List.append_eq_nil_iff] at h
  exact ⟨path, h.1⟩

theorem Conforms.tail {c : Check} (h : v.Conforms (c :: rest)) : v.Conforms rest := by
  obtain ⟨path, h⟩ := h
  rw [schemaViolations, List.append_eq_nil_iff] at h
  exact ⟨path, h.2⟩

theorem Conforms.kinds {ks : List Kind} (h : v.Conforms (.kinds ks :: rest)) :
    ks.any (·.holds v) = true := by
  obtain ⟨path, h⟩ := h.head
  rw [Check.violations] at h
  split at h
  · assumption
  · cases h

theorem Conforms.field {fs : List (String × Json)} {table : List (String × Schema)}
    (h : (record fs).Conforms (.fields table :: rest)) :
    ∀ row ∈ table, ∀ w, lookup row.1 fs = some w → w.Conforms row.2 := by
  obtain ⟨path, hnone⟩ := h.head
  rw [Check.violations] at hnone
  clear h
  induction table with
  | nil => exact fun _ hrow => absurd hrow List.not_mem_nil
  | cons first table ih =>
    rw [fieldViolations, List.append_eq_nil_iff] at hnone
    intro row hrow w hw
    rcases List.mem_cons.mp hrow with rfl | hrow
    · rw [hw] at hnone
      exact ⟨_, hnone.1⟩
    · exact ih hnone.2 row hrow w hw

theorem Conforms.item {xs : List Json} {checks : Schema}
    (h : (list xs).Conforms (.items checks :: rest)) : ∀ x ∈ xs, x.Conforms checks := by
  obtain ⟨path, h⟩ := h.head
  rw [Check.violations, List.flatMap_eq_nil_iff] at h
  intro x hx
  obtain ⟨i, hi, rfl⟩ := List.mem_iff_getElem.mp hx
  have hmem : (xs[i], i) ∈ xs.zipIdx := List.mem_zipIdx_iff_getElem?.mpr (List.getElem?_eq_getElem hi)
  exact ⟨_, h _ hmem⟩

end

end Json

namespace Shape

open Json (Schema)

def text : Schema := [.kinds [.string]]

def number : Schema := [.kinds [.number]]

def flag : Schema := [.kinds [.boolean]]

def object : Schema := [.kinds [.object]]

def listOf (items : Schema) : Schema := [.kinds [.array], .items items]

def recordOf (fields : List (String × Schema)) : Schema := [.kinds [.object], .fields fields]

/-- A name, or a record that holds the name among other things. -/
def nameOr (fields : List (String × Schema)) : Schema :=
  [.kinds [.string, .object], .fields fields]

def input : Schema := nameOr [("name", text), ("type", text), ("isRequired", flag),
  ("is_required", flag)]

def binding : Schema := nameOr [("name", text), ("type", text)]

def imported : Schema := nameOr [("source", text)]

/-- A component with components nested in it to the given depth. -/
def component : Nat → Schema
  | 0 => text
  | depth + 1 => nameOr [("name", text), ("filePath", text), ("file_path", text), ("type", text),
      ("props", listOf input), ("hooks", listOf binding), ("imports", listOf imported),
      ("children", listOf (component depth))]

def file : Schema := recordOf [("path", text), ("imports", listOf imported)]

/-- A transfer may carry any data. -/
def transfer : Schema := recordOf [("from", text), ("source", text), ("to", text), ("target", text),
  ("type", text)]

def project (depth : Nat) : Schema := recordOf [("components", listOf (component depth)),
  ("files", listOf file), ("dataFlows", listOf transfer), ("data_flows", listOf transfer)]

def story : Schema := recordOf [("id", text), ("title", text), ("description", text),
  ("persona", text), ("priority", text), ("confidence", number), ("storyType", text),
  ("story_type", text), ("businessCapability", text), ("business_capability", text),
  ("complexity", text), ("sourceComponents", listOf text), ("source_components", listOf text),
  ("acceptanceCriteria", listOf text), ("acceptance_criteria", listOf text)]

/-- The capabilities that a capability depends on stand in its record only, as a list of any
values. -/
def capability : Schema := recordOf [("id", text), ("name", text), ("description", text),
  ("userStories", listOf text), ("user_stories", listOf text), ("components", listOf text),
  ("dataEntities", listOf text), ("data_entities", listOf text), ("operations", listOf object),
  ("businessValue", text), ("business_value", text), ("dependencies", listOf [])]

def entity : Schema := recordOf [("name", text), ("attributes", listOf text),
  ("relationships", listOf object), ("operations", listOf text), ("businessPurpose", text),
  ("business_purpose", text)]

def rule : Schema := recordOf [("id", text), ("description", text), ("category", text),
  ("implementation", listOf text), ("affectedEntities", listOf text),
  ("affected_entities", listOf text), ("conditions", listOf text), ("actions", listOf text)]

def persona : Schema := recordOf [("id", text), ("name", text), ("description", text),
  ("goals", listOf text), ("capabilities", listOf text)]

def context : Schema := recordOf [("userStories", listOf story), ("user_stories", listOf story),
  ("capabilities", listOf capability), ("dataModel", listOf entity), ("data_model", listOf entity),
  ("businessRules", listOf rule), ("business_rules", listOf rule), ("personas", listOf persona)]

end Shape

namespace Json

section

variable {v : Json}

@[simp] theorem conforms_text (s : String) : (text s).Conforms Shape.text := ⟨[], rfl⟩

theorem Conforms.isText (h : v.Conforms Shape.text) : v.isText = true := by
  have hkind := h.kinds
  cases v <;> simp_all [Json.isText, Kind.holds]

theorem Conforms.exists_number (h : v.Conforms Shape.number) : ∃ n, v = .number n := by
  have hkind := h.kinds
  cases v <;> simp_all [Kind.holds]

theorem Conforms.exists_list {items : Schema} (h : v.Conforms (Shape.listOf items)) :
    ∃ xs, v = .list xs ∧ ∀ x ∈ xs, x.Conforms items := by
  have hkind := h.kinds
  cases v with
  | list xs => exact ⟨xs, rfl, h.tail.item⟩
  | _ => simp [Kind.holds] at hkind

theorem Conforms.exists_fields {rest : Schema} (h : v.Conforms (.kinds [.object] :: rest)) :
    ∃ fields, v = .record fields := by
  have hkind := h.kinds
  cases v with
  | record fields => exact ⟨fields, rfl⟩
  | _ => simp [Kind.holds] at hkind

theorem Conforms.exists_record {table : List (String × Schema)}
    (h : v.Conforms (Shape.recordOf table)) : ∃ fs, v = .record fs ∧
      ∀ row ∈ table, ∀ w, lookup row.1 fs = some w → w.Conforms row.2 := by
  obtain ⟨fs, rfl⟩ := h.exists_fields
  exact ⟨fs, rfl, h.tail.field⟩

theorem Conforms.name_or_record {table : List (String × Schema)}
    (h : v.Conforms (Shape.nameOr table)) : (∃ s, v = .text s) ∨ ∃ fs, v = .record fs ∧
      ∀ row ∈ table, ∀ w, lookup row.1 fs = some w → w.Conforms row.2 := by
  have hkind := h.kinds
  cases v with
  | text s => exact .inl ⟨s, rfl⟩
  | record fs => exact .inr ⟨fs, rfl, h.tail.field⟩
  | _ => simp [Kind.holds] at hkind

end

section

variable {fs : List (String × Json)} {key : String} {spellings : List String} {P : Json → Prop}

theorem exists_getD (h : ∀ w, lookup key fs = some w → P w) {default : Json} (hd : P default) :
    ∃ w, (record fs).getD key default = .ok w ∧ P w := by
  refine ⟨_, rfl, ?_⟩
  cases hw : lookup key fs with
  | none => exact hd
  | some w => exact h w hw

theorem exists_getOr (h : ∀ w, lookup key fs = some w → P w) {default : Json} (hd : P default) :
    ∃ w, (record fs).getOr key default = .ok w ∧ P w := by
  refine ⟨_, rfl, ?_⟩
  cases hw : lookup key fs with
  | none => exact hd
  | some w =>
    rw [Option.getD_some, orElse]
    split
    · exact hd
    · exact h w hw

theorem exists_pickD (h : ∀ key ∈ spellings, ∀ w, lookup key fs = some w → P w) {default : Json}
    (hd : P default) : ∃ w, (record fs).pickD spellings default = .ok w ∧ P w := by
  have hpick : ∃ o, (record fs).pick spellings = .ok o ∧ ∀ w, o = some w → P w := by
    induction spellings with
    | nil => exact ⟨none, rfl, fun w hw => by cases hw⟩
    | cons key rest ih =>
      rw [List.forall_mem_cons] at h
      rw [pick]
      split
      · exact ih h.2
      · exact ih h.2
      · next found hfound => exact ⟨_, rfl, fun w hw => h.1 w (hw ▸ hfound)⟩
  obtain ⟨o, ho, hP⟩ := hpick
  refine ⟨o.getD default, bind_eq_ok.mpr ⟨o, ho, rfl⟩, ?_⟩
  cases o with
  | none => exact hd
  | some w => exact hP w rfl

private theorem exists_items {v : Json} {shape : Schema} (h : v.Conforms (Shape.listOf shape)) :
    ∃ xs, v.items = .ok xs ∧ ∀ x ∈ xs, x.Conforms shape := by
  obtain ⟨xs, rfl, hxs⟩ := h.exists_list
  exact ⟨xs, rfl, hxs⟩

private theorem conforms_nil (shape : Schema) : (list []).Conforms (Shape.listOf shape) := ⟨[], rfl⟩

variable {shape : Schema}

theorem exists_itemsOf (h : ∀ w, lookup key fs = some w → w.Conforms (Shape.listOf shape)) :
    ∃ xs, (record fs).itemsOf key = .ok xs ∧ ∀ x ∈ xs, x.Conforms shape := by
  obtain ⟨w, hw, hshape⟩ := exists_getOr h (conforms_nil shape)
  obtain ⟨xs, hxs, hall⟩ := exists_items hshape
  exact ⟨xs, bind_eq_ok.mpr ⟨w, hw, hxs⟩, hall⟩

theorem exists_pickItems
    (h : ∀ key ∈ spellings, ∀ w, lookup key fs = some w → w.Conforms (Shape.listOf shape)) :
    ∃ xs, (record fs).pickItems spellings = .ok xs ∧ ∀ x ∈ xs, x.Conforms shape := by
  obtain ⟨w, hw, hshape⟩ := exists_pickD h (conforms_nil shape)
  obtain ⟨xs, hxs, hall⟩ := exists_items hshape
  exact ⟨xs, bind_eq_ok.mpr ⟨w, hw, hxs⟩, hall⟩

end

end Json

end BusinessAtlas
