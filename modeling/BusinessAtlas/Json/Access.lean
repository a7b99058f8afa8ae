import BusinessAtlas.Decimal.Reader
import BusinessAtlas.Fault
import BusinessAtlas.Outcome
import BusinessAtlas.Text.Search

/-!
# Using trusted values

The fields of a facts record may hold any value, and each use says what it needs: items, a text, an
identifier, a field. A use that the value does not allow stops with its cause.
-/

namespace BusinessAtlas.Json

/-- The items of a value: those of a list, the characters of a text, the field names of a record. -/
def items : Json → Except Fault (List Json)
  | .list items => .ok items
  | .text s => .ok (s.toList.map fun c => .text (.singleton c))
  | .record fields => .ok ((keys fields).map .text)
  | _ => .error .noItems

def asText : Json → Except Fault String
  | .text s => .ok s
  | _ => .error .notText

def asIdent (v : Json) : Except Fault Ident :=
  match v.ident? with
  | some i => .ok i
  | none => .error .notIdentifier

/-- The field `key` of a record, if it is there. -/
def get (key : String) : Json → Except Fault (Option Json)
  | .record fields => .ok (lookup key fields)
  | _ => .error .notRecord

/-- The field `key` of a record, or the default if it is missing; null is a value. -/
def getD (key : String) (v default : Json) : Except Fault Json := do
  return (← v.get key).getD default

/-- The field `key` of a record, or the default if it is missing or vacant. -/
def getOr (key : String) (v default : Json) : Except Fault Json := do
  return ((← v.get key).getD .null).orElse default

/-- Whether a word is in a value: inside a text, among the items of a list, or the name of a
field. -/
def hasWord (word : String) : Json → Except Fault Bool
  | .text s => .ok (Text.occurs word s)
  | .list items => .ok (isAmong (.text word) items)
  | .record fields => .ok (lookup word fields).isSome
  | _ => .error .noItems

/-- The first of the spellings of a field that is there and not null. -/
def pick (spellings : List String) (v : Json) : Except Fault (Option Json) :=
  match spellings with
  | [] => .ok none
  | key :: rest =>
    match v with
    | .record fields =>
      match lookup key fields with
      | none | some .null => pick rest v
      | some found => .ok (some found)
    | v => do
      if ← v.hasWord key then .error .noFields else pick rest v

def pickD (spellings : List String) (v default : Json) : Except Fault Json := do
  return (← v.pick spellings).getD default

/-- The items of the first spelling of a field that is there; a missing field has none. -/
def pickItems (spellings : List String) (v : Json) : Except Fault (List Json) := do
  (← v.pickD spellings (.list [])).items

/-- The items of a field; a missing or vacant field has none. -/
def itemsOf (key : String) (v : Json) : Except Fault (List Json) := do
  (← v.getOr key (.list [])).items

/-- The double that a value denotes; a vacant value is zero. -/
def asFloat (v : Json) : Except Fault Float :=
  if v.isVacant then .ok 0
  else match v with
    | .number n => if n.overflows then .error .tooLarge else .ok n.toFloat
    | .bool _ => .ok 1
    | .text s => match Decimal.readFloat? s with
      | some x => .ok x
      | none => .error (.notNumber (.float s))
    | _ => .error .notArithmetic

def joinTexts (sep : String) (vs : List Json) : Except Fault String := do
  let ts ← vs.mapM fun v => match v with
    | .text s => .ok s
    | _ => .error Fault.notJoinable
  return sep.intercalate ts

/-- The entry of a table for a value, which has to be an identifier. -/
def choose {α : Type} (table : List (String × α)) (default : α) (v : Json) : Except Fault α := do
  match ← v.asIdent with
  | .text s => return (table.lookup s).getD default
  | _ => return default

section

variable {v : Json}

theorem isText_iff : v.isText = true ↔ ∃ s, v = .text s := by
  cases v <;> simp [isText]

theorem exists_of_isText {α : Type} {f : Json → Except Fault α} (h : v.isText = true)
    (hf : ∀ s, ∃ a, f (.text s) = .ok a) : ∃ a, f v = .ok a := by
  obtain ⟨s, rfl⟩ := isText_iff.mp h
  exact hf s

theorem exists_asText (h : v.isText = true) : ∃ s, v.asText = .ok s :=
  exists_of_isText h fun s => ⟨s, rfl⟩

theorem asText_eq_ok {s : String} : v.asText = .ok s ↔ v = .text s := by
  cases v <;> simp [asText]

theorem exists_asIdent (h : v.isText = true) : ∃ i, v.asIdent = .ok i :=
  exists_of_isText h fun s => ⟨.text s, rfl⟩

/-- The value can identify something. -/
def Identifies (v : Json) : Prop := v.ident?.isSome = true

theorem identifies_iff : v.Identifies ↔ ∃ i, v.asIdent = .ok i := by
  unfold Identifies asIdent
  cases v.ident? <;> simp

theorem yields_choose {γ : Type} {table : List (String × γ)} {default : γ} {P : γ → Prop}
    (hdefault : P default) (htable : ∀ e ∈ table, P e.2) : Yields (v.choose table default) P := by
  refine Yields.bind (yields_true _) fun i _ => ?_
  split
  · next s =>
    refine yields_ok ?_
    cases h : table.lookup s with
    | none => exact hdefault
    | some c =>
      obtain ⟨before, after, rfl, -⟩ := List.lookup_eq_some_iff.mp h
      exact htable (s, c) (List.mem_append_right before List.mem_cons_self)
  · exact yields_ok hdefault

theorem exists_joinTexts (sep : String) {vs : List Json} (h : ∀ v ∈ vs, v.isText = true) :
    ∃ t, joinTexts sep vs = .ok t := by
  unfold joinTexts
  refine exists_bind (exists_mapM fun v hv => ?_) fun ts _ => ⟨_, rfl⟩
  obtain ⟨s, rfl⟩ := isText_iff.mp (h v hv)
  exact ⟨s, rfl⟩

end

end BusinessAtlas.Json
