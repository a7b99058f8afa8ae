import BusinessAtlas.Facts.Context
import BusinessAtlas.Proofs.Facts.Spelling

/-!
# Records that can be read

What the fields of a record of the facts have to hold for the record to be read, and no more. A field
that is used as a list has to be something that can be gone through, a reference has to be a name or
a record, and a confidence has to be something that denotes a double. Every other field may hold
anything, a field that is missing or null never matters, and of a field in two spellings only the one
that is used does.
-/

namespace BusinessAtlas

namespace Json

/-- The value can be gone through, and `P` holds of whatever it gives: a list gives its items, a text
its characters and a record the names of its fields. -/
def Offers (P : Json → Prop) : Json → Prop
  | .list items => ∀ v ∈ items, P v
  | .text s => ∀ c ∈ s.toList, P (.text (.singleton c))
  | .record fields => ∀ f ∈ fields, P (.text f.1)
  | .null | .bool _ | .number _ => False

/-- The first of the spellings that is there and not null offers `P`, if there is one. -/
def FirstOffers (spellings : List String) (P : Json → Prop) (fields : List (String × Json)) : Prop :=
  ∀ w, spellings.findSome? (given · fields) = some w → w.Offers P

/-- The field is missing or vacant, or it offers `P`. -/
def FieldOffers (key : String) (P : Json → Prop) (fields : List (String × Json)) : Prop :=
  ∀ w, lookup key fields = some w → w.isVacant = true ∨ w.Offers P

/-- A value that may refer to something: the name itself, or a record that may hold it. -/
def IsReference (v : Json) : Prop := v.isText = true ∨ v.isRecord = true

/-- A value that denotes a double: it is vacant, true, a number in the range of doubles, or a text
that is written like one. -/
def DenotesDouble (v : Json) : Prop :=
  v.isVacant = true ∨ v = .bool true ∨ (∃ n, v = .number n ∧ n.overflows = false) ∨
    ∃ s, v = .text s ∧ (Decimal.readFloat? s).isSome = true

/-- The value is a record, and `P` holds of its fields. -/
def IsRecordOf (P : List (String × Json) → Prop) (v : Json) : Prop :=
  ∃ fields, v = .record fields ∧ P fields

section

variable {v d : Json} {fields : List (String × Json)} {spellings : List String} {key : String}
  {P : Json → Prop} {q : Prop}

theorem getD_record : (record fields).getD key d = .ok ((lookup key fields).getD d) := rfl

theorem getOr_record :
    (record fields).getOr key d = .ok (((lookup key fields).getD .null).orElse d) := rfl

theorem pickD_record : (record fields).pickD spellings d =
    .ok ((spellings.findSome? (given · fields)).getD d) := by
  rw [pickD, pick_record, ok_bind, pure_eq_ok]

theorem getD_of_not_record (h : v.isRecord = false) : v.getD key d = .error .notRecord := by
  cases v with
  | record fields => cases h
  | _ => rfl

theorem getOr_of_not_record (h : v.isRecord = false) : v.getOr key d = .error .notRecord := by
  cases v with
  | record fields => cases h
  | _ => rfl

theorem isRecordOf_record {P : List (String × Json) → Prop} :
    (record fields).IsRecordOf P ↔ P fields := by
  simp [IsRecordOf]

theorem isRecordOf_true : v.IsRecordOf (fun _ => True) ↔ v.isRecord = true := by
  cases v <;> simp [IsRecordOf, isRecord]

private theorem offers_iff : v.Offers P ↔ Gives v.items fun xs => ∀ x ∈ xs, P x := by
  cases v with
  | list vs => simp [Offers, items]
  | text s => simp [Offers, items]
  | record fs => simp only [Offers, items, gives_ok, keys, List.forall_mem_map]
  | _ => simp [Offers, items]

theorem firstOffers_iff : FirstOffers spellings P fields ↔
    Gives ((record fields).pickItems spellings) fun xs => ∀ x ∈ xs, P x := by
  unfold FirstOffers pickItems
  rw [pickD_record, ok_bind]
  cases spellings.findSome? (given · fields) with
  | none => simp [items]
  | some w => simp [offers_iff]

theorem fieldOffers_iff : FieldOffers key P fields ↔
    Gives ((record fields).itemsOf key) fun xs => ∀ x ∈ xs, P x := by
  unfold FieldOffers itemsOf
  rw [getOr_record, ok_bind]
  cases lookup key fields with
  | none => simp [orElse, isVacant, items]
  | some w => cases hw : w.isVacant <;> simp [orElse, hw, items, offers_iff]

theorem denotesDouble_iff : v.DenotesDouble ↔ Gives v.asFloat fun _ => True := by
  unfold DenotesDouble asFloat
  cases hv : v.isVacant with
  | true => simp
  | false =>
    cases v with
    | number n => cases hn : n.overflows <;> simp [hn]
    | bool b =>
      cases b with
      | true => simp
      | false => cases hv
    | text s => cases hs : Decimal.readFloat? s <;> simp [hs]
    | _ => simp

end

/-! What a reader asks of a record, use by use: each use asks something of its field, whatever the
rest asks. -/

section

variable {α : Type} {x : Except Fault α} {v : Json} {fields : List (String × Json)}
  {spellings : List String} {key : String} {P : Json → Prop} {q : Prop}

private theorem gives_and {P : α → Prop} :
    Gives x (fun a => P a ∧ q) ↔ Gives x P ∧ q := by
  simp only [Gives, ← and_assoc, exists_and_right]

private theorem gives_const : Gives x (fun _ => q) ↔ Gives x (fun _ => True) ∧ q := by
  rw [← gives_and]
  simp only [true_and]

theorem gives_pickItems :
    Gives ((record fields).pickItems spellings) (fun xs => (∀ x ∈ xs, P x) ∧ q) ↔
      FirstOffers spellings P fields ∧ q := by
  rw [gives_and, firstOffers_iff]

theorem gives_pickItems_any : Gives ((record fields).pickItems spellings) (fun _ => q) ↔
    FirstOffers spellings (fun _ => True) fields ∧ q := by
  rw [gives_const, firstOffers_iff]
  simp only [implies_true]

theorem gives_itemsOf : Gives ((record fields).itemsOf key) (fun xs => (∀ x ∈ xs, P x) ∧ q) ↔
    FieldOffers key P fields ∧ q := by
  rw [gives_and, fieldOffers_iff]

theorem gives_itemsOf_any : Gives ((record fields).itemsOf key) (fun _ => q) ↔
    FieldOffers key (fun _ => True) fields ∧ q := by
  rw [gives_const, fieldOffers_iff]
  simp only [implies_true]

theorem gives_asFloat : Gives v.asFloat (fun _ => q) ↔ v.DenotesDouble ∧ q := by
  rw [gives_const, denotesDouble_iff]

private theorem gives_iff_isRecordOf {f : Json → Except Fault α} {R : α → Prop}
    {Q : List (String × Json) → Prop} (hrecord : ∀ fields, Gives (f (.record fields)) R ↔ Q fields)
    (hother : v.isRecord = false → ¬Gives (f v) R) : Gives (f v) R ↔ v.IsRecordOf Q := by
  cases v with
  | record fields => rw [hrecord, isRecordOf_record]
  | _ => simp [IsRecordOf, hother rfl]

end

end Json

open Json

section

variable {v : Json} {q : Prop}

theorem gives_nameUnder {key : String} : Gives (nameUnder key v) (fun _ => True) ↔ v.IsReference := by
  cases v <;> simp [nameUnder, getD, Json.get, IsReference, isText, isRecord]

theorem Input.gives_ofJson : Gives (ofJson v) (fun _ => True) ↔ v.IsReference := by
  cases v <;> simp [ofJson, getD, getOr_record, pickD_record, Json.get, IsReference, isText, isRecord]

theorem Binding.gives_ofJson : Gives (ofJson v) (fun _ => True) ↔ v.IsReference := by
  cases v <;> simp [ofJson, getD, getOr_record, Json.get, IsReference, isText, isRecord]

end

/-- What a component's record is asked for as long as nothing is asked of its name. -/
@[mk_iff]
structure Component.Listed (fields : List (String × Json)) : Prop where
  inputs : FirstOffers ["props"] IsReference fields
  bindings : FirstOffers ["hooks"] IsReference fields
  imports : FirstOffers ["imports"] IsReference fields
  children : FirstOffers ["children"] IsReference fields

/-- What a component's record is asked for. -/
structure Component.Legible (fields : List (String × Json)) : Prop where
  listed : Component.Listed fields
  name : ((lookup "name" fields).getD (.text "")).Identifies

/-- What the record of a file is asked for. -/
@[mk_iff]
structure SourceFile.Legible (fields : List (String × Json)) : Prop where
  imports : FieldOffers "imports" IsReference fields
  path : ((lookup "path" fields).getD (.text "")).Identifies

/-- What the record of a story is asked for. -/
@[mk_iff]
structure Story.Legible (fields : List (String × Json)) : Prop where
  confidence : ((lookup "confidence" fields).getD .null).DenotesDouble
  components : FirstOffers ["sourceComponents", "source_components"] (fun _ => True) fields
  criteria : FirstOffers ["acceptanceCriteria", "acceptance_criteria"] (fun _ => True) fields

/-- What the record of a capability is asked for. -/
@[mk_iff]
structure Capability.Legible (fields : List (String × Json)) : Prop where
  stories : FirstOffers ["userStories", "user_stories"] (fun _ => True) fields
  components : FieldOffers "components" (fun _ => True) fields
  entities : FirstOffers ["dataEntities", "data_entities"] (fun _ => True) fields
  operations : FieldOffers "operations" (fun _ => True) fields

/-- What the record of an entity is asked for. -/
@[mk_iff]
structure Entity.Legible (fields : List (String × Json)) : Prop where
  attributes : FieldOffers "attributes" (fun _ => True) fields
  relationships : FieldOffers "relationships" (fun _ => True) fields
  operations : FieldOffers "operations" (fun _ => True) fields

/-- What the record of a rule is asked for. -/
@[mk_iff]
structure Rule.Legible (fields : List (String × Json)) : Prop where
  implementation : FieldOffers "implementation" (fun _ => True) fields
  entities : FirstOffers ["affectedEntities", "affected_entities"] (fun _ => True) fields
  conditions : FieldOffers "conditions" (fun _ => True) fields
  actions : FieldOffers "actions" (fun _ => True) fields

/-- What the record of a persona is asked for. -/
@[mk_iff]
structure Persona.Legible (fields : List (String × Json)) : Prop where
  goals : FieldOffers "goals" (fun _ => True) fields
  capabilities : FieldOffers "capabilities" (fun _ => True) fields

/-- What the record of the requirements is asked for. -/
@[mk_iff]
structure Context.Legible (fields : List (String × Json)) : Prop where
  stories : FirstOffers ["userStories", "user_stories"] (IsRecordOf Story.Legible) fields
  capabilities : FieldOffers "capabilities" (IsRecordOf Capability.Legible) fields
  entities : FirstOffers ["dataModel", "data_model"] (IsRecordOf Entity.Legible) fields
  rules : FirstOffers ["businessRules", "business_rules"] (IsRecordOf Rule.Legible) fields
  personas : FieldOffers "personas" (IsRecordOf Persona.Legible) fields

section

variable {v : Json}

private theorem Component.gives_name {P : Json → Prop} : Gives (ofJson v) (fun c => P c.name) ↔
    v.IsRecordOf fun fields => Listed fields ∧ P ((lookup "name" fields).getD (.text "")) := by
  refine gives_iff_isRecordOf (fun fields => ?_) fun h => ?_
  · simp only [ofJson, gives_bind, getD_record, pickD_record, getOr_record, pure_eq_ok, gives_ok,
      gives_mapM_and, gives_nameUnder, Input.gives_ofJson, Binding.gives_ofJson, gives_pickItems,
      listed_iff, and_assoc]
  · simp [ofJson, gives_bind, getD_of_not_record h]

theorem Component.gives_ofJson : Gives (ofJson v) (fun _ => True) ↔ v.IsRecordOf Listed := by
  rw [gives_name (P := fun _ => True)]
  simp only [and_true]

theorem Component.gives_identified :
    Gives (ofJson v) (fun c => c.name.Identifies) ↔ v.IsRecordOf Legible := by
  rw [gives_name]
  exact exists_congr fun fields => and_congr_right' ⟨fun h => ⟨h.1, h.2⟩, fun h => ⟨h.1, h.2⟩⟩

theorem SourceFile.gives_ofJson :
    Gives (ofJson v) (fun f => f.path.Identifies) ↔ v.IsRecordOf Legible := by
  refine gives_iff_isRecordOf (fun fields => ?_) fun h => ?_
  · simp only [ofJson, gives_bind, getD_record, pure_eq_ok, gives_ok, gives_mapM_and,
      gives_nameUnder, gives_itemsOf, legible_iff]
  · simp [ofJson, getD_of_not_record h]

theorem Transfer.gives_ofJson : Gives (ofJson v) (fun _ => True) ↔ v.isRecord = true := by
  rw [← isRecordOf_true]
  refine gives_iff_isRecordOf (fun fields => ?_) fun h => ?_
  · simp only [ofJson, pickD_record, getOr_record, getD_record, ok_bind, pure_eq_ok, gives_ok]
  · simp [ofJson, gives_bind, getOr_of_not_record h]

theorem Story.gives_ofJson : Gives (ofJson v) (fun _ => True) ↔ v.IsRecordOf Legible := by
  refine gives_iff_isRecordOf (fun fields => ?_) fun h => ?_
  · simp only [ofJson, gives_bind, getD_record, pickD_record, getOr_record, pure_eq_ok, gives_ok,
      gives_pickItems_any, gives_asFloat, and_true, legible_iff]
  · simp [ofJson, getD_of_not_record h]

theorem Capability.gives_ofJson : Gives (ofJson v) (fun _ => True) ↔ v.IsRecordOf Legible := by
  refine gives_iff_isRecordOf (fun fields => ?_) fun h => ?_
  · simp only [ofJson, gives_bind, getD_record, pickD_record, pure_eq_ok, gives_ok,
      gives_pickItems_any, gives_itemsOf_any, and_true, legible_iff]
  · simp [ofJson, getD_of_not_record h]

theorem Entity.gives_ofJson : Gives (ofJson v) (fun _ => True) ↔ v.IsRecordOf Legible := by
  refine gives_iff_isRecordOf (fun fields => ?_) fun h => ?_
  · simp only [ofJson, gives_bind, getD_record, pickD_record, pure_eq_ok, gives_ok,
      gives_itemsOf_any, and_true, legible_iff]
  · simp [ofJson, getD_of_not_record h]

theorem Rule.gives_ofJson : Gives (ofJson v) (fun _ => True) ↔ v.IsRecordOf Legible := by
  refine gives_iff_isRecordOf (fun fields => ?_) fun h => ?_
  · simp only [ofJson, gives_bind, getD_record, getOr_record, pure_eq_ok, gives_ok,
      gives_pickItems_any, gives_itemsOf_any, and_true, legible_iff]
  · simp [ofJson, getD_of_not_record h]

theorem Persona.gives_ofJson : Gives (ofJson v) (fun _ => True) ↔ v.IsRecordOf Legible := by
  refine gives_iff_isRecordOf (fun fields => ?_) fun h => ?_
  · simp only [ofJson, gives_bind, getD_record, pure_eq_ok, gives_ok, gives_itemsOf_any, and_true,
      legible_iff]
  · simp [ofJson, getD_of_not_record h]

theorem Context.gives_ofJson {fields : List (String × Json)} :
    Gives (ofJson (.record fields)) (fun _ => True) ↔ Legible fields := by
  have hitself : (Json.record fields).orElse (.record []) = .record fields := by
    cases fields <;> rfl
  simp only [ofJson, hitself, gives_bind, pure_eq_ok, gives_ok, gives_mapM_and, Story.gives_ofJson,
    Capability.gives_ofJson, Entity.gives_ofJson, Rule.gives_ofJson, Persona.gives_ofJson,
    gives_pickItems, gives_itemsOf, legible_iff]
  simp only [and_true]

end

end BusinessAtlas
