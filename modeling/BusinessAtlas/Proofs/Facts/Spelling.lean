import BusinessAtlas.Facts.Project
import BusinessAtlas.Proofs.Json.Printer

/-!
# The two spellings of a field

Many fields of the facts have two spellings, one of which is taken as the plain one. Each kind of
record knows its own, so what is a second spelling in one record is a key like any other in the
next. A value is spelled plainly along the way it is read, record by record, and what is only kept
stays as it is. As long as no record that is read has both spellings of a field, every field holds
what it held before, spelled plainly.
-/

namespace BusinessAtlas

/-- The kinds of record with a field that has two spellings or that holds such records. -/
inductive Role where
  | facts | component | input | transfer | context | story | capability | entity | rule
  deriving DecidableEq

/-- How a value is read: kept as it is, as one record, or as a list of records. -/
inductive Reading where
  | kept
  | record (role : Role)
  | each (role : Role)
  deriving DecidableEq

namespace Role

/-- The keys that a record knows in two spellings, the plain one second. -/
def spellings : Role → List (String × String)
  | facts => [("dataFlows", "data_flows"), ("businessContext", "business_context")]
  | component => [("filePath", "file_path")]
  | input => [("isRequired", "is_required")]
  | transfer => [("from", "source"), ("to", "target")]
  | context => [("userStories", "user_stories"), ("dataModel", "data_model"),
      ("businessRules", "business_rules")]
  | story => [("storyType", "story_type"), ("businessCapability", "business_capability"),
      ("sourceComponents", "source_components"), ("acceptanceCriteria", "acceptance_criteria")]
  | capability => [("userStories", "user_stories"), ("dataEntities", "data_entities"),
      ("businessValue", "business_value")]
  | entity => [("businessPurpose", "business_purpose")]
  | rule => [("affectedEntities", "affected_entities")]

/-- The plain spelling of a key. -/
def plain (r : Role) (key : String) : String := (r.spellings.lookup key).getD key

/-- How a record reads the value under a plain key. -/
def reading : Role → String → Reading
  | facts, "components" => .each component
  | facts, "data_flows" => .each transfer
  | facts, "business_context" => .record context
  | component, "props" => .each input
  | component, "children" => .each component
  | context, "user_stories" => .each story
  | context, "capabilities" => .each capability
  | context, "data_model" => .each entity
  | context, "business_rules" => .each rule
  | _, _ => .kept

/-- The key is known in this one spelling only. -/
def Fixed (r : Role) (key : String) : Prop := ∀ s ∈ r.spellings, s.1 ≠ key ∧ s.2 ≠ key

instance (r : Role) (key : String) : Decidable (r.Fixed key) :=
  inferInstanceAs (Decidable (∀ s ∈ r.spellings, s.1 ≠ key ∧ s.2 ≠ key))

/-- How a record reads a field that is asked for under these spellings, if they are all it has. -/
def reads (r : Role) : List String → Option Reading
  | [key] => if r.Fixed key then some (r.reading key) else none
  | [other, key] => if (other, key) ∈ r.spellings then some (r.reading key) else none
  | _ => none

section

variable {r : Role} {key other : String}

private theorem spellings_unique : ∀ s ∈ r.spellings, ∀ t ∈ r.spellings,
    s.1 ≠ t.2 ∧ (s.1 = t.1 ∨ s.2 = t.2 → s = t) := by
  cases r <;> decide

private theorem plain_cases (r : Role) (key : String) :
    (key, r.plain key) ∈ r.spellings ∨ (∀ s ∈ r.spellings, s.1 ≠ key) ∧ r.plain key = key := by
  unfold plain
  cases h : r.spellings.lookup key with
  | none =>
    have hnot := List.lookup_eq_none_iff.mp h
    exact .inr ⟨fun s hs hkey => by simpa [hkey] using hnot s hs, rfl⟩
  | some p =>
    obtain ⟨before, after, heq, -⟩ := List.lookup_eq_some_iff.mp h
    exact .inl (by simp [heq])

theorem Fixed.plain_eq_iff (h : r.Fixed key) {k : String} : r.plain k = key ↔ k = key := by
  rcases plain_cases r k with hk | ⟨-, hk⟩
  · exact iff_of_false (h _ hk).2 (h _ hk).1
  · rw [hk]

theorem plain_eq_iff (h : (other, key) ∈ r.spellings) {k : String} :
    r.plain k = key ↔ k = other ∨ k = key := by
  rcases plain_cases r k with hk | ⟨hnot, hk⟩
  · obtain ⟨hkey, hsame⟩ := spellings_unique _ hk _ h
    simp only [Prod.mk.injEq] at hkey hsame
    constructor
    · exact fun hp => .inl (hsame (.inr hp)).1
    · rintro (hko | hkk)
      · exact (hsame (.inl hko)).2
      · exact absurd hkk hkey
  · have hother : k ≠ other := fun hko => hnot _ h hko.symm
    simp [hk, hother]

theorem plain_ne (h : (other, key) ∈ r.spellings) (k : String) : r.plain k ≠ other := by
  rcases plain_cases r k with hk | ⟨hnot, hk⟩
  · exact fun hp => (spellings_unique _ h _ hk).1 hp.symm
  · rw [hk]
    exact fun hko => hnot _ h hko.symm

theorem reading_of_reads {keys : List String} {ρ : Reading} (h : r.reads keys = some ρ)
    (hkey : key ∈ keys) : r.reading (r.plain key) = ρ := by
  unfold reads at h
  split at h
  · next k =>
    obtain ⟨hfixed, hρ⟩ := Option.ite_none_right_eq_some.mp h
    cases hρ
    rw [hfixed.plain_eq_iff.mpr (List.mem_singleton.mp hkey)]
  · next other k =>
    obtain ⟨hmem, hρ⟩ := Option.ite_none_right_eq_some.mp h
    cases hρ
    rw [(plain_eq_iff hmem).mpr (by simpa using hkey)]
  · cases h

end

end Role

namespace Json

mutual

/-- The value with the keys of every record that is read in their plain spelling. -/
def respell : Reading → Json → Json
  | .record r, .record fields => .record (respellFields r fields)
  | .each r, .list items => .list (respellItems r items)
  | _, v => v

def respellItems (r : Role) : List Json → List Json
  | [] => []
  | v :: rest => v.respell (.record r) :: respellItems r rest

def respellFields (r : Role) : List (String × Json) → List (String × Json)
  | [] => []
  | (key, v) :: rest =>
    (r.plain key, v.respell (r.reading (r.plain key))) :: respellFields r rest

end

mutual

/-- Whether no record that is read has both spellings of a key. -/
def unmixed : Reading → Json → Bool
  | .record r, .record fields =>
    (r.spellings.all fun s => (lookup s.1 fields).isNone || (lookup s.2 fields).isNone) &&
      unmixedFields r fields
  | .each r, .list items => unmixedItems r items
  | _, _ => true

def unmixedItems (r : Role) : List Json → Bool
  | [] => true
  | v :: rest => v.unmixed (.record r) && unmixedItems r rest

def unmixedFields (r : Role) : List (String × Json) → Bool
  | [] => true
  | (key, v) :: rest => v.unmixed (r.reading (r.plain key)) && unmixedFields r rest

end

section

variable {r : Role} {ρ : Reading} {v d : Json} {items : List Json} {fields : List (String × Json)}
  {key other : String} {spellings : List String}

@[simp] theorem respell_kept (v : Json) : v.respell .kept = v := by
  cases v <;> rfl

theorem respellItems_eq_map : respellItems r items = items.map (respell (.record r)) := by
  induction items with
  | nil => rfl
  | cons v rest ih => rw [respellItems, List.map_cons, ih]

theorem unmixedItems_iff :
    unmixedItems r items = true ↔ ∀ v ∈ items, v.unmixed (.record r) = true := by
  induction items with
  | nil => simp [unmixedItems]
  | cons v rest ih => rw [unmixedItems, Bool.and_eq_true, ih, List.forall_mem_cons]

@[simp] theorem isNull_respell : (v.respell ρ).isNull = v.isNull := by
  cases ρ <;> cases v <;> rfl

@[simp] theorem isText_respell : (v.respell ρ).isText = v.isText := by
  cases ρ <;> cases v <;> rfl

@[simp] theorem isRecord_respell : (v.respell ρ).isRecord = v.isRecord := by
  cases ρ <;> cases v <;> rfl

@[simp] theorem isVacant_respell : (v.respell ρ).isVacant = v.isVacant := by
  cases ρ with
  | kept => cases v <;> rfl
  | record r =>
    cases v with
    | record fields => cases fields <;> rfl
    | _ => rfl
  | each r =>
    cases v with
    | list items => cases items <;> rfl
    | _ => rfl

@[simp] theorem weight_respell : (v.respell ρ).weight = v.weight := by
  induction v using Json.induction generalizing ρ with
  | list items ih =>
    cases ρ with
    | each r =>
      have hitems : listWeight (respellItems r items) = listWeight items := by
        induction items with
        | nil => rfl
        | cons w rest ihrest =>
          obtain ⟨hw, hrest⟩ := List.forall_mem_cons.mp ih
          rw [respellItems, listWeight, hw, ihrest hrest, listWeight]
      rw [respell, weight, hitems, weight]
    | _ => rfl
  | record fields ih =>
    cases ρ with
    | record r =>
      have hfields : fieldWeight (respellFields r fields) = fieldWeight fields := by
        induction fields with
        | nil => rfl
        | cons f rest ihrest =>
          obtain ⟨hf, hrest⟩ := List.forall_mem_cons.mp ih
          rw [respellFields, fieldWeight, hf, ihrest hrest, fieldWeight]
      rw [respell, weight, hfields, weight]
    | _ => rfl
  | _ => cases ρ <;> rfl

theorem lookup_respellFields_of_fixed (h : r.Fixed key) :
    lookup key (respellFields r fields) = (lookup key fields).map (respell (r.reading key)) := by
  induction fields with
  | nil => rfl
  | cons f rest ih =>
    obtain ⟨k, w⟩ := f
    simp only [respellFields, lookup, beq_iff_eq, h.plain_eq_iff, ih]
    split
    · next hk => rw [h.plain_eq_iff.mpr hk]; rfl
    · rfl

theorem lookup_respellFields_other (h : (other, key) ∈ r.spellings) :
    lookup other (respellFields r fields) = none := by
  induction fields with
  | nil => rfl
  | cons f rest ih => simp [respellFields, lookup, r.plain_ne h, ih]

theorem lookup_respellFields_plain (h : (other, key) ∈ r.spellings)
    (hone : lookup other fields = none ∨ lookup key fields = none) :
    lookup key (respellFields r fields) =
      ((lookup other fields).or (lookup key fields)).map (respell (r.reading key)) := by
  induction fields with
  | nil => rfl
  | cons f rest ih =>
    obtain ⟨k, w⟩ := f
    simp only [lookup, beq_iff_eq] at hone
    simp only [respellFields, lookup, beq_iff_eq]
    by_cases hother : k = other
    · subst hother
      rw [if_pos ((r.plain_eq_iff h).mpr (.inl rfl)), if_pos rfl, (r.plain_eq_iff h).mpr (.inl rfl)]
      rfl
    rw [if_neg hother] at hone ⊢
    by_cases hkey : k = key
    · subst hkey
      rw [if_pos rfl] at hone ⊢
      have hnone : lookup other rest = none := by simpa using hone
      rw [if_pos ((r.plain_eq_iff h).mpr (.inr rfl)), hnone, (r.plain_eq_iff h).mpr (.inr rfl)]
      rfl
    · have hplain : r.plain k ≠ key := fun hp => ((r.plain_eq_iff h).mp hp).elim hother hkey
      rw [if_neg hkey] at hone ⊢
      rw [if_neg hplain, ih hone]

/-- A field that is there and not null. -/
def given (key : String) (fields : List (String × Json)) : Option Json :=
  (lookup key fields).filter fun w => !w.isNull

theorem pick_record :
    pick spellings (.record fields) = .ok (spellings.findSome? (given · fields)) := by
  induction spellings with
  | nil => rfl
  | cons key rest ih =>
    rw [pick, List.findSome?_cons, given]
    split
    · next h => rw [h, ih]; rfl
    · next h => rw [h, ih]; rfl
    · next w hnull h =>
      have hw : w.isNull = false := by
        cases w with
        | null => exact absurd rfl hnull
        | _ => rfl
      simp [h, Option.filter_some, hw]

theorem unmixed_record : unmixed (.record r) (.record fields) = true ↔
    (∀ s ∈ r.spellings, lookup s.1 fields = none ∨ lookup s.2 fields = none) ∧
      unmixedFields r fields = true := by
  simp [unmixed]

theorem unmixed_of_lookup (h : unmixedFields r fields = true) {w : Json}
    (hw : lookup key fields = some w) : w.unmixed (r.reading (r.plain key)) = true := by
  induction fields with
  | nil => cases hw
  | cons f rest ih =>
    obtain ⟨k, u⟩ := f
    obtain ⟨hu, hrest⟩ := Bool.and_eq_true_iff.mp h
    rw [lookup] at hw
    split at hw
    · next hk =>
      cases hw
      rwa [← eq_of_beq hk]
    · exact ih hrest hw

private theorem filter_respell {o : Option Json} :
    ((o.map (respell ρ)).filter fun w => !w.isNull) =
      (o.filter fun w => !w.isNull).map (respell ρ) := by
  simp only [Option.filter_map, Function.comp_def, isNull_respell]

theorem findSome_respellFields
    (hone : ∀ s ∈ r.spellings, lookup s.1 fields = none ∨ lookup s.2 fields = none)
    (h : r.reads spellings = some ρ) :
    spellings.findSome? (given · (respellFields r fields)) =
      (spellings.findSome? (given · fields)).map (respell ρ) := by
  unfold Role.reads at h
  split at h
  · next key =>
    obtain ⟨hfixed, hρ⟩ := Option.ite_none_right_eq_some.mp h
    cases hρ
    simp only [List.findSome?_singleton, given, lookup_respellFields_of_fixed hfixed,
      filter_respell]
  · next other key =>
    obtain ⟨hmem, hρ⟩ := Option.ite_none_right_eq_some.mp h
    cases hρ
    have hone := hone _ hmem
    simp only [List.findSome?_cons, List.findSome?_nil, given, lookup_respellFields_other hmem,
      lookup_respellFields_plain hmem hone, filter_respell]
    rcases hone with hone | hone
    · cases hgiven : (lookup key fields).filter fun w => !w.isNull <;> simp [hone, hgiven]
    · cases hgiven : (lookup other fields).filter fun w => !w.isNull <;> simp [hone, hgiven]
  · cases h

theorem respell_of_not_record (hv : v.isRecord = false) : v.respell (.record r) = v := by
  cases v with
  | record fields => cases hv
  | _ => rfl

theorem pick_of_not_record (hv : v.isRecord = false) :
    Yields (v.pick spellings) fun o => o = none := by
  induction spellings with
  | nil => exact yields_ok rfl
  | cons key rest ih =>
    unfold pick
    split
    · cases hv
    · refine Yields.bind (yields_true _) fun b _ => ?_
      split
      · exact yields_error _
      · exact ih

theorem pick_respell (hv : v.unmixed (.record r) = true) (h : r.reads spellings = some ρ) :
    (v.respell (.record r)).pick spellings = Option.map (respell ρ) <$> v.pick spellings := by
  cases hrec : v.isRecord with
  | false =>
    rw [respell_of_not_record hrec]
    cases hpick : v.pick spellings with
    | error e => rfl
    | ok o =>
      cases pick_of_not_record hrec o hpick
      rfl
  | true =>
    cases v with
    | record fields =>
      rw [respell, pick_record, pick_record, map_ok,
        findSome_respellFields (unmixed_record.mp hv).1 h]
    | _ => cases hrec

theorem unmixed_pick (hv : v.unmixed (.record r) = true) (h : r.reads spellings = some ρ) :
    Yields (v.pick spellings) fun o => ∀ w, o = some w → w.unmixed ρ = true := by
  intro o ho w hw
  cases hrec : v.isRecord with
  | false => cases (pick_of_not_record hrec o ho).symm.trans hw
  | true =>
    cases v with
    | record fields =>
      rw [pick_record] at ho
      cases ho
      obtain ⟨key, hkey, hgiven⟩ := List.exists_of_findSome?_eq_some hw
      rw [← Role.reading_of_reads h hkey]
      exact unmixed_of_lookup (unmixed_record.mp hv).2 (Option.filter_eq_some_iff.mp hgiven).1
    | _ => cases hrec

theorem get_respell (h : r.reads [key] = some ρ) :
    (v.respell (.record r)).get key = Option.map (respell ρ) <$> v.get key := by
  obtain ⟨hfixed, hρ⟩ := Option.ite_none_right_eq_some.mp h
  cases hρ
  cases v with
  | record fields => rw [respell, get, get, lookup_respellFields_of_fixed hfixed, map_ok]
  | _ => rfl

theorem unmixed_get (hv : v.unmixed (.record r) = true) (h : r.reads [key] = some ρ) :
    Yields (v.get key) fun o => ∀ w, o = some w → w.unmixed ρ = true := by
  intro o ho w hw
  cases v with
  | record fields =>
    cases ho
    rw [← Role.reading_of_reads h List.mem_cons_self]
    exact unmixed_of_lookup (unmixed_record.mp hv).2 hw
  | _ => cases ho

theorem orElse_respell (hd : d.respell ρ = d) :
    (v.respell ρ).orElse d = (v.orElse d).respell ρ := by
  unfold orElse
  rw [isVacant_respell]
  split
  · exact hd.symm
  · rfl

theorem unmixed_orElse (hv : v.unmixed ρ = true) (hd : d.unmixed ρ = true) :
    (v.orElse d).unmixed ρ = true := by
  unfold orElse
  split
  · exact hd
  · exact hv

private theorem getD_map {o : Option Json} (hd : d.respell ρ = d) :
    (o.map (respell ρ)).getD d = (o.getD d).respell ρ := by
  cases o with
  | none => exact hd.symm
  | some w => rfl

private theorem unmixed_getD {o : Option Json} (ho : ∀ w, o = some w → w.unmixed ρ = true)
    (hd : d.unmixed ρ = true) : (o.getD d).unmixed ρ = true := by
  cases o with
  | none => exact hd
  | some w => exact ho w rfl

@[simp] theorem respell_null : null.respell ρ = null := by
  cases ρ <;> rfl

@[simp] theorem unmixed_null : null.unmixed ρ = true := by
  cases ρ <;> rfl

theorem getD_respell (h : r.reads [key] = some ρ) (hd : d.respell ρ = d) :
    (v.respell (.record r)).getD key d = respell ρ <$> v.getD key d := by
  simp only [getD, get_respell h, bind_map_left, map_bind, map_pure, getD_map hd]

theorem getOr_respell (h : r.reads [key] = some ρ) (hd : d.respell ρ = d) :
    (v.respell (.record r)).getOr key d = respell ρ <$> v.getOr key d := by
  simp only [getOr, get_respell h, bind_map_left, map_bind, map_pure, getD_map respell_null,
    orElse_respell hd]

theorem pickD_respell (hv : v.unmixed (.record r) = true) (h : r.reads spellings = some ρ)
    (hd : d.respell ρ = d) :
    (v.respell (.record r)).pickD spellings d = respell ρ <$> v.pickD spellings d := by
  simp only [pickD, pick_respell hv h, bind_map_left, map_bind, map_pure, getD_map hd]

theorem unmixed_getOr (hv : v.unmixed (.record r) = true) (h : r.reads [key] = some ρ)
    (hd : d.unmixed ρ = true) : Yields (v.getOr key d) fun w => w.unmixed ρ = true :=
  Yields.bind (unmixed_get hv h) fun _ ho =>
    yields_ok (unmixed_orElse (unmixed_getD ho unmixed_null) hd)

theorem unmixed_pickD (hv : v.unmixed (.record r) = true) (h : r.reads spellings = some ρ)
    (hd : d.unmixed ρ = true) : Yields (v.pickD spellings d) fun w => w.unmixed ρ = true :=
  Yields.bind (unmixed_pick hv h) fun _ ho => yields_ok (unmixed_getD ho hd)

end

section

variable {r : Role} {v d : Json} {key : String} {spellings : List String}

theorem respell_kept_eq_id : respell .kept = id := funext respell_kept

theorem getD_kept (h : r.reads [key] = some .kept) :
    (v.respell (.record r)).getD key d = v.getD key d := by
  rw [getD_respell h (respell_kept d), respell_kept_eq_id, id_map]

theorem getOr_kept (h : r.reads [key] = some .kept) :
    (v.respell (.record r)).getOr key d = v.getOr key d := by
  rw [getOr_respell h (respell_kept d), respell_kept_eq_id, id_map]

theorem itemsOf_kept (h : r.reads [key] = some .kept) :
    (v.respell (.record r)).itemsOf key = v.itemsOf key := by
  rw [itemsOf, itemsOf, getOr_kept h]

theorem pickD_kept (hv : v.unmixed (.record r) = true) (h : r.reads spellings = some .kept) :
    (v.respell (.record r)).pickD spellings d = v.pickD spellings d := by
  rw [pickD_respell hv h (respell_kept d), respell_kept_eq_id, id_map]

theorem pickItems_kept (hv : v.unmixed (.record r) = true) (h : r.reads spellings = some .kept) :
    (v.respell (.record r)).pickItems spellings = v.pickItems spellings := by
  rw [pickItems, pickItems, pickD_kept hv h]

end

/-- The second step gives the records of the first one spelled plainly, none of them mixed. -/
structure Alike (r : Role) (x y : Except Fault (List Json)) : Prop where
  eq : y = List.map (respell (.record r)) <$> x
  unmixed : Yields x fun items => ∀ w ∈ items, w.unmixed (.record r) = true

section

variable {r inner : Role} {v : Json} {items : List Json} {key : String} {spellings : List String}

theorem unmixed_of_not_record (hv : v.isRecord = false) : v.unmixed (.record r) = true := by
  cases v with
  | record fields => cases hv
  | _ => rfl

private theorem alike_of_not_record (h : ∀ w ∈ items, w.isRecord = false) :
    Alike r (.ok items) (.ok items) := by
  have hsame : items.map (respell (.record r)) = items :=
    (List.map_congr_left fun w hw => respell_of_not_record (h w hw)).trans (List.map_id' items)
  exact ⟨congrArg _ hsame.symm, yields_ok fun w hw => unmixed_of_not_record (h w hw)⟩

theorem alike_items (h : v.unmixed (.each r) = true) :
    Alike r v.items (v.respell (.each r)).items := by
  cases v with
  | list items => exact ⟨congrArg _ respellItems_eq_map, yields_ok (unmixedItems_iff.mp h)⟩
  | text s => exact alike_of_not_record (by simp [isRecord])
  | record fields => exact alike_of_not_record (by simp [isRecord])
  | _ => exact ⟨rfl, yields_error _⟩

private theorem alike_bind_items {x : Except Fault Json}
    (h : Yields x fun v => v.unmixed (.each r) = true) :
    Alike r (x >>= Json.items) (respell (.each r) <$> x >>= Json.items) := by
  cases x with
  | error e => exact ⟨rfl, yields_error e⟩
  | ok v => exact alike_items (h v rfl)

theorem alike_itemsOf (hv : v.unmixed (.record r) = true)
    (h : r.reads [key] = some (.each inner)) :
    Alike inner (v.itemsOf key) ((v.respell (.record r)).itemsOf key) := by
  rw [itemsOf, itemsOf, getOr_respell h rfl]
  exact alike_bind_items (unmixed_getOr (d := .list []) hv h rfl)

theorem alike_pickItems (hv : v.unmixed (.record r) = true)
    (h : r.reads spellings = some (.each inner)) :
    Alike inner (v.pickItems spellings) ((v.respell (.record r)).pickItems spellings) := by
  rw [pickItems, pickItems, pickD_respell hv h rfl]
  exact alike_bind_items (unmixed_pickD (d := .list []) hv h rfl)

/-- What is made of every record may be made of the records before they are spelled plainly. -/
theorem Alike.bind_mapM {α β : Type} {f : Json → Except Fault α} {g : α → α}
    {x y : Except Fault (List Json)} (h : Alike r x y)
    (hf : ∀ w, w.unmixed (.record r) = true → f (w.respell (.record r)) = g <$> f w)
    (k : List α → Except Fault β) :
    (y >>= fun items => items.mapM f >>= k) =
      x >>= fun items => items.mapM f >>= fun out => k (out.map g) := by
  rw [h.eq]
  cases x with
  | error e => rfl
  | ok items =>
    rw [map_ok, ok_bind, ok_bind, mapM_map fun w hw => hf w (h.unmixed items rfl w hw),
      bind_map_left]

theorem Alike.bind_mapM_same {α β : Type} {f : Json → Except Fault α}
    {x y : Except Fault (List Json)} (h : Alike r x y)
    (hf : ∀ w, w.unmixed (.record r) = true → f (w.respell (.record r)) = f w)
    (k : List α → Except Fault β) :
    (y >>= fun items => items.mapM f >>= k) = x >>= fun items => items.mapM f >>= k := by
  rw [h.bind_mapM (g := id) (fun w hw => by rw [hf w hw, id_map]) k]
  simp only [List.map_id]

end

end Json

end BusinessAtlas
