import BusinessAtlas.Proofs.Config.Exports

/-!
# Laying settings over settings

What comes of it is known field by field: the fields of the record below stay, in their order, and one
that is given again is laid over in turn. So a record laid over itself changes nothing, nor does one
that is laid over a second time, and fields that the record below does not have do not count, at any
depth. Settings that have their shape keep it when they are laid over the defaults.
-/

namespace BusinessAtlas

namespace Json

/-- No record that is reached from the value through records names a field twice. -/
inductive Keyed : Json → Prop where
  | record {fields : List (String × Json)} : (keys fields).Nodup → (∀ f ∈ fields, Keyed f.2) →
    Keyed (.record fields)
  | leaf {v : Json} : v.isRecord = false → Keyed v

theorem Keyed.nodup {fields : List (String × Json)} (h : Keyed (.record fields)) :
    (keys fields).Nodup := by
  cases h with
  | record hnodup _ => exact hnodup
  | leaf hleaf => cases hleaf

theorem Keyed.of_lookup {fields : List (String × Json)} (h : Keyed (.record fields)) {key : String}
    {v : Json} (hv : lookup key fields = some v) : v.Keyed := by
  cases h with
  | record _ hall => exact hall _ (mem_of_lookup hv)
  | leaf hleaf => cases hleaf

theorem keys_put {fields : List (String × Json)} {key : String} {old : Json}
    (h : lookup key fields = some old) (value : Json) : keys (put key value fields) = keys fields := by
  induction fields with
  | nil => cases h
  | cons f rest ih =>
    obtain ⟨k, v⟩ := f
    by_cases hk : k == key
    · simp [put, keys, hk]
    · simp only [lookup, hk] at h
      simpa [put, keys, hk] using ih h

theorem eq_of_lookup {xs ys : List (String × Json)} (hkeys : keys xs = keys ys)
    (hnodup : (keys xs).Nodup) (h : ∀ key, lookup key xs = lookup key ys) : xs = ys := by
  induction xs generalizing ys with
  | nil => exact (List.map_eq_nil_iff.mp hkeys.symm).symm
  | cons x xs ih =>
    cases ys with
    | nil => cases hkeys
    | cons y ys =>
      obtain ⟨k, v⟩ := x
      obtain ⟨l, w⟩ := y
      obtain ⟨rfl, hrest⟩ : k = l ∧ keys xs = keys ys := by simpa [keys] using hkeys
      obtain ⟨hnot, hnodup⟩ := List.nodup_cons.mp hnodup
      have hsame : v = w := by simpa [lookup] using h k
      have htail : xs = ys := by
        apply ih hrest hnodup
        intro key
        by_cases hk : k = key
        · subst hk
          rw [lookup_eq_none hnot, lookup_eq_none (hrest ▸ hnot)]
        · simpa [lookup, hk] using h key
      rw [hsame, htail]

theorem fieldViolations_eq_nil {path : List Step} {fs : List (String × Json)}
    {table : List (String × List Check)} : fieldViolations path fs table = [] ↔
      ∀ row ∈ table, ∀ w, lookup row.1 fs = some w →
        schemaViolations (.field row.1 :: path) w row.2 = [] := by
  induction table with
  | nil => simp [fieldViolations]
  | cons row rest ih =>
    rw [fieldViolations, List.append_eq_nil_iff, ih, List.forall_mem_cons]
    cases lookup row.1 fs <;> simp

end Json

namespace Config

open Json (Keyed keys lookup schemaViolations)

variable {base upper : List (String × Json)} {old v : Json}

mutual

/-- The upper value without the fields that the base does not have, at each level where both are
records. -/
def pruned : Json → Json → Json
  | .record base, .record upper => .record (prunedFields base upper)
  | _, upper => upper

def prunedFields (base : List (String × Json)) : List (String × Json) → List (String × Json)
  | [] => []
  | (k, v) :: rest =>
    match Json.lookup k base with
    | some old => (k, pruned old v) :: prunedFields base rest
    | none => prunedFields base rest

end

theorem overlay_of_not_record (h : v.isRecord = false) (old : Json) : overlay old v = v := by
  cases v with
  | record fields => cases h
  | _ => cases old <;> rfl

theorem overlay_not_record (h : old.isRecord = false) (v : Json) : overlay old v = v := by
  cases old with
  | record fields => cases h
  | _ => cases v <;> rfl

theorem pruned_not_record (h : old.isRecord = false) (v : Json) : pruned old v = v := by
  cases old with
  | record fields => cases h
  | _ => cases v <;> rfl

theorem keys_overlayFields (base upper : List (String × Json)) :
    keys (overlayFields base upper) = keys base := by
  induction upper generalizing base with
  | nil => rw [overlayFields]
  | cons f rest ih =>
    rw [overlayFields]
    split
    · next old hold => rw [ih, Json.keys_put hold]
    · exact ih base

theorem overlay_self (h : v.Keyed) : overlay v v = v := by
  induction h with
  | leaf hleaf => exact overlay_of_not_record hleaf _
  | @record fields hnodup hall ih =>
    rw [overlay]
    apply congrArg Json.record
    apply Json.eq_of_lookup (keys_overlayFields fields fields)
    · rw [keys_overlayFields]
      exact hnodup
    · intro key
      rw [lookup_overlayFields hnodup]
      cases hv : lookup key fields with
      | none => rfl
      | some v => simp [ih _ (Json.mem_of_lookup hv)]

theorem overlay_overlay (hold : old.Keyed) (hv : v.Keyed) :
    overlay (overlay old v) v = overlay old v := by
  induction hold generalizing v with
  | leaf hleaf => rw [overlay_not_record hleaf, overlay_self hv]
  | @record fields hnodup hall ih =>
    cases v with
    | record given =>
      simp only [overlay]
      apply congrArg Json.record
      apply Json.eq_of_lookup (keys_overlayFields _ _)
      · rw [keys_overlayFields, keys_overlayFields]
        exact hnodup
      · intro key
        rw [lookup_overlayFields hv.nodup, lookup_overlayFields hv.nodup]
        cases hfield : lookup key fields with
        | none => rfl
        | some w =>
          cases hgiven : lookup key given with
          | none => rfl
          | some u => simp [ih _ (Json.mem_of_lookup hfield) (hv.of_lookup hgiven)]
    | _ => exact overlay_of_not_record rfl _

theorem lookup_prunedFields (base upper : List (String × Json)) (key : String) :
    lookup key (prunedFields base upper) =
      (lookup key base).bind fun old => (lookup key upper).map (pruned old) := by
  induction upper with
  | nil => cases lookup key base <;> rfl
  | cons f rest ih =>
    obtain ⟨k, v⟩ := f
    rw [prunedFields]
    by_cases hk : k = key
    · subst hk
      cases hbase : lookup k base with
      | none => simp [ih, hbase]
      | some old => simp [lookup]
    · cases hbase : lookup k base <;> simp [lookup, hk, ih]

theorem keys_prunedFields (base upper : List (String × Json)) :
    keys (prunedFields base upper) = (keys upper).filter fun k => (lookup k base).isSome := by
  induction upper with
  | nil => rfl
  | cons f rest ih =>
    rw [prunedFields]
    cases hbase : lookup f.1 base <;> simpa [keys, hbase] using ih

theorem overlay_pruned (hold : old.Keyed) (hv : v.Keyed) :
    overlay old (pruned old v) = overlay old v := by
  induction hold generalizing v with
  | leaf hleaf => rw [overlay_not_record hleaf, pruned_not_record hleaf, overlay_not_record hleaf]
  | @record fields hnodup hall ih =>
    cases v with
    | record given =>
      have hpruned : (keys (prunedFields fields given)).Nodup := by
        rw [keys_prunedFields]
        exact hv.nodup.filter _
      simp only [pruned, overlay]
      apply congrArg Json.record
      apply Json.eq_of_lookup
      · rw [keys_overlayFields, keys_overlayFields]
      · rw [keys_overlayFields]
        exact hnodup
      · intro key
        rw [lookup_overlayFields hpruned, lookup_overlayFields hv.nodup, lookup_prunedFields]
        cases hfield : lookup key fields with
        | none => rfl
        | some w =>
          cases hgiven : lookup key given with
          | none => rfl
          | some u => simp [ih _ (Json.mem_of_lookup hfield) (hv.of_lookup hgiven)]
    | _ => rfl

/-- A value that passes the schema still does with another one laid over it that passes. -/
def Layers (schema : Json.Schema) : Prop := ∀ path old (v : Json), v.Keyed →
  schemaViolations path old schema = [] → schemaViolations path v schema = [] →
  schemaViolations path (overlay old v) schema = []

theorem layers_of_no_record {schema : Json.Schema}
    (h : ∀ path fields, schemaViolations path (.record fields) schema ≠ []) : Layers schema := by
  intro path old v _ _ hv
  cases v with
  | record fields => exact absurd hv (h path fields)
  | _ =>
    rw [overlay_of_not_record rfl]
    exact hv

theorem layers_object {table : List (String × Json.Schema)} (h : ∀ row ∈ table, Layers row.2) :
    Layers [.kinds [.object], .fields table] := by
  intro path old v hkeyed hold hv
  obtain ⟨fields, rfl⟩ := Json.Conforms.exists_fields ⟨path, hold⟩
  obtain ⟨given, rfl⟩ := Json.Conforms.exists_fields ⟨path, hv⟩
  have hviolations (fs : List (String × Json)) :
      schemaViolations path (.record fs) [.kinds [.object], .fields table] =
        Json.fieldViolations path fs table ++ [] := rfl
  rw [hviolations, List.append_nil, Json.fieldViolations_eq_nil] at hold hv
  rw [overlay, hviolations, List.append_nil, Json.fieldViolations_eq_nil]
  intro row hrow w hw
  rw [lookup_overlayFields hkeyed.nodup] at hw
  cases hfield : lookup row.1 fields with
  | none => simp [hfield] at hw
  | some below =>
    have hbelow := hold row hrow below hfield
    cases hgiven : lookup row.1 given with
    | none =>
      obtain rfl : below = w := by simpa [hfield, hgiven] using hw
      exact hbelow
    | some above =>
      obtain rfl : overlay below above = w := by simpa [hfield, hgiven] using hw
      exact h row hrow _ _ _ (hkeyed.of_lookup hgiven) hbelow (hv row hrow above hgiven)

theorem layers_schema : Layers schema := by
  have hkind (k : Json.Kind) (rest : Json.Schema) (h : k ≠ .object) :
      Layers (.kinds [k] :: rest) := by
    apply layers_of_no_record
    intro path fields
    cases k with
    | object => exact absurd rfl h
    | _ => simp [schemaViolations, Json.Check.violations, Json.Kind.holds]
  have hoption (values : List Json) (h : values.all Json.isText = true) :
      Layers [.oneOf values] := by
    apply layers_of_no_record
    intro path fields
    have hnone : values.any (Json.agrees (.record fields)) = false := by
      simp only [List.any_eq_false]
      intro v hv
      obtain ⟨s, rfl⟩ := Json.isText_iff.mp (List.all_eq_true.mp h v hv)
      simp [Json.agrees, Json.isOne, Json.same, Json.isUndefined]
    simp [schemaViolations, Json.Check.violations, hnone]
  apply layers_object
  simp only [List.forall_mem_cons, List.not_mem_nil, false_imp_iff, implies_true, and_true]
  refine ⟨?_, ?_, ?_, ?_, ?_⟩
  all_goals
    apply layers_object
    simp [hkind, hoption, Json.isText]

/-- What comes of laying fields over a base: the fields of the base, each as it is or with what is given
for it laid over. Nothing changes when the same is laid over once more, or without the fields that the
base does not have. -/
structure Merged (base upper merged : List (String × Json)) : Prop where
  merge_eq : merge (.record base) (.record upper) = .ok (.record merged)
  keys_eq : keys merged = keys base
  fields_eq : ∀ key, lookup key merged = (lookup key base).map fun old =>
    ((lookup key upper).map (overlay old)).getD old
  again : merge (.record merged) (.record upper) = .ok (.record merged)
  pruned_eq : merge (.record base) (.record (prunedFields base upper)) = .ok (.record merged)

private theorem exists_merged (hbase : Keyed (.record base)) (hupper : Keyed (.record upper)) :
    ∃ merged, Merged base upper merged := by
  have hagain := overlay_overlay hbase hupper
  have hpruned := overlay_pruned hbase hupper
  simp only [overlay, pruned, Json.record.injEq] at hagain hpruned
  exact ⟨overlayFields base upper, merge_record base upper, keys_overlayFields base upper,
    lookup_overlayFields hupper.nodup, by rw [merge_record, hagain], by rw [merge_record, hpruned]⟩

private theorem accepts_merged (hv : v.Keyed) (h : schema.accepts v = true) :
    ∃ merged c, merge defaults v = .ok merged ∧ schema.accepts merged = true ∧ ofJson v = .ok c := by
  obtain ⟨given, rfl⟩ := (Json.conforms_of_accepts h).exists_fields
  obtain ⟨c, hc⟩ := exists_ofJson hv.nodup h
  have hmerge : merge defaults (.record given) = .ok (overlay defaults (.record given)) := by
    simp only [defaults, merge_record, overlay]
  have hdefaults : schemaViolations [] defaults schema = [] := by decide +kernel
  refine ⟨overlay defaults (.record given), c, hmerge, ?_, hc⟩
  exact List.isEmpty_iff.mpr (layers_schema [] _ _ hv hdefaults (List.isEmpty_iff.mp h))

/-- A record over which nothing is laid, or the record itself, stays as it is. What is laid over it
comes into its fields only, and no more when it comes again. Accepted settings laid over the defaults
are accepted, and can be read. -/
theorem merged_of_keyed (hbase : Keyed (.record base)) (hupper : Keyed (.record upper)) :
    merge (.record base) (.record []) = .ok (.record base) ∧
    merge (.record base) (.record base) = .ok (.record base) ∧
    (∃ merged, Merged base upper merged) ∧
    ∀ v : Json, v.Keyed → schema.accepts v = true → ∃ merged c,
      merge defaults v = .ok merged ∧ schema.accepts merged = true ∧ ofJson v = .ok c := by
  have hself := overlay_self hbase
  rw [overlay, Json.record.injEq] at hself
  refine ⟨rfl, ?_, exists_merged hbase hupper, fun v => accepts_merged⟩
  rw [merge_record, hself]

private def drawer : List (String × Json) :=
  [("paper", .record [("size", .text "A4"), ("sheets", .int 80)]), ("pens", .int 2), ("keys", .record [])]

/-- A record where the drawer has none and the other way round, and things that it has no place for. -/
private def delivery : List (String × Json) :=
  [("stamps", .int 5), ("pens", .record [("red", .int 1)]), ("keys", .null),
    ("paper", .record [("sheets", .int 500), ("ruled", .bool true)])]

private theorem keyed_leaves {fields : List (String × Json)} (hnodup : (keys fields).Nodup)
    (h : fields.all (fun f => !f.2.isRecord) = true) : Keyed (.record fields) := by
  apply Keyed.record hnodup
  intro f hf
  exact .leaf (by simpa using List.all_eq_true.mp h f hf)

theorem merged_of_keyed_drawer : Keyed (.record drawer) ∧ Keyed (.record delivery) ∧
    merge (.record drawer) (.record drawer) = .ok (.record drawer) ∧
    Merged drawer delivery [("paper", .record [("size", .text "A4"), ("sheets", .int 500)]),
      ("pens", .record [("red", .int 1)]), ("keys", .null)] ∧
    ∃ c, ofJson (.record [("graph", .record [("title", .text "Desk")]), ("drawers", .int 3)]) = .ok c := by
  have hdrawer : Keyed (.record drawer) := by
    apply Keyed.record (by decide)
    simp only [drawer, List.forall_mem_cons]
    exact ⟨keyed_leaves (by decide) rfl, .leaf rfl, keyed_leaves (by decide) rfl, nofun⟩
  have hdelivery : Keyed (.record delivery) := by
    apply Keyed.record (by decide)
    simp only [delivery, List.forall_mem_cons]
    exact ⟨.leaf rfl, keyed_leaves (by decide) rfl, .leaf rfl, keyed_leaves (by decide) rfl, nofun⟩
  have hdesk : Keyed (.record [("graph", .record [("title", .text "Desk")]), ("drawers", .int 3)]) := by
    apply Keyed.record (by decide)
    simp only [List.forall_mem_cons]
    exact ⟨keyed_leaves (by decide) rfl, .leaf rfl, nofun⟩
  obtain ⟨-, hself, ⟨merged, hmerged⟩, haccepted⟩ := merged_of_keyed hdrawer hdelivery
  obtain ⟨-, c, -, -, hc⟩ := haccepted _ hdesk (by decide +kernel)
  have hmerge := hmerged.merge_eq
  cases hmerge
  exact ⟨hdrawer, hdelivery, hself, hmerged, c, hc⟩

end Config

end BusinessAtlas
