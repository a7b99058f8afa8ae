import BusinessAtlas.Proofs.Config.Load

/-!
# Export settings

Settings are laid over the defaults field by field, so what is exported is what an accepted document
says of it, or the default. In either case the settings list formats that are declared; their order
and how often each of them is listed are left open.
-/

namespace BusinessAtlas

namespace Json

theorem Conforms.oneOf {v : Json} {values : List Json} {rest : Schema}
    (h : v.Conforms (.oneOf values :: rest)) : values.any (agrees v) = true := by
  obtain ⟨path, h⟩ := h.head
  rw [Check.violations] at h
  split at h
  · assumption
  · cases h

theorem agrees_text {v : Json} {s : String} (h : agrees v (.text s) = true) : v = .text s := by
  cases v <;> simp_all [agrees, isOne, same, isUndefined]

theorem mem_of_lookup {fields : List (String × Json)} {key : String} {v : Json}
    (h : lookup key fields = some v) : (key, v) ∈ fields := by
  induction fields with
  | nil => cases h
  | cons f rest ih =>
    rw [lookup] at h
    split at h
    · next hkey =>
      cases h
      exact eq_of_beq hkey ▸ List.mem_cons_self
    · exact List.mem_cons_of_mem _ (ih h)

theorem lookup_eq_none {fields : List (String × Json)} {key : String} (h : key ∉ keys fields) :
    lookup key fields = none := by
  induction fields with
  | nil => rfl
  | cons f rest ih =>
    obtain ⟨hhead, hrest⟩ := not_or.mp (mt List.mem_cons.mpr h)
    rw [lookup, if_neg (by simpa using fun heq => hhead heq.symm)]
    exact ih hrest

end Json

namespace Yaml

variable {pairs : List (Yaml × Yaml)}

theorem mem_pairsToJson {key : String} {w : Json} :
    (key, w) ∈ pairsToJson pairs ↔ ∃ v, (.text key, v) ∈ pairs ∧ v.toJson = w := by
  induction pairs with
  | nil => simp [pairsToJson]
  | cons p rest ih =>
    obtain ⟨k, v⟩ := p
    cases k <;> simp [pairsToJson, ih, or_and_right, exists_or, eq_comm]

private theorem value_of_put {key value : Yaml} {p : Yaml × Yaml} (h : p ∈ put key value pairs) :
    p ∈ pairs ∨ p.2 = value := by
  induction pairs with
  | nil => exact .inr (by rw [List.mem_singleton.mp h])
  | cons q rest ih =>
    obtain ⟨k, v⟩ := q
    rw [put] at h
    split at h
    · rcases List.mem_cons.mp h with rfl | h
      · exact .inr rfl
      · exact .inl (List.mem_cons_of_mem _ h)
    · rcases List.mem_cons.mp h with rfl | h
      · exact .inl List.mem_cons_self
      · exact (ih h).imp_left (List.mem_cons_of_mem _)

theorem settled_of_settled {v : Yaml} (h : v.settled = .mapping pairs) :
    ∀ p ∈ pairs, ∃ given : Yaml, p.2 = given.settled := by
  have hall (given done : List (Yaml × Yaml)) (hdone : ∀ p ∈ done, ∃ w : Yaml, p.2 = w.settled) :
      ∀ p ∈ settledPairs done given, ∃ w : Yaml, p.2 = w.settled := by
    induction given generalizing done with
    | nil => exact hdone
    | cons q rest ih =>
      refine ih _ fun p hp => ?_
      rcases value_of_put hp with hp | hp
      · exact hdone p hp
      · exact ⟨q.2, hp⟩
  cases v with
  | mapping given =>
    cases h
    exact hall given [] nofun
  | _ => cases h

end Yaml

/-- The settings list the formats of these names, each of which is declared. -/
structure ExportSettings.Lists (s : ExportSettings) (names : List String) : Prop where
  formats : s.formats = .texts names
  declared : ∀ name ∈ names, name ∈ Config.declaredFormats

namespace Config

variable {fields base upper : List (String × Json)}

theorem lookup_overlayFields (h : (Json.keys upper).Nodup) (key : String) :
    Json.lookup key (overlayFields base upper) = (Json.lookup key base).map fun old =>
      ((Json.lookup key upper).map (overlay old)).getD old := by
  induction upper generalizing base with
  | nil => simp [overlayFields, Json.lookup]
  | cons f rest ih =>
    obtain ⟨k, v⟩ := f
    obtain ⟨hnot, hrest⟩ := List.nodup_cons.mp h
    rw [overlayFields]
    by_cases hkey : k = key
    · subst hkey
      have hnone : Json.lookup k rest = none := Json.lookup_eq_none hnot
      split
      · next old hold => simp [ih hrest, hold, hnone, Json.lookup]
      · next hold => simp [ih hrest, hold]
    · split
      · simp [ih hrest, Json.lookup_put_of_ne hkey, Json.lookup, hkey]
      · simp [ih hrest, Json.lookup, hkey]

private theorem formats_of_sections {c : Config} (h : ofSections (.record fields) = .ok c) :
    ∃ inner, Json.lookup "export" fields = some (.record inner) ∧
      c.exports.formats = (Json.lookup "formats" inner).getD .null := by
  simp only [ofSections, bind_eq_ok, pure_eq_ok, Except.ok.injEq] at h
  obtain ⟨_, -, _, -, _, -, _, -, _, -, _, -, formats, hformats, _, -, _, -, _, -, _, -, _, -, rfl⟩ := h
  split at hformats
  · next inner hinner => exact ⟨inner, hinner, (Except.ok.inj hformats).symm⟩
  · cases hformats

private theorem exists_defaults : ∃ base inner, defaults = .record base ∧
    Json.lookup "export" base = some (.record inner) ∧
    Json.lookup "formats" inner = some (.texts ["json", "cytoscape", "d3"]) :=
  ⟨_, _, rfl, rfl, rfl⟩

private theorem exists_names {items : List Json}
    (h : ∀ item ∈ items, item.Conforms [.oneOf (declaredFormats.map .text)]) :
    ∃ names : List String, items = names.map .text ∧ ∀ name ∈ names, name ∈ declaredFormats := by
  induction items with
  | nil => exact ⟨[], rfl, nofun⟩
  | cons item rest ih =>
    obtain ⟨hitem, hrest⟩ := List.forall_mem_cons.mp h
    obtain ⟨names, rfl, hdeclared⟩ := ih hrest
    obtain ⟨w, hw, hagrees⟩ := List.any_eq_true.mp hitem.oneOf
    obtain ⟨name, hname, rfl⟩ := List.mem_map.mp hw
    exact ⟨name :: names, by rw [Json.agrees_text hagrees, List.map_cons],
      List.forall_mem_cons.mpr ⟨hname, hdeclared⟩⟩

private theorem lists_ofJson {c : Config} (hkeys : (Json.keys fields).Nodup)
    (hgiven : ∀ given, Json.lookup "export" fields = some (.record given) → (Json.keys given).Nodup)
    (haccepts : schema.accepts (.record fields) = true) (h : ofJson (.record fields) = .ok c) :
    ∃ names, c.exports.Lists names := by
  obtain ⟨base, usual, hdefaults, hbase, husual⟩ := exists_defaults
  have hmerged : ofSections (.record (overlayFields base fields)) = .ok c := by
    rwa [ofJson, hdefaults, merge_record, ok_bind] at h
  obtain ⟨inner, hinner, hformats⟩ := formats_of_sections hmerged
  rw [lookup_overlayFields hkeys, hbase, Option.map_some] at hinner
  have hunset : c.exports.formats = .texts ["json", "cytoscape", "d3"] →
      ∃ names, c.exports.Lists names := fun h => ⟨_, h, by decide⟩
  cases hexport : Json.lookup "export" fields with
  | none =>
    rw [hexport] at hinner
    cases hinner
    exact hunset (by rw [hformats, husual, Option.getD_some])
  | some v =>
    have hshapes := (Json.conforms_of_accepts haccepts).tail.field
    simp only [List.forall_mem_cons] at hshapes
    obtain ⟨-, -, -, hshape, -⟩ := hshapes
    have hconforms := hshape v hexport
    obtain ⟨given, rfl⟩ := hconforms.exists_fields
    rw [hexport] at hinner
    cases hinner
    rw [lookup_overlayFields (hgiven given hexport), husual, Option.map_some] at hformats
    cases hlist : Json.lookup "formats" given with
    | none => exact hunset (by rw [hformats, hlist]; rfl)
    | some w =>
      have hlisted := hconforms.tail.field _ List.mem_cons_self w hlist
      obtain ⟨items, rfl, hitems⟩ := Json.Conforms.exists_list hlisted
      obtain ⟨names, rfl, hdeclared⟩ := exists_names hitems
      exact ⟨names, by rw [hformats, hlist]; rfl, hdeclared⟩

private theorem lists_mapping {path : String} {v : Yaml} {pairs : List (Yaml × Yaml)} {c : Config}
    (hsettled : v.settled = .mapping pairs) (h : ofDocument path (.mapping pairs) = .ok c) :
    ∃ names, c.exports.Lists names := by
  rcases ofDocument_mapping path pairs with ⟨fault, hrefused⟩ | ⟨hshape, hread⟩
  · rw [hrefused] at h
    cases h
  · rw [hread] at h
    refine lists_ofJson (Yaml.nodup_keys_of_settled hsettled) (fun given hgiven => ?_) hshape h
    obtain ⟨part, hpart, hjson⟩ := Yaml.mem_pairsToJson.mp (Json.mem_of_lookup hgiven)
    obtain ⟨w, hw⟩ := Yaml.settled_of_settled hsettled _ hpart
    cases hinner : w.settled with
    | mapping inner =>
      obtain rfl : part = .mapping inner := hw.trans hinner
      cases hjson
      exact Yaml.nodup_keys_of_settled hinner
    | _ =>
      obtain rfl := hw.trans hinner
      cases hjson

private theorem lists_ofDocument {path : String} {doc : Yaml} {c : Config}
    (h : ofDocument path doc.settled = .ok c) : ∃ names, c.exports.Lists names := by
  cases hvacant : doc.settled.isVacant with
  | true =>
    rw [ofDocument_of_vacant path hvacant] at h
    exact lists_mapping (v := .mapping []) rfl h
  | false =>
    cases hdoc : doc.settled with
    | mapping pairs => exact lists_mapping hdoc (hdoc ▸ h)
    | _ =>
      rw [hdoc] at h hvacant
      rw [ofDocument, hvacant] at h
      cases h

/-- Settings that are loaded list formats that are declared, whatever their file holds and by whatever
reader it is read. -/
theorem lists_of_load {ε : Type} {reader : Yaml.Reader ε} {file : Option (String × Entry)} {c : Config}
    (h : loadBy reader file = .ok c) : ∃ names, c.exports.Lists names := by
  have hdefault : ∃ names, default.exports.Lists names :=
    ⟨["json", "cytoscape", "d3"], rfl, by decide⟩
  match file with
  | none | some (path, .nothing) | some (path, .behindFile) =>
    cases h
    exact hdefault
  | some (path, .directory) => cases h
  | some (path, .file bytes) =>
    rw [loadBy] at h
    cases hread : reader.ofBytes bytes with
    | ok doc =>
      rw [hread, ofReading] at h
      cases hdoc : ofDocument (Path.normal path) doc.settled with
      | ok c' =>
        rw [hdoc] at h
        cases h
        exact lists_ofDocument hdoc
      | error fault =>
        rw [hdoc] at h
        cases h
    | error fault =>
      rw [hread] at h
      cases fault <;> cases h

end Config

end BusinessAtlas
