import BusinessAtlas.Document
import BusinessAtlas.Proofs.Facts.Spelling
import BusinessAtlas.Proofs.Json.ReadBack

/-!
# Requirements written back

Requirements are written as the records that they were read from, each in the list of its kind. Read
again, every list is found under the spelling that it was written with and every record is what it
was, so the same requirements come out, and written a second time they do not change.
-/

namespace BusinessAtlas

section

variable {v : Json}

theorem Story.raw_ofJson : Yields (Story.ofJson v) fun s => s.raw = v := by
  unfold Story.ofJson
  iterate 12 refine .bind (yields_true _) fun _ _ => ?_
  exact yields_ok rfl

theorem Capability.raw_ofJson : Yields (Capability.ofJson v) fun c => c.raw = v := by
  unfold Capability.ofJson
  iterate 8 refine .bind (yields_true _) fun _ _ => ?_
  exact yields_ok rfl

theorem Entity.raw_ofJson : Yields (Entity.ofJson v) fun e => e.raw = v := by
  unfold Entity.ofJson
  iterate 5 refine .bind (yields_true _) fun _ _ => ?_
  exact yields_ok rfl

theorem Rule.raw_ofJson : Yields (Rule.ofJson v) fun r => r.raw = v := by
  unfold Rule.ofJson
  iterate 7 refine .bind (yields_true _) fun _ _ => ?_
  exact yields_ok rfl

theorem Persona.raw_ofJson : Yields (Persona.ofJson v) fun p => p.raw = v := by
  unfold Persona.ofJson
  iterate 5 refine .bind (yields_true _) fun _ _ => ?_
  exact yields_ok rfl

end

section

variable {α : Type} {read : Json → Except Fault α} {raw : α → Json} {vs : List Json} {rs : List α}

theorem map_raw (hraw : ∀ v, Yields (read v) fun r => raw r = v) (h : vs.mapM read = .ok rs) :
    rs.map raw = vs := by
  have hsame : rs.map raw = vs.map id := map_of_mapM h fun v _ r hr => hraw v r hr
  rw [hsame, List.map_id]

theorem mapM_raw (hraw : ∀ v, Yields (read v) fun r => raw r = v) (h : vs.mapM read = .ok rs) :
    (rs.map raw).mapM read = .ok rs := by
  rw [map_raw hraw h, h]

private theorem distinct_raws (hraw : ∀ v, Yields (read v) fun r => raw r = v)
    (h : vs.mapM read = .ok rs) (hvs : ∀ v ∈ vs, v.Distinct) : (Json.list (rs.map raw)).Distinct := by
  rw [map_raw hraw h]
  exact .list hvs

end

theorem Json.itemsOf_eq {fs : List (String × Json)} {key : String} {xs : List Json}
    (h : lookup key fs = some (.list xs)) : (record fs).itemsOf key = .ok xs := by
  unfold itemsOf getOr
  rw [get, ok_bind, h]
  cases xs <;> rfl

theorem Json.accepts_put {fs : List (String × Json)} {key : String} {w : Json}
    {table : List (String × Schema)}
    (hw : ∀ row ∈ table, row.1 = key → ∀ path, schemaViolations path w row.2 = [])
    (h : Schema.accepts [.kinds [.object], .fields table] (.record fs) = true) :
    Schema.accepts [.kinds [.object], .fields table] (.record (put key w fs)) = true := by
  have hfields (fs : List (String × Json)) :
      Schema.violations [.kinds [.object], .fields table] (.record fs) =
        fieldViolations [] fs table ++ [] := rfl
  rw [Schema.accepts, List.isEmpty_iff, hfields, List.append_nil] at h ⊢
  clear hfields
  induction table with
  | nil => rfl
  | cons row table ih =>
    obtain ⟨hrow, htable⟩ := List.forall_mem_cons.mp hw
    rw [fieldViolations, List.append_eq_nil_iff] at h ⊢
    refine ⟨?_, ih htable h.2⟩
    by_cases hkey : row.1 = key
    · rw [hkey, lookup_put_self]
      exact hrow hkey _
    · rw [lookup_put_of_ne (Ne.symm hkey)]
      exact h.1

namespace Context

variable {v : Json} {c : Context Number}

private theorem ofJson_toJson_eq (c : Context Number) : ofJson c.toJson = (do
    let stories ← (c.stories.map (·.raw)).mapM Story.ofJson
    let capabilities ← (c.capabilities.map (·.raw)).mapM Capability.ofJson
    let entities ← (c.entities.map (·.raw)).mapM Entity.ofJson
    let rules ← (c.rules.map (·.raw)).mapM Rule.ofJson
    let personas ← (c.personas.map (·.raw)).mapM Persona.ofJson
    return ⟨stories, capabilities, entities, rules, personas⟩) := by
  have hvacant : c.toJson.orElse (.record []) = c.toJson := rfl
  have hstories : c.toJson.pickItems ["userStories", "user_stories"] =
      .ok (c.stories.map (·.raw)) := rfl
  have hcapabilities : c.toJson.itemsOf "capabilities" = .ok (c.capabilities.map (·.raw)) :=
    Json.itemsOf_eq rfl
  have hentities : c.toJson.pickItems ["dataModel", "data_model"] =
      .ok (c.entities.map (·.raw)) := rfl
  have hrules : c.toJson.pickItems ["businessRules", "business_rules"] =
      .ok (c.rules.map (·.raw)) := rfl
  have hpersonas : c.toJson.itemsOf "personas" = .ok (c.personas.map (·.raw)) :=
    Json.itemsOf_eq rfl
  unfold ofJson
  simp only [hvacant, hstories, hcapabilities, hentities, hrules, hpersonas, ok_bind]

private theorem reread (h : ofJson v = .ok c) : ofJson c.toJson = .ok c := by
  obtain ⟨items, -, h⟩ := bind_eq_ok.mp h
  obtain ⟨stories, hstories, h⟩ := bind_eq_ok.mp h
  obtain ⟨items, -, h⟩ := bind_eq_ok.mp h
  obtain ⟨capabilities, hcapabilities, h⟩ := bind_eq_ok.mp h
  obtain ⟨items, -, h⟩ := bind_eq_ok.mp h
  obtain ⟨entities, hentities, h⟩ := bind_eq_ok.mp h
  obtain ⟨items, -, h⟩ := bind_eq_ok.mp h
  obtain ⟨rules, hrules, h⟩ := bind_eq_ok.mp h
  obtain ⟨items, -, h⟩ := bind_eq_ok.mp h
  obtain ⟨personas, hpersonas, h⟩ := bind_eq_ok.mp h
  cases h
  rw [ofJson_toJson_eq, mapM_raw (fun _ => Story.raw_ofJson) hstories, ok_bind,
    mapM_raw (fun _ => Capability.raw_ofJson) hcapabilities, ok_bind,
    mapM_raw (fun _ => Entity.raw_ofJson) hentities, ok_bind,
    mapM_raw (fun _ => Rule.raw_ofJson) hrules, ok_bind,
    mapM_raw (fun _ => Persona.raw_ofJson) hpersonas]
  rfl

theorem distinct_toJson (hv : v.Distinct) (h : ofJson v = .ok c) : c.toJson.Distinct := by
  have hfound : (v.orElse (.record [])).Distinct :=
    Json.Hereditary.orElse hv Json.distinct_emptyRecord
  have hpicked {spellings : List String} {items : List Json}
      (h : (v.orElse (.record [])).pickItems spellings = .ok items) : ∀ w ∈ items, w.Distinct :=
    Json.hereditary_distinct.pickItems hfound items h
  have hlisted {key : String} {items : List Json}
      (h : (v.orElse (.record [])).itemsOf key = .ok items) : ∀ w ∈ items, w.Distinct :=
    Json.hereditary_distinct.itemsOf hfound items h
  obtain ⟨items, hitems, h⟩ := bind_eq_ok.mp h
  obtain ⟨stories, hstories, h⟩ := bind_eq_ok.mp h
  have hstories := distinct_raws (fun _ => Story.raw_ofJson) hstories (hpicked hitems)
  obtain ⟨items, hitems, h⟩ := bind_eq_ok.mp h
  obtain ⟨capabilities, hcapabilities, h⟩ := bind_eq_ok.mp h
  have hcapabilities := distinct_raws (fun _ => Capability.raw_ofJson) hcapabilities (hlisted hitems)
  obtain ⟨items, hitems, h⟩ := bind_eq_ok.mp h
  obtain ⟨entities, hentities, h⟩ := bind_eq_ok.mp h
  have hentities := distinct_raws (fun _ => Entity.raw_ofJson) hentities (hpicked hitems)
  obtain ⟨items, hitems, h⟩ := bind_eq_ok.mp h
  obtain ⟨rules, hrules, h⟩ := bind_eq_ok.mp h
  have hrules := distinct_raws (fun _ => Rule.raw_ofJson) hrules (hpicked hitems)
  obtain ⟨items, hitems, h⟩ := bind_eq_ok.mp h
  obtain ⟨personas, hpersonas, h⟩ := bind_eq_ok.mp h
  have hpersonas := distinct_raws (fun _ => Persona.raw_ofJson) hpersonas (hlisted hitems)
  cases h
  have hnames : ["user_stories", "capabilities", "data_model", "business_rules", "personas"].Nodup := by
    decide
  refine .record hnames ?_
  simp only [List.forall_mem_cons]
  exact ⟨hstories, hcapabilities, hentities, hrules, hpersonas, nofun⟩

private theorem accepts_put {fields : List (String × Json)} {key : String}
    (hkey : key ∈ ["businessContext", "business_context"])
    (h : Document.factsSchema.accepts (.record fields) = true) :
    Document.factsSchema.accepts (.record (Json.put key c.toJson fields)) = true := by
  refine Json.accepts_put (fun row hrow hname path => ?_) h
  have hobject : row.2 = [.kinds [.object]] := by
    simp only [List.mem_cons, List.not_mem_nil, or_false] at hrow hkey
    rcases hkey with rfl | rfl <;> rcases hrow with rfl | rfl | rfl | rfl | rfl | rfl <;> simp_all
  rw [hobject]
  rfl

/-- The text that is written of requirements that were read from a facts document is read as the same
requirements. -/
theorem exists_read_render {s : String} (hs : Json.read s = .ok v) (h : ofFacts v = .ok c)
    (pretty : Bool) : ∃ w, Json.read (c.toJson.render pretty) = .ok w ∧ ofJson w = .ok c := by
  obtain ⟨found, hfound, h⟩ := bind_eq_ok.mp h
  have hdistinct : found.Distinct :=
    Json.hereditary_distinct.pickD (Json.distinct_of_read hs) Json.distinct_emptyRecord found hfound
  exact ⟨_, Json.read_render pretty (distinct_toJson hdistinct h), reread h⟩

/-- Requirements that were read are read again from the value they are written as, nothing of them
changed, and so they are when that value is put into a facts document, under either name. The text
that is written is read as that value, unless a record has two fields of one name. -/
theorem ofJson_toJson (h : ofJson v = .ok c) :
    ofJson c.toJson = .ok c ∧ toJson <$> ofJson c.toJson = .ok c.toJson ∧
    (v.Distinct → ∀ pretty, Json.read (c.toJson.render pretty) = .ok c.toJson) ∧
    ∀ fields,
      ofFacts (.record (Json.put "businessContext" c.toJson fields)) = .ok c ∧
      (Json.given "businessContext" fields = none →
        ofFacts (.record (Json.put "business_context" c.toJson fields)) = .ok c) ∧
      (Document.factsSchema.accepts (.record fields) = true →
        ∀ key ∈ ["businessContext", "business_context"],
          Document.factsSchema.accepts (.record (Json.put key c.toJson fields)) = true) := by
  have hagain := reread h
  have hfacts {fs : List (String × Json)}
      (hgiven : ["businessContext", "business_context"].findSome? (Json.given · fs) =
        some c.toJson) : ofFacts (.record fs) = .ok c := by
    rw [ofFacts, Json.pickD, Json.pick_record, hgiven]
    exact hagain
  have hput (key : String) (fields : List (String × Json)) :
      Json.given key (Json.put key c.toJson fields) = some c.toJson := by
    rw [Json.given, Json.lookup_put_self]
    rfl
  refine ⟨hagain, by rw [hagain]; rfl,
    fun hv pretty => Json.read_render pretty (distinct_toJson hv h),
    fun fields => ⟨?_, fun hnone => ?_, fun h key hkey => ?_⟩⟩
  · exact hfacts (by rw [List.findSome?_cons, hput])
  · have hother : Json.given "businessContext" (Json.put "business_context" c.toJson fields) =
        none := by
      rw [Json.given, Json.lookup_put_of_ne (by decide)]
      exact hnone
    exact hfacts (by rw [List.findSome?_cons, hother, List.findSome?_cons, hput])
  · exact accepts_put hkey h

private def plea : Json :=
  .record [("userStories", .list [.record [("id", .text "pay"), ("confidence", .int 1),
      ("priority", .null), ("story_type", .text "sale"), ("note", .bool false)]]),
    ("capabilities", .null), ("dataModel", .null), ("data_model", .list [.record []])]

private theorem distinct_plea : plea.Distinct := by
  have hstory : Json.Distinct (.record [("id", .text "pay"), ("confidence", .int 1), ("priority", .null),
      ("story_type", .text "sale"), ("note", .bool false)]) := by
    refine .record (by decide) ?_
    simp only [List.forall_mem_cons]
    exact ⟨.text _, .number _, .null, .text _, .bool _, nofun⟩
  refine .record (by decide) ?_
  simp only [List.forall_mem_cons]
  exact ⟨.list (List.forall_mem_singleton.mpr hstory), .null, .null,
    .list (List.forall_mem_singleton.mpr Json.distinct_emptyRecord), nofun⟩

theorem ofJson_toJson_plea : ∃ c, ofJson plea = .ok c ∧ c.stories.map (·.priority.shown) = ["low"] ∧
    c.entities.map (·.name.shown) = [""] ∧ ofJson c.toJson = .ok c ∧
    toJson <$> ofJson c.toJson = .ok c.toJson ∧
    Json.read (c.toJson.render true) = .ok c.toJson ∧
    Document.factsSchema.accepts (.record [("business_context", c.toJson)]) = true ∧
    ofFacts (.record [("business_context", c.toJson)]) = .ok c := by
  obtain ⟨c, hread, hshown⟩ := map_eq_ok.mp (toOption_eq_some.mp
    (show ((fun c : Context Number => (c.stories.map (·.priority.shown),
      c.entities.map (·.name.shown))) <$> ofJson plea).toOption = some (["low"], [""]) by decide +kernel))
  obtain ⟨hagain, hwritten, hrendered, hfacts⟩ := ofJson_toJson hread
  obtain ⟨-, hplain, haccepts⟩ := hfacts []
  exact ⟨c, hread, congrArg (·.1) hshown, congrArg (·.2) hshown, hagain, hwritten,
    hrendered distinct_plea true, haccepts rfl _ (by simp), hplain rfl⟩

end Context

end BusinessAtlas
