import BusinessAtlas.Config.Settings
import BusinessAtlas.Proofs.Facts.Shape

/-!
# Settings in sections

The defaults have a record for every section. Laying settings over them keeps it so as long as no
section is given as something else, which the shape of settings rules out, so that accepted settings
can always be read.
-/

namespace BusinessAtlas

namespace Json

theorem lookup_of_mem {fields : List (String × Json)} (h : (keys fields).Nodup) {key : String}
    {v : Json} (hmem : (key, v) ∈ fields) : lookup key fields = some v := by
  induction fields with
  | nil => cases hmem
  | cons f rest ih =>
    obtain ⟨hnot, hrest⟩ := List.nodup_cons.mp h
    rcases List.mem_cons.mp hmem with rfl | hmem
    · rw [lookup, if_pos (beq_self_eq_true key)]
    · have hne : f.1 ≠ key := fun he => hnot (List.mem_map.mpr ⟨(key, v), hmem, he.symm⟩)
      rw [lookup, if_neg (by simpa using hne)]
      exact ih hrest hmem

end Json

namespace Config

/-- The sections that settings are divided into. -/
def sections : List String := ["graph", "layout", "clusters", "export", "logging"]

/-- Every section is there, as a record. -/
def Sectioned (fields : List (String × Json)) : Prop :=
  ∀ part ∈ sections, ∃ inner, Json.lookup part fields = some (.record inner)

variable {fields base upper : List (String × Json)}

theorem exists_ofSections (h : Sectioned fields) : ∃ c, ofSections (.record fields) = .ok c := by
  obtain ⟨graph, hgraph⟩ := h "graph" (by decide)
  obtain ⟨layout, hlayout⟩ := h "layout" (by decide)
  obtain ⟨clusters, hclusters⟩ := h "clusters" (by decide)
  obtain ⟨exports, hexports⟩ := h "export" (by decide)
  obtain ⟨logging, hlogging⟩ := h "logging" (by decide)
  unfold ofSections
  simp only [Json.field?, hgraph, hlayout, hclusters, hexports, hlogging, ok_bind]
  exact ⟨_, rfl⟩

/-- A record that is laid over sections leaves sections, field by field: a section is replaced by
the overlay of two records, and no field is taken away. -/
theorem Sectioned.overlayFields (hbase : Sectioned base)
    (hupper : ∀ f ∈ upper, f.1 ∈ sections → ∃ inner, f.2 = .record inner) :
    Sectioned (overlayFields base upper) := by
  induction upper generalizing base with
  | nil => exact hbase
  | cons f rest ih =>
    obtain ⟨key, v⟩ := f
    obtain ⟨hv, hrest⟩ := List.forall_mem_cons.mp hupper
    rw [Config.overlayFields]
    split
    · rename_i old hold
      refine ih (fun part hpart => ?_) hrest
      by_cases hkey : key = part
      · subst hkey
        obtain ⟨inner, hinner⟩ := hbase key hpart
        obtain ⟨given, rfl⟩ := hv hpart
        rw [hold] at hinner
        cases hinner
        exact ⟨_, by rw [Json.lookup_put_self, overlay]⟩
      · rw [Json.lookup_put_of_ne hkey]
        exact hbase part hpart
    · exact ih hbase hrest

private theorem sectioned_defaults : ∃ base, defaults = .record base ∧ Sectioned base := by
  refine ⟨_, rfl, ?_⟩
  simp only [Sectioned, sections, List.forall_mem_cons]
  exact ⟨⟨_, rfl⟩, ⟨_, rfl⟩, ⟨_, rfl⟩, ⟨_, rfl⟩, ⟨_, rfl⟩, nofun⟩

private theorem record_of_accepts (h : schema.accepts (.record fields) = true) :
    ∀ part ∈ sections, ∀ v, Json.lookup part fields = some v → ∃ inner, v = .record inner := by
  have hfield := (Json.conforms_of_accepts h).tail.field
  simp only [sections, List.forall_mem_cons] at hfield ⊢
  obtain ⟨hgraph, hlayout, hclusters, hexport, hlogging, -⟩ := hfield
  exact ⟨fun v hv => (hgraph v hv).exists_fields, fun v hv => (hlayout v hv).exists_fields,
    fun v hv => (hclusters v hv).exists_fields, fun v hv => (hexport v hv).exists_fields,
    fun v hv => (hlogging v hv).exists_fields, nofun⟩

theorem merge_record (base upper : List (String × Json)) :
    merge (.record base) (.record upper) = .ok (.record (overlayFields base upper)) := by
  cases upper <;> rfl

theorem exists_ofJson (hkeys : (Json.keys fields).Nodup) (h : schema.accepts (.record fields) = true) :
    ∃ c, ofJson (.record fields) = .ok c := by
  obtain ⟨base, hdefaults, hbase⟩ := sectioned_defaults
  have hsections : ∀ f ∈ fields, f.1 ∈ sections → ∃ inner, f.2 = .record inner := fun f hf hpart =>
    record_of_accepts h f.1 hpart f.2 (Json.lookup_of_mem hkeys hf)
  obtain ⟨c, hc⟩ := exists_ofSections (hbase.overlayFields hsections)
  exact ⟨c, by rw [ofJson, hdefaults, merge_record, ok_bind, hc]⟩

end Config

end BusinessAtlas
