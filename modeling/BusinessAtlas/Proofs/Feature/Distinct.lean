import BusinessAtlas.Proofs.Feature.Related

/-!
# Features that can be told apart

The id of a feature is made of that of its capability, and the feature of the common infrastructure has
an id of the same form, which is reserved. So the ids of the features are as distinct as those of the
capabilities, unless a capability has the reserved id while some component is left to the
infrastructure. Then the two features are taken for one.
-/

namespace BusinessAtlas

theorem featureId_eq_infrastructureId {v : Json} :
    featureId v = infrastructureId ↔ v.shown = "ui-infrastructure" := by
  have hreserved : infrastructureId = "feature-" ++ "ui-infrastructure" := rfl
  rw [hreserved]
  exact String.append_right_inj _

namespace FeatureMap

variable {α : Type}

/-- Some component is named by no capability. -/
def Unclaimed (capabilities : List Capability) (g : FeatureMap α) : Prop :=
  ∃ m ∈ g.mappings, ∀ c ∈ capabilities, c.namesComponent m.name = false

/-- A feature after those of the capabilities owns a component of the map. -/
private def Occupied (capabilities : List Capability) (g : FeatureMap α) : Prop :=
  ∀ f ∈ g.features.drop capabilities.length, ∃ m ∈ f.components, m ∈ g.mappings

variable [Scalar α] {g g' : FeatureMap α} {capabilities : List Capability}

private theorem occupied_addFeatures {stories : List (Story α)}
    (hn : (g.mappings.map (·.name)).Nodup) (hf : g.features = [])
    (h : addFeatures stories capabilities g = .done g') : Occupied capabilities g' := by
  obtain ⟨⟨last, taken'⟩, hw, rfl⟩ := Progress.within_eq_done.mp h
  obtain ⟨⟨k, taken⟩, hk, h⟩ := Progress.andThen_eq_done.mp hw
  obtain ⟨hshared, -⟩ := takeCapabilities_eq_done hn hf hk
  have hlength := hshared.serves.length_eq
  cases hi : (Feature.infrastructure k.mappings taken : Option (Feature α)) with
  | none =>
    simp only [hi] at h
    cases h
    intro f hf
    rw [hlength, List.drop_length] at hf
    cases hf
  | some f =>
    simp only [hi] at h
    cases h
    obtain ⟨-, hc⟩ := infrastructure_of_untaken hi
    intro f' hf'
    rw [addFeature, List.drop_left' hlength.symm, List.mem_singleton] at hf'
    subst hf'
    have hne : f'.components ≠ [] := by
      intro hnone
      rw [hnone] at hc
      rw [Feature.infrastructure, ← hc] at hi
      cases hi
    obtain ⟨m, hm⟩ := List.exists_mem_of_ne_nil _ hne
    have hmapped := hm
    rw [hc] at hmapped
    exact ⟨m, hm, List.mem_of_mem_filter hmapped⟩

private theorem occupied_of_build {p : Project} {tables : FeatureTables} {stories : List (Story α)}
    (h : build p tables stories capabilities = .done g) : Occupied capabilities g := by
  obtain ⟨mapped, featured, related, grouped, hmapped, hfeatured, hrelated, hgrouped, rfl⟩ :=
    passes_of_build h
  obtain ⟨hn, hnone⟩ := mapComponents_eq_done hmapped
  have hmappings : grouped.mappings = featured.mappings :=
    (addDomains_eq_done hgrouped).1.trans (relate_eq_done hrelated).1
  have hfeatures : grouped.features = featured.features :=
    (addDomains_eq_done hgrouped).2.trans (relate_eq_done hrelated).2
  intro f hlast
  rw [measure, ← List.map_drop, hfeatures] at hlast
  obtain ⟨f', hf', rfl⟩ := List.mem_map.mp hlast
  obtain ⟨m, hm, hmem⟩ := occupied_addFeatures hn hnone hfeatured f' hf'
  rw [← hmappings] at hmem
  exact ⟨m, hm, hmem⟩

theorem ids_of_build {p : Project} {tables : FeatureTables} {stories : List (Story α)}
    (h : build p tables stories capabilities = .done g) :
    (Unclaimed capabilities g ∧
      g.features.map (·.id) = (capabilities.map fun c => featureId c.id) ++ [infrastructureId]) ∨
    (¬Unclaimed capabilities g ∧ g.features.map (·.id) = capabilities.map fun c => featureId c.id) := by
  have howns := ownsOnce_of_build h
  have hids := congrArg (List.map (·.id)) (List.take_append_drop capabilities.length g.features)
  rw [List.map_append, howns.ids_take] at hids
  rcases howns.drop_cases with hdrop | ⟨f, hdrop, hf⟩
  · refine .inr ⟨?_, by rw [← hids, hdrop]; simp⟩
    rintro ⟨m, hm, hnone⟩
    obtain ⟨f, hat, -⟩ := (howns.owner m hm _).mpr rfl
    have hlength : capabilities.findIdx (·.namesComponent m.name) = capabilities.length := by
      rw [List.findIdx_eq_length]
      exact hnone
    rw [hlength, ← List.head?_drop, hdrop] at hat
    cases hat
  · refine .inl ⟨?_, by rw [← hids, hdrop, List.map_singleton, hf.id_eq]⟩
    obtain ⟨m, hmf, hm⟩ := occupied_of_build h f (by rw [hdrop]; exact List.mem_singleton_self f)
    have hat : g.features[capabilities.length]? = some f := by
      rw [← List.head?_drop, hdrop]
      rfl
    have hlength := (howns.owner m hm _).mp ⟨f, hat, hmf⟩
    exact ⟨m, hm, List.findIdx_eq_length.mp hlength.symm⟩

/-- The features of a map can be told apart: each is found by its id, and each is paired with every
other one. -/
structure ToldApart (g : FeatureMap α) : Prop where
  found : ∀ f ∈ g.features, g.find? f.id = some f
  paired : ∀ (i j : Nat) f k, i ≠ j → g.features[i]? = some f → g.features[j]? = some k → (f, k) ∈ g.pairs

omit [Scalar α] in
theorem toldApart_of_nodup (h : (g.features.map (·.id)).Nodup) : g.ToldApart := by
  constructor
  · intro f hf
    cases hfound : g.find? f.id with
    | none => exact absurd (beq_self_eq_true f.id) (List.find?_eq_none.mp hfound f hf)
    | some k =>
      have hid : k.id = f.id := by simpa using List.find?_some hfound
      rw [List.inj_on_of_nodup_map h (List.mem_of_find?_eq_some hfound) hf hid]
  · intro i j f k hij hf hk
    refine mem_pairs.mpr ⟨List.mem_of_getElem? hf, List.mem_of_getElem? hk, ?_⟩
    intro hid
    have hi : i < (g.features.map (·.id)).length := by
      rw [List.length_map]
      exact (List.getElem?_eq_some_iff.mp hf).1
    apply hij
    apply (List.getElem?_inj hi h).mp
    rw [List.getElem?_map, List.getElem?_map, hf, hk, Option.map_some, Option.map_some, hid]

/-- The ids of the features are distinct exactly if those of the capabilities are, as they are written,
and none is the reserved one while some component is left to the infrastructure. Then the features can
be told apart, and the relationships are those that are found for all pairs of them. -/
theorem nodup_ids_iff {p : Project} {tables : FeatureTables} {stories : List (Story α)}
    (h : build p tables stories capabilities = .done g) :
    ((g.features.map (·.id)).Nodup ↔ (capabilities.map (·.id.shown)).Nodup ∧
      (Unclaimed capabilities g → ∀ c ∈ capabilities, c.id.shown ≠ "ui-infrastructure")) ∧
    ((g.features.map (·.id)).Nodup → g.ToldApart) ∧
    ∃ found, g.pairs.mapM (fun pair => Relationship.between pair.1 pair.2) = .ok found ∧
      g.relationships = found.filterMap id := by
  refine ⟨?_, toldApart_of_nodup, relationships_of_build h⟩
  have hshown : (capabilities.map fun c => featureId c.id).Nodup ↔
      (capabilities.map (·.id.shown)).Nodup := by
    have hinjective : Function.Injective fun s : String => "feature-" ++ s :=
      fun _ _ => (String.append_right_inj _).mp
    have hids : (capabilities.map fun c => featureId c.id) =
        (capabilities.map (·.id.shown)).map fun s => "feature-" ++ s := by
      rw [List.map_map]
      rfl
    rw [hids, List.nodup_map_iff hinjective]
  rcases ids_of_build h with ⟨hleft, hids⟩ | ⟨hnone, hids⟩
  · rw [hids, List.nodup_append, hshown]
    simp [hleft, featureId_eq_infrastructureId]
  · rw [hids, hshown]
    simp [hnone]

private def stall : Project :=
  ⟨["Cart", "Badge"].map fun name => ⟨.text name, .text "", .text "function", [], [], [], []⟩, [], []⟩

/-- A capability that names the cart only. -/
private def selling (id : String) : Capability :=
  ⟨.text id, .text "Sales", .text "", [], [.text "Cart"], [], [], .text "core", .record []⟩

theorem nodup_ids_iff_stall : ∃ g : FeatureMap Rat,
    build stall .bundled [] [selling "sales"] = .done g ∧
    (g.features.map (·.id)).Nodup ∧ g.ToldApart ∧
    g.pairs.map (fun pair => (pair.1.id, pair.2.id)) =
      [("feature-sales", "feature-ui-infrastructure"), ("feature-ui-infrastructure", "feature-sales")] := by
  have hbuilt := Progress.toExcept_eq_ok.mp (Progress.toExcept_of_isNone
    (show (build stall .bundled [] [selling "sales"] : Progress (FeatureMap Rat)).fault.isNone = true by
      decide +kernel))
  obtain ⟨hids, htold, -⟩ := nodup_ids_iff hbuilt
  have hnodup := hids.mpr ⟨List.nodup_singleton _, fun _ c hc => by
    rw [List.mem_singleton.mp hc]
    decide⟩
  exact ⟨_, hbuilt, hnodup, htold hnodup, by decide +kernel⟩

/-- A capability with the reserved id, and a badge that is left to the infrastructure. Its feature is
not found, and it is paired with none. -/
theorem not_nodup_ids_reserved : ∃ g : FeatureMap Rat,
    build stall .bundled [] [selling "ui-infrastructure"] = .done g ∧
    ([selling "ui-infrastructure"].map (·.id)).Nodup ∧
    g.features.map (fun f => (f.id, f.componentNames)) =
      [("feature-ui-infrastructure", ["Cart"]), ("feature-ui-infrastructure", ["Badge"])] ∧
    ¬(g.features.map (·.id)).Nodup ∧
    (g.find? "feature-ui-infrastructure").map Feature.componentNames = some ["Cart"] ∧
    g.pairs.length = 0 := by
  have hbuilt := Progress.toExcept_eq_ok.mp (Progress.toExcept_of_isNone
    (show (build stall .bundled [] [selling "ui-infrastructure"] :
      Progress (FeatureMap Rat)).fault.isNone = true by decide +kernel))
  exact ⟨_, hbuilt, List.nodup_singleton _, by decide +kernel, by decide +kernel, by decide +kernel,
    by decide +kernel⟩

end FeatureMap

end BusinessAtlas
