import BusinessAtlas.Proofs.Feature.Owner

/-!
# What features are called and how they relate

The features of a built map have ids of their own kind, and the relationships of the map join
features that it has. The passes before the features are related make no relationship, and those
after it keep the ids of the features.
-/

namespace BusinessAtlas

variable {α : Type}

/-- The relationship joins two of some features in one of the ways that are found, and says more
about it than a word. -/
structure Relationship.Joins (features : List (Feature α)) (r : Relationship α) : Prop where
  source : ∃ f ∈ features, r.source = f.id
  target : ∃ f ∈ features, r.target = f.id
  kind : r.kind = .dependsOn ∨ r.kind = .complements
  description : 12 ≤ r.description.length

namespace FeatureMap

/-- The features of the capabilities have the ids that are made for those. -/
theorem OwnsOnce.ids_take {capabilities : List Capability} {g : FeatureMap α}
    (h : OwnsOnce capabilities g) : (g.features.take capabilities.length).map (·.id) =
      capabilities.map fun x => featureId x.id := by
  have hids := h.serves.imp fun _ _ hs => hs.id_eq.symm
  exact (List.forall₂_eq_eq_eq ▸ List.forall₂_map_left_iff.mpr
    (List.forall₂_map_right_iff.mpr hids) : _ = _).symm

/-- There is at most one feature more, which is that of the common infrastructure. -/
theorem OwnsOnce.drop_cases {capabilities : List Capability} {g : FeatureMap α}
    (h : OwnsOnce capabilities g) : g.features.drop capabilities.length = [] ∨
      ∃ f : Feature α, g.features.drop capabilities.length = [f] ∧ f.IsInfrastructure := by
  have hlength := h.length_le
  have hall := h.infrastructure
  cases hdrop : g.features.drop capabilities.length with
  | nil => exact .inl rfl
  | cons f rest =>
    have hrest := congrArg List.length hdrop
    rw [List.length_drop, List.length_cons] at hrest
    obtain rfl : rest = [] := List.eq_nil_of_length_eq_zero (by omega)
    rw [hdrop] at hall
    exact .inr ⟨f, rfl, hall f List.mem_cons_self⟩

theorem OwnsOnce.exists_id {capabilities : List Capability} {g : FeatureMap α}
    (h : OwnsOnce capabilities g) {f : Feature α} (hf : f ∈ g.features) :
    ∃ name, f.id = "feature-" ++ name := by
  rw [← List.take_append_drop capabilities.length g.features, List.mem_append] at hf
  rcases hf with hf | hf
  · obtain ⟨i, hi, rfl⟩ := List.mem_iff_getElem.mp hf
    have hserves := h.serves.get (h.serves.length_eq ▸ hi) hi
    exact ⟨_, hserves.id_eq⟩
  · exact ⟨"ui-infrastructure", (h.infrastructure f hf).id_eq⟩

/-- All relationships join features of the map. -/
def Related (g : FeatureMap α) : Prop := ∀ r ∈ g.relationships, r.Joins g.features

variable [Scalar α] {g g' : FeatureMap α}

private theorem joins_of_between {features : List (Feature α)} {f k : Feature α}
    {r : Relationship α} (hf : f ∈ features) (hk : k ∈ features)
    (h : Relationship.between f k = .ok (some r)) : r.Joins features := by
  unfold Relationship.between at h
  split at h
  · cases h
    have hwords : " depends on ".length = 12 := rfl
    refine ⟨⟨f, hf, rfl⟩, ⟨k, hk, rfl⟩, .inl rfl, ?_⟩
    simp only [String.length_append, hwords]
    omega
  · dsimp only at h
    split at h
    · cases h
      have hwords : " component(s)".length = 13 := rfl
      refine ⟨⟨f, hf, rfl⟩, ⟨k, hk, rfl⟩, .inr rfl, ?_⟩
      simp only [String.length_append, hwords]
      omega
    · split at h
      · obtain ⟨joined, _, h⟩ := bind_eq_ok.mp h
        cases h
        have hwords : "Features operate on shared data: ".length = 33 := rfl
        refine ⟨⟨f, hf, rfl⟩, ⟨k, hk, rfl⟩, .inr rfl, ?_⟩
        simp only [String.length_append, hwords]
        omega
      · cases h

omit [Scalar α] in
theorem mem_pairs {f k : Feature α} :
    (f, k) ∈ g.pairs ↔ f ∈ g.features ∧ k ∈ g.features ∧ f.id ≠ k.id := by
  simp only [pairs, List.mem_flatMap, List.mem_map, List.mem_filter, bne_iff_ne, Prod.mk.injEq]
  constructor
  · rintro ⟨f, hf, k, ⟨hk, hne⟩, rfl, rfl⟩
    exact ⟨hf, hk, hne⟩
  · rintro ⟨hf, hk, hne⟩
    exact ⟨f, hf, k, ⟨hk, hne⟩, rfl, rfl⟩

omit [Scalar α] in
theorem kept_mapComponents {p : Project} {table : Classifier}
    (h : mapComponents p table g = .done g') :
    g'.relationships = g.relationships ∧ g'.domains = g.domains := by
  refine Progress.each_eq_done
    (P := fun _ k => k.relationships = g.relationships ∧ k.domains = g.domains) h ⟨rfl, rfl⟩
    fun before c t t' ht hs => ?_
  obtain ⟨m, _, hs⟩ := bind_eq_ok.mp (Progress.step_eq_done.mp hs)
  cases hs
  exact ht

theorem kept_addFeatures {stories : List (Story α)} {capabilities : List Capability}
    (h : addFeatures stories capabilities g = .done g') :
    g'.relationships = g.relationships ∧ g'.domains = g.domains := by
  obtain ⟨⟨last, taken'⟩, hw, rfl⟩ := Progress.within_eq_done.mp h
  obtain ⟨⟨k, taken⟩, hk, h⟩ := Progress.andThen_eq_done.mp hw
  have htaken : k.relationships = g.relationships ∧ k.domains = g.domains := by
    refine Progress.each_eq_done
      (P := fun _ s => s.1.relationships = g.relationships ∧ s.1.domains = g.domains) hk ⟨rfl, rfl⟩
      fun before c t t' ht hs => ?_
    obtain ⟨⟨f, taken⟩, _, hs⟩ := bind_eq_ok.mp (Progress.step_eq_done.mp hs)
    cases hs
    exact ht
  dsimp only at h
  split at h <;> cases h <;> exact htaken

private theorem relationships_relate (h : relate g = .done g') : ∃ found,
    g.pairs.mapM (fun pair => Relationship.between pair.1 pair.2) = .ok found ∧
      g'.relationships = g.relationships ++ found.filterMap id := by
  refine Progress.each_eq_done (P := fun before k => ∃ found,
    before.mapM (fun pair => Relationship.between pair.1 pair.2) = .ok found ∧
      k.relationships = g.relationships ++ found.filterMap id) h ⟨[], rfl, by simp⟩ ?_
  rintro before pair t t' ⟨found, hfound, ht⟩ hs
  obtain ⟨r, hbetween, hs⟩ := bind_eq_ok.mp (Progress.step_eq_done.mp hs)
  refine ⟨found ++ [r], mapM_concat_eq_ok hfound hbetween, ?_⟩
  cases r with
  | none =>
    cases hs
    simpa using ht
  | some r =>
    cases hs
    simp [ht]

omit [Scalar α] in
private theorem relationships_addDomains {label : Labelling} (h : addDomains label g = .done g') :
    g'.relationships = g.relationships := by
  unfold addDomains at h
  cases hg : Domain.groups label g.features with
  | error f =>
    rw [hg] at h
    cases h
  | ok groups =>
    rw [hg] at h
    refine Progress.each_eq_done (P := fun _ k => k.relationships = g.relationships) h rfl
      fun before group t t' ht hs => ?_
    obtain ⟨d, _, hs⟩ := bind_eq_ok.mp (Progress.step_eq_done.mp hs)
    cases hs
    exact ht

private theorem mapM_between_measure (g : FeatureMap α) :
    g.measure.pairs.mapM (fun pair => Relationship.between pair.1 pair.2) =
      g.pairs.mapM fun pair => Relationship.between pair.1 pair.2 := by
  have hpairs : g.measure.pairs = g.pairs.map (Prod.map Feature.measured Feature.measured) := by
    simp only [pairs, measure, List.flatMap_map, List.map_flatMap, List.filter_map, List.map_map]
    rfl
  rw [hpairs, List.mapM_map]
  rfl

/-- The relationships of a map that was built are those that are found for the pairs of features with
different ids, in the order of the pairs. -/
theorem relationships_of_build {p : Project} {tables : FeatureTables} {stories : List (Story α)}
    {capabilities : List Capability} (h : build p tables stories capabilities = .done g) :
    ∃ found, g.pairs.mapM (fun pair => Relationship.between pair.1 pair.2) = .ok found ∧
      g.relationships = found.filterMap id := by
  obtain ⟨mapped, featured, related, grouped, hmapped, hfeatured, hrelated, hgrouped, rfl⟩ :=
    passes_of_build h
  have hnone : featured.relationships = [] := by
    rw [(kept_addFeatures hfeatured).1, (kept_mapComponents hmapped).1]
    rfl
  obtain ⟨found, hfound, hadded⟩ := relationships_relate hrelated
  have hpairs : grouped.pairs = featured.pairs := by
    rw [pairs, pairs, (addDomains_eq_done hgrouped).2, (relate_eq_done hrelated).2]
  refine ⟨found, ?_, ?_⟩
  · rw [mapM_between_measure, hpairs, hfound]
  · change grouped.relationships = found.filterMap id
    rw [relationships_addDomains hgrouped, hadded, hnone, List.nil_append]

/-- In a map that was built, all relationships join features of the map. -/
theorem related_of_build {p : Project} {tables : FeatureTables} {stories : List (Story α)}
    {capabilities : List Capability} (h : build p tables stories capabilities = .done g) :
    g.Related := by
  obtain ⟨found, hfound, hrelated⟩ := relationships_of_build h
  intro r hr
  rw [hrelated, List.mem_filterMap] at hr
  obtain ⟨o, ho, hor⟩ := hr
  obtain ⟨⟨f, k⟩, hpair, hbetween⟩ := (mem_of_mapM hfound).mp ho
  obtain ⟨hf, hk, -⟩ := mem_pairs.mp hpair
  exact joins_of_between hf hk (hbetween.trans (congrArg Except.ok hor))

end FeatureMap

end BusinessAtlas
