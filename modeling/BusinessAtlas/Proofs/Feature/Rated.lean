import BusinessAtlas.Proofs.Feature.Owner

/-!
# The scores of features

Every feature of a map is worth something, and neither its value nor its complexity exceeds the
highest score: the feature of a capability is capped there, and that of the common infrastructure has
fixed scores.
-/

namespace BusinessAtlas

variable {α : Type}

/-- The feature is worth something, and its scores do not exceed the highest one. -/
structure Feature.Rated (f : Feature α) : Prop where
  value_pos : 0 < f.value
  value_le : f.value ≤ topScore
  complexity_le : f.complexity ≤ topScore

private theorem tierValue_pos {tier : Json} : Yields (tierValue tier) (0 < ·) :=
  Json.yields_choose (by decide) (by decide)

theorem featureValue_bounds {c : Capability} {stories : List (Story α)} {n : Nat}
    (h : featureValue c stories = .ok n) : 0 < n ∧ n ≤ topScore := by
  obtain ⟨base, hbase, h⟩ := bind_eq_ok.mp h
  obtain ⟨parts, -, h⟩ := bind_eq_ok.mp h
  have hpos := tierValue_pos base hbase
  cases h
  constructor
  · exact Nat.lt_min.mpr ⟨by decide, Nat.add_pos_left hpos _⟩
  · exact Nat.min_le_left _ _

variable [Scalar α]

private theorem rated_ofCapability {table : List Mapping} {stories : List (Story α)}
    {taken : List String} {c : Capability} :
    Yields (Feature.ofCapability table stories taken c) fun s => s.1.Rated := by
  intro s h
  obtain ⟨names, -, h⟩ := bind_eq_ok.mp h
  obtain ⟨value, hvalue, h⟩ := bind_eq_ok.mp h
  obtain ⟨dependencies, -, h⟩ := bind_eq_ok.mp h
  obtain ⟨hpos, hle⟩ := featureValue_bounds hvalue
  cases h
  exact ⟨hpos, hle, Nat.min_le_left _ _⟩

private theorem rated_infrastructure {table : List Mapping} {taken : List String} {f : Feature α}
    (h : Feature.infrastructure table taken = some f) : f.Rated := by
  unfold Feature.infrastructure at h
  split at h
  · cases h
  · cases h
    exact ⟨Nat.succ_pos 19, show 20 ≤ 100 by decide, show 30 ≤ 100 by decide⟩

namespace FeatureMap

variable {g g' : FeatureMap α}

private theorem rated_takeCapabilities {stories : List (Story α)} {capabilities : List Capability}
    {taken : List String} (hg : ∀ f ∈ g.features, f.Rated)
    (h : takeCapabilities stories capabilities g = .done (g', taken)) :
    ∀ f ∈ g'.features, f.Rated := by
  refine Progress.keeps_each (P := fun s : FeatureMap α × List String => ∀ f ∈ s.1.features, f.Rated)
    capabilities (fun c _ s hs => ?_) (g, []) (g', taken) hg h
  refine Yields.bind rated_ofCapability fun made hmade => yields_ok ?_
  exact List.forall_mem_append.mpr ⟨hs, List.forall_mem_singleton.mpr hmade⟩

private theorem rated_addFeatures {stories : List (Story α)} {capabilities : List Capability}
    (hg : ∀ f ∈ g.features, f.Rated) (h : addFeatures stories capabilities g = .done g') :
    ∀ f ∈ g'.features, f.Rated := by
  obtain ⟨⟨last, taken'⟩, hw, rfl⟩ := Progress.within_eq_done.mp h
  obtain ⟨⟨k, taken⟩, hk, h⟩ := Progress.andThen_eq_done.mp hw
  have hrated := rated_takeCapabilities hg hk
  cases hi : (Feature.infrastructure k.mappings taken : Option (Feature α)) with
  | none =>
    simp only [hi] at h
    cases h
    exact hrated
  | some f =>
    simp only [hi] at h
    cases h
    have hlast := rated_infrastructure hi
    exact List.forall_mem_append.mpr ⟨hrated, List.forall_mem_singleton.mpr hlast⟩

/-- Relationships, domains and measures change no score. -/
theorem rated_of_build {p : Project} {table : Classifier} {label : Labelling}
    {stories : List (Story α)} {capabilities : List Capability}
    (h : buildBy p table label stories capabilities = .done g) : ∀ f ∈ g.features, f.Rated := by
  obtain ⟨mapped, featured, related, grouped, hmapped, hfeatured, hrelated, hgrouped, rfl⟩ :=
    passes_of_build h
  have hnone : ∀ f ∈ mapped.features, f.Rated := by
    rw [(mapComponents_eq_done hmapped).2]
    exact fun f hf => absurd hf List.not_mem_nil
  have hrated := rated_addFeatures hnone hfeatured
  have hsame : grouped.features = featured.features :=
    (addDomains_eq_done hgrouped).2.trans (relate_eq_done hrelated).2
  intro f hf
  obtain ⟨k, hk, rfl⟩ := List.mem_map.mp hf
  obtain ⟨hpos, hvalue, hcomplexity⟩ := hrated k (hsame ▸ hk)
  exact ⟨hpos, hvalue, hcomplexity⟩

end FeatureMap

end BusinessAtlas
