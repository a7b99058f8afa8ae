import BusinessAtlas.Feature.Map
import Mathlib.Data.List.Forall2
import Mathlib.Data.List.Nodup
import Mathlib.Data.List.Perm.Basic

/-!
# One owner for every component

The features share out the components of a map: no component is lost and none is owned twice. The
owner is the feature of the first capability that names the component, whatever the later ones say.
-/

namespace BusinessAtlas

variable {α : Type}

/-- Whether a capability names a component. -/
def Capability.namesComponent (name : String) (c : Capability) : Bool :=
  (Json.text name).isAmong c.components

/-- The feature carries what the capability says. -/
structure Feature.Serves (c : Capability) (f : Feature α) : Prop where
  id_eq : f.id = featureId c.id
  name_eq : f.name = c.name
  description_eq : f.description = c.description
  stories_eq : f.stories = c.stories
  entities_eq : f.entities = c.entities

/-- The feature is that of the common infrastructure. -/
structure Feature.IsInfrastructure (f : Feature α) : Prop where
  id_eq : f.id = infrastructureId
  name_eq : f.name = .text "UI Infrastructure"
  stories_eq : f.stories = []
  entities_eq : f.entities = []

private theorem findIdx?_concat_eq_some {p : Capability → Bool} {capabilities : List Capability}
    {c : Capability} {i : Nat} : (capabilities ++ [c]).findIdx? p = some i ↔
      capabilities.findIdx? p = some i ∨
        i = capabilities.length ∧ capabilities.findIdx? p = none ∧ p c = true := by
  rw [List.findIdx?_append]
  cases h : capabilities.findIdx? p with
  | some j => simp
  | none => cases hc : p c <;> simp [List.findIdx?_cons, hc, eq_comm]

namespace FeatureMap

/-- The feature at a position owns a component. -/
def OwnsAt (g : FeatureMap α) (i : Nat) (m : Mapping) : Prop :=
  ∃ f, g.features[i]? = some f ∧ m ∈ f.components

private theorem ownsAt_addFeature {g : FeatureMap α} {f : Feature α} {i : Nat} {m : Mapping} :
    (g.addFeature f).OwnsAt i m ↔ g.OwnsAt i m ∨ i = g.features.length ∧ m ∈ f.components := by
  simp only [OwnsAt, addFeature, List.getElem?_append]
  by_cases hi : i < g.features.length
  · simp [if_pos hi, Nat.ne_of_lt hi]
  · rw [if_neg hi, List.getElem?_eq_none (Nat.not_lt.mp hi)]
    by_cases he : i = g.features.length
    · simp [he]
    · have : i - g.features.length ≠ 0 := by omega
      simp [he, this]

private theorem exists_ownsAt {g : FeatureMap α} {name : String} :
    name ∈ g.features.flatMap Feature.componentNames ↔ ∃ i m, g.OwnsAt i m ∧ m.name = name := by
  rw [List.mem_flatMap]
  constructor
  · rintro ⟨f, hf, hn⟩
    obtain ⟨i, hi⟩ := List.mem_iff_getElem?.mp hf
    obtain ⟨m, hm, rfl⟩ := List.mem_map.mp hn
    exact ⟨i, m, ⟨f, hi, hm⟩, rfl⟩
  · rintro ⟨i, m, ⟨f, hi, hm⟩, rfl⟩
    exact ⟨f, List.mem_of_getElem? hi, List.mem_map_of_mem hm⟩

end FeatureMap

variable [Scalar α]

theorem ofCapability_eq_ok {table : List Mapping} {stories : List (Story α)}
    {taken taken' : List String} {c : Capability} {f : Feature α}
    (h : Feature.ofCapability table stories taken c = .ok (f, taken')) :
    f.Serves c ∧ ∃ names, namedComponents c.components = .ok names ∧
      f.components = (Share.ofNames table taken names).owned ∧
      f.shared = (Share.ofNames table taken names).referred ∧
      taken' = (Share.ofNames table taken names).taken := by
  obtain ⟨names, hn, h⟩ := bind_eq_ok.mp h
  obtain ⟨value, _, h⟩ := bind_eq_ok.mp h
  obtain ⟨dependencies, _, h⟩ := bind_eq_ok.mp h
  cases h
  exact ⟨⟨rfl, rfl, rfl, rfl, rfl⟩, names, hn, rfl, rfl, rfl⟩

theorem infrastructure_of_untaken {table : List Mapping} {taken : List String}
    {f : Feature α} (h : Feature.infrastructure table taken = some f) :
    f.IsInfrastructure ∧ f.components = table.filter fun m => !taken.contains m.name := by
  unfold Feature.infrastructure at h
  cases hr : table.filter fun m => !taken.contains m.name with
  | nil => rw [hr] at h; cases h
  | cons m rest => rw [hr] at h; cases h; exact ⟨⟨rfl, rfl, rfl, rfl⟩, rfl⟩

private theorem all_taken {table : List Mapping} {taken : List String}
    (h : (Feature.infrastructure table taken : Option (Feature α)) = none) :
    ∀ m ∈ table, m.name ∈ taken := by
  unfold Feature.infrastructure at h
  cases hr : table.filter fun m => !taken.contains m.name with
  | nil =>
    intro m hm
    simpa using List.filter_eq_nil_iff.mp hr m hm
  | cons m rest => rw [hr] at h; cases h

namespace FeatureMap

/-- How the features that were made for the capabilities so far share out the components: each
serves its capability, no name is taken twice, and a component is with the first capability that
names it. -/
structure Shared (capabilities : List Capability) (g : FeatureMap α) (taken : List String) :
    Prop where
  serves : List.Forall₂ Feature.Serves capabilities g.features
  taken_eq : taken = g.features.flatMap Feature.componentNames
  nodup : taken.Nodup
  owner : ∀ (i : Nat) (m : Mapping), g.OwnsAt i m ↔
    m ∈ g.mappings ∧ capabilities.findIdx? (·.namesComponent m.name) = some i

namespace Shared

variable {capabilities : List Capability} {g : FeatureMap α} {taken : List String}

omit [Scalar α] in
private theorem not_mem_taken (h : Shared capabilities g taken) {m : Mapping}
    (hm : m ∈ g.mappings) :
    m.name ∉ taken ↔ capabilities.findIdx? (·.namesComponent m.name) = none := by
  rw [Option.eq_none_iff_forall_ne_some, h.taken_eq, exists_ownsAt]
  constructor
  · intro hno i hi
    exact hno ⟨i, m, (h.owner i m).mpr ⟨hm, hi⟩, rfl⟩
  · rintro hno ⟨i, k, hk, he⟩
    have := ((h.owner i k).mp hk).2
    exact hno i (he ▸ this)

private theorem next (h : Shared capabilities g taken) (hn : (g.mappings.map (·.name)).Nodup)
    {stories : List (Story α)} {c : Capability} {f : Feature α} {taken' : List String}
    (hc : Feature.ofCapability g.mappings stories taken c = .ok (f, taken')) :
    Shared (capabilities ++ [c]) (g.addFeature f) taken' := by
  obtain ⟨hs, names, hnames, hf, -, rfl⟩ := ofCapability_eq_ok hc
  refine ⟨List.rel_append h.serves (.cons hs .nil), ?_, Share.nodup_taken_ofNames _ h.nodup _, ?_⟩
  · rw [Share.taken_ofNames, ← hf, addFeature, List.flatMap_append, ← h.taken_eq]
    simp [Feature.componentNames]
  · intro i m
    -- A name is free exactly if no capability so far names it, so its first namer is decided here.
    have hmem : m ∈ f.components ↔ m ∈ g.mappings ∧
        capabilities.findIdx? (·.namesComponent m.name) = none ∧ c.namesComponent m.name = true := by
      rw [hf, Share.mem_owned_ofNames hn, mem_namedComponents hnames, Capability.namesComponent,
        Json.text_isAmong]
      exact and_congr_right fun hm => by rw [h.not_mem_taken hm, and_comm]
    rw [ownsAt_addFeature, h.owner, hmem, ← h.serves.length_eq, findIdx?_concat_eq_some, and_or_left]
    exact or_congr_right and_left_comm

end Shared

/-- Every component of the map has one owner: the feature of the first capability that names it, or
the feature of the common infrastructure, which comes after those of the capabilities. -/
structure OwnsOnce (capabilities : List Capability) (g : FeatureMap α) : Prop where
  perm : (g.features.flatMap Feature.componentNames).Perm (g.mappings.map (·.name))
  nodup : (g.features.flatMap Feature.componentNames).Nodup
  serves : List.Forall₂ Feature.Serves capabilities (g.features.take capabilities.length)
  infrastructure : ∀ f ∈ g.features.drop capabilities.length, f.IsInfrastructure
  length_le : g.features.length ≤ capabilities.length + 1
  owner : ∀ m ∈ g.mappings, ∀ i : Nat,
    g.OwnsAt i m ↔ i = capabilities.findIdx (·.namesComponent m.name)

section

variable {capabilities : List Capability} {g : FeatureMap α} {taken : List String}

omit [Scalar α]

/-- The features own the components of the map themselves, not just their names. -/
theorem OwnsOnce.perm_components (h : OwnsOnce capabilities g) :
    (g.features.flatMap (·.components)).Perm g.mappings := by
  have hmap : (g.features.flatMap (·.components)).map (·.name) =
      g.features.flatMap Feature.componentNames := List.map_flatMap ..
  have howned : ((g.features.flatMap (·.components)).map (·.name)).Nodup := hmap ▸ h.nodup
  have hmapped : (g.mappings.map (·.name)).Nodup := h.perm.nodup_iff.mp h.nodup
  have hall : ∀ m ∈ g.mappings, m ∈ g.features.flatMap (·.components) := by
    intro m hm
    obtain ⟨f, hf, hmf⟩ := (h.owner m hm _).mpr rfl
    exact List.mem_flatMap.mpr ⟨f, List.mem_of_getElem? hf, hmf⟩
  refine (List.perm_ext_iff_of_nodup howned.of_map hmapped.of_map).mpr fun m => ⟨?_, hall m⟩
  intro hm
  have hname : m.name ∈ g.mappings.map (·.name) :=
    h.perm.mem_iff.mp (hmap ▸ List.mem_map_of_mem hm)
  obtain ⟨k, hk, hkm⟩ := List.mem_map.mp hname
  rw [← List.inj_on_of_nodup_map howned (hall k hk) hm hkm]
  exact hk

private theorem eq_findIdx_iff {p : Capability → Bool} {i : Nat} :
    i = capabilities.findIdx p ↔ capabilities.findIdx? p = some i ∨
      i = capabilities.length ∧ capabilities.findIdx? p = none := by
  rw [List.findIdx?_eq_some_iff_findIdx_eq, List.findIdx?_eq_none_iff_findIdx_eq]
  have : capabilities.findIdx p ≤ capabilities.length := List.findIdx_le_length
  omega

private theorem perm_of_owned (hn : (g.mappings.map (·.name)).Nodup)
    (hf : (g.features.flatMap Feature.componentNames).Nodup)
    (hmem : ∀ i m, g.OwnsAt i m → m ∈ g.mappings) (hall : ∀ m ∈ g.mappings, ∃ i, g.OwnsAt i m) :
    (g.features.flatMap Feature.componentNames).Perm (g.mappings.map (·.name)) := by
  refine (List.perm_ext_iff_of_nodup hf hn).mpr fun name => ?_
  rw [exists_ownsAt, List.mem_map]
  constructor
  · rintro ⟨i, m, hm, he⟩
    exact ⟨m, hmem i m hm, he⟩
  · rintro ⟨m, hm, he⟩
    obtain ⟨i, hi⟩ := hall m hm
    exact ⟨i, m, hi, he⟩

private theorem Shared.ownsOnce (h : Shared capabilities g taken)
    (hn : (g.mappings.map (·.name)).Nodup) (hall : ∀ m ∈ g.mappings, m.name ∈ taken) :
    OwnsOnce capabilities g := by
  have howner : ∀ m ∈ g.mappings, ∀ i,
      g.OwnsAt i m ↔ i = capabilities.findIdx (·.namesComponent m.name) := by
    intro m hm i
    have hnone : capabilities.findIdx? (·.namesComponent m.name) ≠ none := fun hnone =>
      (h.not_mem_taken hm).mpr hnone (hall m hm)
    rw [h.owner, eq_findIdx_iff]
    simp [hm, hnone]
  have hlen := h.serves.length_eq
  have hf := h.taken_eq ▸ h.nodup
  refine ⟨perm_of_owned hn hf (fun i m hm => ((h.owner i m).mp hm).1)
    fun m hm => ⟨_, (howner m hm _).mpr rfl⟩, hf, ?_, ?_, by omega, howner⟩
  · rw [hlen, List.take_length]
    exact h.serves
  · rw [hlen, List.drop_length]
    exact fun f hf => absurd hf List.not_mem_nil

private theorem Shared.ownsOnce_addFeature (h : Shared capabilities g taken)
    (hn : (g.mappings.map (·.name)).Nodup) {f : Feature α} (hf : f.IsInfrastructure)
    (hc : f.components = g.mappings.filter fun m => !taken.contains m.name) :
    OwnsOnce capabilities (g.addFeature f) := by
  have hlen := h.serves.length_eq
  have hleft : ∀ m, m ∈ f.components ↔ m ∈ g.mappings ∧ m.name ∉ taken := by
    intro m
    simp [hc]
  have hat : ∀ i m, (g.addFeature f).OwnsAt i m ↔
      g.OwnsAt i m ∨ i = capabilities.length ∧ m ∈ g.mappings ∧ m.name ∉ taken := by
    intro i m
    rw [ownsAt_addFeature, hleft, hlen]
  have howner : ∀ m ∈ g.mappings, ∀ i,
      (g.addFeature f).OwnsAt i m ↔ i = capabilities.findIdx (·.namesComponent m.name) := by
    intro m hm i
    rw [hat, h.owner, eq_findIdx_iff, h.not_mem_taken hm]
    simp [hm]
  have hnodup : ((g.addFeature f).features.flatMap Feature.componentNames).Nodup := by
    rw [addFeature, List.flatMap_append, ← h.taken_eq, List.nodup_append]
    refine ⟨h.nodup, ?_, ?_⟩
    · simpa [Feature.componentNames, hc] using (List.filter_sublist.map _).nodup hn
    · rintro name ht other ho rfl
      simp only [List.flatMap_cons, List.flatMap_nil, List.append_nil, Feature.componentNames,
        List.mem_map, hleft] at ho
      obtain ⟨m, ⟨_, hm⟩, he⟩ := ho
      exact hm (he ▸ ht)
  refine ⟨perm_of_owned hn hnodup ?_ fun m hm => ⟨_, (howner m hm _).mpr rfl⟩, hnodup, ?_, ?_, ?_,
    howner⟩
  · intro i m hm
    rcases (hat i m).mp hm with hm | ⟨_, hm, _⟩
    · exact ((h.owner i m).mp hm).1
    · exact hm
  · rw [addFeature, List.take_left' hlen.symm]
    exact h.serves
  · rw [addFeature, List.drop_left' hlen.symm]
    intro k hk
    exact List.mem_singleton.mp hk ▸ hf
  · simp [addFeature, hlen]

end

variable {g g' : FeatureMap α}

omit [Scalar α] in
theorem mapComponents_eq_done {p : Project} {table : Classifier}
    (h : mapComponents p table empty = .done g) :
    (g.mappings.map (·.name)).Nodup ∧ g.features = [] := by
  refine Progress.each_eq_done (P := fun _ g => (g.mappings.map (·.name)).Nodup ∧ g.features = []) h
    ⟨List.nodup_nil, rfl⟩ fun before c t t' ht hs => ?_
  obtain ⟨m, _, hs⟩ := bind_eq_ok.mp (Progress.step_eq_done.mp hs)
  cases hs
  exact ⟨nodup_putMapping m ht.1, ht.2⟩

theorem takeCapabilities_eq_done {stories : List (Story α)}
    {capabilities : List Capability} {taken : List String} (hn : (g.mappings.map (·.name)).Nodup)
    (hf : g.features = []) (h : takeCapabilities stories capabilities g = .done (g', taken)) :
    Shared capabilities g' taken ∧ g'.mappings = g.mappings := by
  refine Progress.each_eq_done
    (P := fun before s => Shared before s.1 s.2 ∧ s.1.mappings = g.mappings) h
    ⟨⟨by rw [hf]; exact .nil, by rw [hf]; rfl, List.nodup_nil, ?_⟩, rfl⟩ ?_
  · intro i m
    simp [OwnsAt, hf]
  · rintro before c ⟨k, taken⟩ s' ⟨hk, hm⟩ hs
    obtain ⟨⟨f, taken'⟩, hc, hs⟩ := bind_eq_ok.mp (Progress.step_eq_done.mp hs)
    cases hs
    exact ⟨hk.next (hm ▸ hn) hc, hm⟩

private theorem addFeatures_eq_done {stories : List (Story α)} {capabilities : List Capability}
    (hn : (g.mappings.map (·.name)).Nodup) (hf : g.features = [])
    (h : addFeatures stories capabilities g = .done g') : OwnsOnce capabilities g' := by
  obtain ⟨⟨last, taken'⟩, hw, rfl⟩ := Progress.within_eq_done.mp h
  obtain ⟨⟨k, taken⟩, hk, h⟩ := Progress.andThen_eq_done.mp hw
  obtain ⟨hs, hm⟩ := takeCapabilities_eq_done hn hf hk
  rw [← hm] at hn
  cases hi : (Feature.infrastructure k.mappings taken : Option (Feature α)) with
  | none =>
    simp only [hi] at h
    cases h
    exact hs.ownsOnce hn (all_taken hi)
  | some f =>
    simp only [hi] at h
    cases h
    obtain ⟨hf, hc⟩ := infrastructure_of_untaken hi
    exact hs.ownsOnce_addFeature hn hf hc

theorem relate_eq_done (h : relate g = .done g') :
    g'.mappings = g.mappings ∧ g'.features = g.features := by
  refine Progress.each_eq_done
    (P := fun _ k => k.mappings = g.mappings ∧ k.features = g.features) h ⟨rfl, rfl⟩
    fun before pair t t' ht hs => ?_
  obtain ⟨r, _, hs⟩ := bind_eq_ok.mp (Progress.step_eq_done.mp hs)
  cases r <;> cases hs <;> exact ht

omit [Scalar α] in
theorem addDomains_eq_done {label : Labelling} (h : addDomains label g = .done g') :
    g'.mappings = g.mappings ∧ g'.features = g.features := by
  unfold addDomains at h
  cases hg : Domain.groups label g.features with
  | error f => rw [hg] at h; cases h
  | ok groups =>
    rw [hg] at h
    refine Progress.each_eq_done
      (P := fun _ k => k.mappings = g.mappings ∧ k.features = g.features) h ⟨rfl, rfl⟩
      fun before group t t' ht hs => ?_
    obtain ⟨d, _, hs⟩ := bind_eq_ok.mp (Progress.step_eq_done.mp hs)
    cases hs
    exact ht

omit [Scalar α] in
private theorem OwnsOnce.of_features {capabilities : List Capability} (h : OwnsOnce capabilities g)
    (hk : g'.mappings = g.mappings ∧ g'.features = g.features) : OwnsOnce capabilities g' := by
  obtain ⟨mappings, features, relationships, domains⟩ := g
  obtain ⟨rfl, rfl⟩ := hk
  exact ⟨h.perm, h.nodup, h.serves, h.infrastructure, h.length_le, h.owner⟩

private theorem OwnsOnce.measure {capabilities : List Capability} (h : OwnsOnce capabilities g) :
    OwnsOnce capabilities g.measure := by
  have hnames : g.measure.features.flatMap Feature.componentNames =
      g.features.flatMap Feature.componentNames := List.flatMap_map ..
  refine ⟨hnames ▸ h.perm, hnames ▸ h.nodup, ?_, ?_, ?_, fun m hm i => ?_⟩
  · rw [FeatureMap.measure, ← List.map_take, List.forall₂_map_right_iff]
    exact h.serves.imp fun c f hs => ⟨hs.1, hs.2, hs.3, hs.4, hs.5⟩
  · rw [FeatureMap.measure, ← List.map_drop]
    intro f hf
    obtain ⟨k, hk, rfl⟩ := List.mem_map.mp hf
    obtain ⟨h₁, h₂, h₃, h₄⟩ := h.infrastructure k hk
    exact ⟨h₁, h₂, h₃, h₄⟩
  · simpa [FeatureMap.measure] using h.length_le
  · rw [← h.owner m hm i]
    simp [OwnsAt, FeatureMap.measure, Feature.measured]

theorem passes_of_build {p : Project} {table : Classifier} {label : Labelling}
    {stories : List (Story α)} {capabilities : List Capability}
    (h : buildBy p table label stories capabilities = .done g) :
    ∃ mapped featured related grouped, mapComponents p table empty = .done mapped ∧
      addFeatures stories capabilities mapped = .done featured ∧ relate featured = .done related ∧
      addDomains label related = .done grouped ∧ g = grouped.measure := by
  obtain ⟨grouped, h, hmeasured⟩ := Progress.andThen_eq_done.mp h
  obtain ⟨related, h, hgrouped⟩ := Progress.andThen_eq_done.mp h
  obtain ⟨featured, h, hrelated⟩ := Progress.andThen_eq_done.mp h
  obtain ⟨mapped, hmapped, hfeatured⟩ := Progress.andThen_eq_done.mp h
  cases hmeasured
  exact ⟨mapped, featured, related, grouped, hmapped, hfeatured, hrelated, hgrouped, rfl⟩

theorem ownsOnce_of_build {p : Project} {table : Classifier} {label : Labelling}
    {stories : List (Story α)} {capabilities : List Capability}
    (h : buildBy p table label stories capabilities = .done g) : OwnsOnce capabilities g := by
  obtain ⟨mapped, featured, related, grouped, hmapped, hfeatured, hrelated, hgrouped, rfl⟩ :=
    passes_of_build h
  obtain ⟨hn, hf⟩ := mapComponents_eq_done hmapped
  exact (((addFeatures_eq_done hn hf hfeatured).of_features (relate_eq_done hrelated)).of_features
    (addDomains_eq_done hgrouped)).measure

/-- In a map that was built, every component is owned exactly once, by the feature of the first
capability that names it or, if none does, by the feature of the common infrastructure. -/
theorem ownsOnce_build (p : Project) (tables : FeatureTables) (stories : List (Story α))
    (capabilities : List Capability) (g : FeatureMap α)
    (h : (build p tables stories capabilities).toExcept = .ok g) : OwnsOnce capabilities g :=
  ownsOnce_of_build (Progress.toExcept_eq_ok.mp h)

private def shopProject : Project :=
  ⟨["Cart", "Total", "Badge"].map fun name =>
    ⟨.text name, .text "", .text "function", [], [], [], []⟩, [], []⟩

/-- Two capabilities with one id that both name the cart, the first of them twice. -/
private def shopCapabilities : List Capability :=
  [["Cart", "Cart", "Missing"], ["Total", "Cart"]].map fun names =>
    ⟨.text "user", .text "User", .text "", [], names.map .text, [], [], .text "core", .record []⟩

private def shopTables : FeatureTables := ⟨⟨[], none, false⟩, ⟨[], none, false⟩⟩

theorem ownsOnce_build_shop : ∃ g : FeatureMap Rat,
    (build shopProject shopTables [] shopCapabilities).toExcept = .ok g ∧
      g.features.map Feature.componentNames = [["Cart"], ["Total"], ["Badge"]] ∧
      OwnsOnce shopCapabilities g := by
  have hbuilt := Progress.toExcept_of_isNone
    (show (build shopProject shopTables [] shopCapabilities : Progress
      (FeatureMap Rat)).fault.isNone = true by decide +kernel)
  exact ⟨_, hbuilt, by decide +kernel, ownsOnce_build shopProject shopTables [] shopCapabilities _
    hbuilt⟩

end FeatureMap

end BusinessAtlas
