import BusinessAtlas.Feature.Map
import BusinessAtlas.Proofs.Facts.Finite
import BusinessAtlas.Proofs.Number.Bounded

/-!
# Finite features

The feature map of finite facts is finite: what it takes over from the facts is finite, and what it
computes are counts and quotients of counts that are bounded whatever the project.
-/

namespace BusinessAtlas

/-- The kinds of the data that come into the component are finite. -/
def Mapping.Finite (m : Mapping) : Prop := ∀ i ∈ m.data.inputs, i.kind.Finite

/-- The values that are shown of the feature are finite. -/
structure Feature.Finite (f : Feature Number) : Prop where
  name : f.name.Finite
  description : f.description.Finite
  components : ∀ m ∈ f.components, m.Finite
  stories : ∀ v ∈ f.stories, v.Finite
  entities : ∀ v ∈ f.entities, v.Finite
  complexity : f.metrics.averageComplexity.Finite

/-- The words of the domain, and what they stand for, are finite. -/
def Domain.Finite (d : Domain) : Prop := ∀ t ∈ d.vocabulary, t.word.Finite ∧ t.description.Finite

/-- Everything that is known about the features is finite. -/
structure FeatureMap.Finite (g : FeatureMap Number) : Prop where
  mappings : ∀ m ∈ g.mappings, m.Finite
  features : ∀ f ∈ g.features, f.Finite
  relationships : ∀ r ∈ g.relationships, r.strength.Finite
  domains : ∀ d ∈ g.domains, d.Finite

theorem Mapping.Finite.toJson {m : Mapping} (h : m.Finite) : m.toJson.Finite := by
  have hinputs : ∀ i ∈ m.data.inputs, i.kind.Finite := h
  simpa [Mapping.toJson, DataPath.toJson, Pattern.toJson] using hinputs

theorem Feature.Finite.toJson {f : Feature Number} (h : f.Finite) : f.toJson.Finite := by
  have hcomponents : ∀ m ∈ f.components, m.toJson.Finite := fun m hm => (h.components m hm).toJson
  simpa [Feature.toJson, FeatureMetrics.toJson, Dependency.toJson] using
    ⟨h.name, h.description, hcomponents, h.stories, h.entities, h.complexity⟩

theorem Domain.Finite.toJson {d : Domain} (h : d.Finite) : d.toJson.Finite := by
  have hterms : ∀ t ∈ d.vocabulary, t.word.Finite ∧ t.description.Finite := h
  simpa [Domain.toJson, Term.toJson] using hterms

theorem FeatureMap.Finite.toJson {g : FeatureMap Number} (h : g.Finite) : g.toJson.Finite := by
  have hfeatures : ∀ f ∈ g.features, f.toJson.Finite := fun f hf => (h.features f hf).toJson
  have hmappings : ∀ m ∈ g.mappings, m.toJson.Finite := fun m hm => (h.mappings m hm).toJson
  have hdomains : ∀ d ∈ g.domains, d.toJson.Finite := fun d hd => (h.domains d hd).toJson
  simpa [FeatureMap.toJson, mappingsToJson, Relationship.toJson] using
    ⟨hfeatures, hmappings, h.relationships, hdomains⟩

private theorem finite_toMapping {p : Project} {table : Classifier} {c : Component} (h : c.Finite) :
    Yields (c.toMapping p table) Mapping.Finite := by
  refine Yields.bind (yields_true _) fun responsibility _ => ?_
  refine Yields.bind (yields_true _) fun purpose _ => ?_
  refine Yields.bind (yields_true _) fun patterns _ => ?_
  have hdata : Yields c.dataPath fun d => ∀ i ∈ d.inputs, i.kind.Finite := by
    refine Yields.bind (yields_true _) fun names _ => ?_
    refine Yields.bind (yields_true _) fun name _ => yields_ok fun i hi => ?_
    simp only [Component.dataPathFrom, List.mem_append, List.mem_map] at hi
    rcases hi with (⟨given, hgiven, rfl⟩ | hi) | hi
    · exact (h given.1 (List.of_mem_zip hgiven).1).orElse (Json.finite_text _)
    · split at hi
      · rw [List.mem_singleton.mp hi]
        exact Json.finite_text _
      · cases hi
    · split at hi
      · rw [List.mem_singleton.mp hi]
        exact Json.finite_text _
      · cases hi
  refine Yields.bind hdata fun data hdata => ?_
  exact Yields.bind (yields_true _) fun name _ => yields_ok hdata

private theorem forall_putMapping {P : Mapping → Prop} {m : Mapping} {table : List Mapping}
    (hm : P m) (h : ∀ k ∈ table, P k) : ∀ k ∈ putMapping m table, P k := by
  induction table with
  | nil => exact List.forall_mem_singleton.mpr hm
  | cons first rest ih =>
    obtain ⟨hfirst, hrest⟩ := List.forall_mem_cons.mp h
    unfold putMapping
    split
    · exact List.forall_mem_cons.mpr ⟨hm, hrest⟩
    · exact List.forall_mem_cons.mpr ⟨hfirst, ih hrest⟩

private theorem mem_of_mem_owned {table : List Mapping} {taken names : List String} {m : Mapping}
    (h : m ∈ (Share.ofNames table taken names).owned) : m ∈ table := by
  induction names generalizing taken with
  | nil => cases h
  | cons name rest ih =>
    unfold Share.ofNames at h
    split at h
    · exact ih h
    · next k hk =>
      split at h
      · exact ih h
      · rcases List.mem_cons.mp h with rfl | h
        · exact mem_of_findMapping hk
        · exact ih h

private theorem finite_unmeasured (endpoints : Nat) :
    (FeatureMetrics.unmeasured endpoints : FeatureMetrics Number).averageComplexity.Finite :=
  Number.finite_tenths (m := 0) (by decide)

private theorem finite_ofCapability {table : List Mapping} {stories : List (Story Number)}
    {taken : List String} {c : Capability} (htable : ∀ m ∈ table, m.Finite) (hc : c.Finite) :
    Yields (Feature.ofCapability table stories taken c) fun s => s.1.Finite := by
  refine Yields.bind (yields_true _) fun names _ => ?_
  refine Yields.bind (yields_true _) fun value _ => ?_
  refine Yields.bind (yields_true _) fun dependencies _ => yields_ok ?_
  exact ⟨hc.name, hc.description, fun m hm => htable m (mem_of_mem_owned hm), hc.stories,
    hc.entities, finite_unmeasured _⟩

private theorem finite_infrastructure {table : List Mapping} {taken : List String}
    {f : Feature Number} (htable : ∀ m ∈ table, m.Finite)
    (h : Feature.infrastructure table taken = some f) : f.Finite := by
  unfold Feature.infrastructure at h
  split at h
  · cases h
  · cases h
    exact ⟨Json.finite_text _, Json.finite_text _, fun m hm => htable m (List.mem_of_mem_filter hm),
      nofun, nofun, finite_unmeasured _⟩

private theorem finite_overlap {shared left right : Nat} (hshared : shared ≠ 0)
    (hle : shared ≤ left) : (Relationship.overlap shared left right : Number).Finite := by
  refine (Number.below_div_int (k := 1) (by decide) ?_ ?_).finite
  · omega
  · omega

private theorem finite_between {f k : Feature Number} :
    Yields (Relationship.between f k) fun o => ∀ r, o = some r → r.strength.Finite := by
  unfold Relationship.between
  split
  · refine yields_ok ?_
    rintro r ⟨⟩
    exact Number.finite_tenths (m := 8) (by decide)
  · dsimp only
    split
    · next hshared =>
      refine yields_ok ?_
      rintro r ⟨⟩
      refine finite_overlap ?_ (List.length_filter_le _ _)
      simpa using hshared
    · split
      · refine Yields.bind (yields_true _) fun joined _ => yields_ok ?_
        rintro r ⟨⟩
        exact Number.finite_tenths (m := 5) (by decide)
      · refine yields_ok ?_
        rintro r ⟨⟩

private theorem finite_vocabularyOf {features : List (Feature Number)}
    (h : ∀ f ∈ features, f.Finite) :
    Yields (Domain.vocabularyOf features) fun ts =>
      ∀ t ∈ ts, t.word.Finite ∧ t.description.Finite := by
  have hterms (f : Feature Number) (hf : f ∈ features) :
      Yields (do return Domain.featureTerm f :: (← f.entities.mapM (Domain.entityTerm f)))
        fun ts => ∀ t ∈ ts, t.word.Finite ∧ t.description.Finite := by
    have hentity : ∀ e ∈ f.entities, Yields (Domain.entityTerm f e) fun t =>
        t.word.Finite ∧ t.description.Finite := fun e he =>
      Yields.bind (yields_true _) fun name _ =>
        yields_ok ⟨(h f hf).entities e he, Json.finite_text _⟩
    refine Yields.bind (yields_mapM hentity) fun terms hterms => yields_ok ?_
    exact List.forall_mem_cons.mpr ⟨⟨(h f hf).name, (h f hf).description⟩, hterms⟩
  refine Yields.bind (yields_mapM hterms) fun parts hparts => yields_ok fun t ht => ?_
  obtain ⟨part, hpart, ht⟩ := List.mem_flatten.mp ht
  exact hparts part hpart t ht

private theorem mem_of_groups {label : Labelling} {features : List (Feature Number)} :
    Yields (Domain.groups label features) fun gs => ∀ g ∈ gs, ∀ f ∈ g.2, f ∈ features := by
  intro groups hgroups g hg f hf
  obtain ⟨named, hnamed, h⟩ := bind_eq_ok.mp hgroups
  cases h
  obtain ⟨k, hk, hpair⟩ := (mem_of_mapM hnamed).mp ((of_mem_grouped hg).2 f hf)
  obtain ⟨name, -, hpair⟩ := bind_eq_ok.mp hpair
  cases hpair
  exact hk

private theorem finite_averageComplexity (ms : List Mapping) :
    (averageComplexity ms : Number).Finite := by
  unfold averageComplexity
  split
  · exact Number.finite_tenths (m := 0) (by decide)
  · next hne =>
    have htotal : totalTypicalComplexity ms ≤ 8 * ms.length := by
      refine totalOf_map_le fun m _ => ?_
      cases m.kind <;> simp [ComponentKind.typicalComplexity]
    have hlength : ms.length ≠ 0 := fun h => hne (List.isEmpty_iff.mpr (List.length_eq_zero_iff.mp h))
    exact (Number.below_div_int (k := 4) (by decide) hlength (by omega)).finite

namespace FeatureMap

variable {g : FeatureMap Number}

theorem Finite.measure (h : g.Finite) : g.measure.Finite := by
  refine ⟨h.mappings, fun f hf => ?_, h.relationships, h.domains⟩
  obtain ⟨k, hk, rfl⟩ := List.mem_map.mp hf
  have hfinite := h.features k hk
  exact ⟨hfinite.name, hfinite.description, hfinite.components, hfinite.stories, hfinite.entities,
    finite_averageComplexity _⟩

private theorem keeps_mapComponents {p : Project} (table : Classifier)
    (hp : ∀ c ∈ p.components, c.Finite) :
    Progress.Keeps FeatureMap.Finite (mapComponents p table) :=
  Progress.keeps_each _ fun c hc _ hg =>
    Yields.bind (finite_toMapping (hp c hc)) fun _ hm =>
      yields_ok ⟨forall_putMapping hm hg.mappings, hg.features, hg.relationships, hg.domains⟩

private theorem Finite.addFeature {f : Feature Number} (hg : g.Finite) (hf : f.Finite) :
    (g.addFeature f).Finite :=
  ⟨hg.mappings, List.forall_mem_append.mpr ⟨hg.features, List.forall_mem_singleton.mpr hf⟩,
    hg.relationships, hg.domains⟩

private theorem keeps_addFeatures (stories : List (Story Number)) {capabilities : List Capability}
    (hc : ∀ c ∈ capabilities, c.Finite) :
    Progress.Keeps FeatureMap.Finite (addFeatures stories capabilities) := by
  intro g g' hg h
  have htake : Progress.Keeps (fun s : FeatureMap Number × List String => s.1.Finite) fun s =>
      .each (fun s c => .step s do
        let (f, taken) ← Feature.ofCapability s.1.mappings stories s.2 c
        return (s.1.addFeature f, taken)) s capabilities :=
    Progress.keeps_each _ fun c hmem s hs =>
      Yields.bind (finite_ofCapability hs.mappings (hc c hmem)) fun _ hf =>
        yields_ok (hs.addFeature hf)
  obtain ⟨⟨last, taken'⟩, hw, rfl⟩ := Progress.within_eq_done.mp h
  obtain ⟨⟨k, taken⟩, hk, h⟩ := Progress.andThen_eq_done.mp hw
  have htaken : k.Finite := htake (g, []) (k, taken) hg hk
  dsimp only at h
  split at h
  · next f hf =>
    cases h
    exact htaken.addFeature (finite_infrastructure htaken.mappings hf)
  · cases h
    exact htaken

private theorem keeps_relate : Progress.Keeps FeatureMap.Finite relate := by
  intro g
  refine Progress.keeps_each g.pairs (fun pair _ t ht => ?_) g
  refine Yields.bind finite_between fun r hr => ?_
  cases r with
  | none => exact yields_ok ht
  | some r =>
    refine yields_ok ⟨ht.mappings, ht.features, ?_, ht.domains⟩
    exact List.forall_mem_append.mpr ⟨ht.relationships, List.forall_mem_singleton.mpr (hr r rfl)⟩

private theorem keeps_addDomains (label : Labelling) :
    Progress.Keeps FeatureMap.Finite (addDomains label) := by
  intro g g' hg h
  unfold addDomains at h
  cases hgroups : Domain.groups label g.features with
  | error f =>
    rw [hgroups] at h
    cases h
  | ok groups =>
    rw [hgroups] at h
    refine Progress.keeps_each groups (fun group hgroup t ht => ?_) g g' hg h
    have hmembers := mem_of_groups groups hgroups group hgroup
    have hdomain : Yields (Domain.ofFeatures group.1 group.2) Domain.Finite :=
      Yields.bind (finite_vocabularyOf fun f hf => hg.features f (hmembers f hf))
        fun terms hterms => yields_ok hterms
    refine Yields.bind hdomain fun d hd => ?_
    exact yields_ok ⟨ht.mappings, ht.features, ht.relationships,
      List.forall_mem_append.mpr ⟨ht.domains, List.forall_mem_singleton.mpr hd⟩⟩

theorem finite_of_build {p : Project} {table : Classifier} {label : Labelling}
    {stories : List (Story Number)} {capabilities : List Capability}
    (hp : ∀ c ∈ p.components, c.Finite) (hc : ∀ c ∈ capabilities, c.Finite)
    (h : buildBy p table label stories capabilities = .done g) : g.Finite := by
  have hempty : (empty : FeatureMap Number).Finite := ⟨nofun, nofun, nofun, nofun⟩
  have hstages := (((keeps_mapComponents table hp).andThen
    (keeps_addFeatures stories hc)).andThen keeps_relate).andThen (keeps_addDomains label)
  obtain ⟨k, hk, hg⟩ := Progress.andThen_eq_done.mp h
  cases hg
  exact (hstages empty k hempty hk).measure

end FeatureMap

end BusinessAtlas
