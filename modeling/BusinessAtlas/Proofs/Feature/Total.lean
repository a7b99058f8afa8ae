import BusinessAtlas.Feature.Map
import BusinessAtlas.Proofs.Facts.Typed

/-!
# Features of any facts

The feature map of facts that are what they are declared to be is always built: texts are all that
reading a component, sharing out components and naming domains asks for. The features and domains of
the map carry texts where the stages after it read texts.
-/

namespace BusinessAtlas

variable {α : Type}

namespace Component

variable {p : Project} {c : Component}

private theorem exists_lowered {γ : Type} {items : List γ} {name : γ → Json}
    (h : ∀ x ∈ items, (name x).isText = true) :
    ∃ ts, items.mapM (fun x => return Text.lower (← (name x).asText)) = .ok ts := by
  refine exists_mapM fun x hx => ?_
  obtain ⟨s, hs⟩ := Json.exists_asText (h x hx)
  exact ⟨Text.lower s, bind_eq_ok.mpr ⟨s, hs, rfl⟩⟩

private theorem exists_responsibility (table : Classifier) (h : c.Typed) :
    ∃ r, c.responsibility table = .ok r := by
  obtain ⟨name, hname⟩ := Json.isText_iff.mp h.name
  obtain ⟨names, hnames⟩ := exists_lowered h.bindings
  unfold responsibility
  rw [hname, Classifier.classifyValue, hnames]
  simp only [ok_bind, pure_eq_ok]
  repeat' split
  all_goals exact ⟨_, rfl⟩

private theorem exists_purpose (table : Classifier) (h : c.Typed) :
    ∃ t, c.purpose table = .ok t := by
  obtain ⟨known, hknown⟩ := Json.exists_of_isText
    (f := fun v => v.choose (knownPurposes.map fun p => (p.1, some p.2)) none) h.name
    fun s => ⟨_, rfl⟩
  obtain ⟨r, hr⟩ := exists_responsibility table h
  unfold purpose
  rw [hknown, ok_bind]
  split
  · exact ⟨_, rfl⟩
  · rw [hr]
    exact ⟨_, rfl⟩

private theorem exists_visibleImports (hp : p.Typed) (h : c.Typed) :
    ∃ sources, p.visibleImports c = .ok sources ∧ ∀ s ∈ sources, s.isText = true := by
  obtain ⟨path, hpath⟩ := Json.exists_asIdent h.path
  unfold Project.visibleImports Project.file?
  rw [hpath]
  simp only [ok_bind, pure_eq_ok]
  split
  · next f hf =>
    have hmem := (List.mem_filter.mp (List.mem_of_getLast? hf)).1
    refine ⟨_, rfl, fun s hs => ?_⟩
    rcases List.mem_append.mp hs with hs | hs
    · exact h.imports s hs
    · exact (hp.files f hmem).2 s hs
  · exact ⟨_, rfl, h.imports⟩

private theorem exists_inputNames (h : c.Typed) :
    ∃ names, c.inputNames.mapM Json.asText = .ok names := by
  refine exists_mapM fun v hv => ?_
  obtain ⟨i, hi, rfl⟩ := List.mem_map.mp hv
  exact Json.exists_asText (h.inputs i hi)

private theorem exists_patterns (hp : p.Typed) (h : c.Typed) : ∃ ps, c.patterns p = .ok ps := by
  obtain ⟨sources, hs, htexts⟩ := exists_visibleImports hp h
  obtain ⟨imports, hi⟩ := exists_lowered htexts
  obtain ⟨names, hn⟩ := exists_inputNames h
  exact ⟨_, bind_eq_ok.mpr ⟨sources, hs, bind_eq_ok.mpr ⟨imports, hi, bind_eq_ok.mpr
    ⟨names, hn, rfl⟩⟩⟩⟩

private theorem exists_dataPath (h : c.Typed) : ∃ d, c.dataPath = .ok d := by
  obtain ⟨names, hn⟩ := exists_inputNames h
  obtain ⟨name, hname⟩ := Json.exists_asText h.name
  exact ⟨_, bind_eq_ok.mpr ⟨names, hn, bind_eq_ok.mpr ⟨name, hname, rfl⟩⟩⟩

theorem exists_toMapping (table : Classifier) (hp : p.Typed) (h : c.Typed) :
    ∃ m, c.toMapping p table = .ok m := by
  obtain ⟨responsibility, hr⟩ := exists_responsibility table h
  obtain ⟨purpose, hpu⟩ := exists_purpose table h
  obtain ⟨patterns, hpa⟩ := exists_patterns hp h
  obtain ⟨data, hd⟩ := exists_dataPath h
  obtain ⟨name, hn⟩ := Json.exists_asText h.name
  exact ⟨_, bind_eq_ok.mpr ⟨responsibility, hr, bind_eq_ok.mpr ⟨purpose, hpu, bind_eq_ok.mpr
    ⟨patterns, hpa, bind_eq_ok.mpr ⟨data, hd, bind_eq_ok.mpr ⟨name, hn, rfl⟩⟩⟩⟩⟩⟩

end Component

/-- The names that a feature carries are texts. -/
structure Feature.Typed (f : Feature α) : Prop where
  name : f.name.isText = true
  stories : ∀ story ∈ f.stories, story.isText = true
  entities : ∀ name ∈ f.entities, name.isText = true

/-- The words of a domain are texts. -/
def Domain.Typed (d : Domain) : Prop := ∀ t ∈ d.vocabulary, t.word.isText = true

private theorem exists_namedComponents {refs : List Json} (h : ∀ v ∈ refs, v.isText = true) :
    ∃ names, namedComponents refs = .ok names := by
  obtain ⟨is, hi⟩ := exists_mapM fun v hv => Json.exists_asIdent (h v hv)
  exact ⟨_, bind_eq_ok.mpr ⟨is, hi, rfl⟩⟩

private theorem exists_featureValue {c : Capability} (hc : c.Typed) {stories : List (Story α)}
    (h : ∀ s ∈ stories, s.Typed) : ∃ n, featureValue c stories = .ok n := by
  obtain ⟨base, hb⟩ := Json.exists_of_isText (f := tierValue) hc.value fun s => ⟨_, rfl⟩
  obtain ⟨parts, hp⟩ := exists_mapM (f := storyValue) fun s hs => Json.exists_of_isText
    (f := fun v => v.choose [("critical", 10), ("high", 7), ("medium", 4)] 1) (h s hs).priority
    fun s => ⟨_, rfl⟩
  exact ⟨_, bind_eq_ok.mpr ⟨base, hb, bind_eq_ok.mpr ⟨parts, hp, rfl⟩⟩⟩

private theorem exists_concernsUsers {name : Json} (h : name.isText = true) :
    ∃ b, concernsUsers name = .ok b := by
  obtain ⟨s, rfl⟩ := Json.isText_iff.mp h
  unfold concernsUsers
  rw [Json.hasWord, ok_bind]
  split <;> exact ⟨_, rfl⟩

private theorem exists_dependencies {c : Capability} (hc : c.Typed) :
    ∃ ds, dependenciesOf c = .ok ds := by
  obtain ⟨declared, hd⟩ := hc.dependencies
  obtain ⟨users, hu⟩ := exists_concernsUsers hc.name
  unfold dependenciesOf
  rw [hd, ok_bind, hu, ok_bind]
  split <;> exact ⟨_, rfl⟩

variable [Scalar α]

private theorem exists_ofCapability (table : List Mapping) (taken : List String)
    {stories : List (Story α)} {c : Capability} (hc : c.Typed) (h : ∀ s ∈ stories, s.Typed) :
    ∃ f taken', Feature.ofCapability table stories taken c = .ok (f, taken') ∧ f.Typed := by
  obtain ⟨names, hn⟩ := exists_namedComponents hc.components
  have htold : ∀ s ∈ stories.filter fun s => s.id.isAmong c.stories, s.Typed :=
    fun s hs => h s (List.mem_filter.mp hs).1
  obtain ⟨value, hv⟩ := exists_featureValue hc htold
  obtain ⟨dependencies, hd⟩ := exists_dependencies hc
  exact ⟨_, _, bind_eq_ok.mpr ⟨names, hn, bind_eq_ok.mpr ⟨value, hv, bind_eq_ok.mpr
    ⟨dependencies, hd, rfl⟩⟩⟩, hc.name, hc.stories, hc.entities⟩

private theorem typed_infrastructure {table : List Mapping} {taken : List String} {f : Feature α}
    (h : Feature.infrastructure table taken = some f) : f.Typed := by
  unfold Feature.infrastructure at h
  split at h
  · cases h
  · cases h
    exact ⟨rfl, fun _ hs => absurd hs List.not_mem_nil, fun _ he => absurd he List.not_mem_nil⟩

private theorem exists_between {f g : Feature α} (h : f.Typed) :
    ∃ r, Relationship.between f g = .ok r := by
  obtain ⟨joined, hj⟩ := Json.exists_joinTexts ", " fun v hv =>
    h.entities v (List.mem_filter.mp hv).1
  unfold Relationship.between
  split
  · exact ⟨_, rfl⟩
  · dsimp only
    split
    · exact ⟨_, rfl⟩
    · split
      · rw [hj]
        exact ⟨_, rfl⟩
      · exact ⟨_, rfl⟩

omit [Scalar α] in
private theorem exists_entityTerm {f : Feature α} {entity : Json} (h : entity.isText = true) :
    ∃ t, Domain.entityTerm f entity = .ok t ∧ t.word.isText = true := by
  obtain ⟨s, rfl⟩ := Json.isText_iff.mp h
  exact ⟨_, rfl, rfl⟩

omit [Scalar α] in
private theorem exists_ofFeatures (name : String) {fs : List (Feature α)} (h : ∀ f ∈ fs, f.Typed) :
    ∃ d, Domain.ofFeatures name fs = .ok d ∧ d.Typed := by
  have hparts : ∃ parts, fs.mapM (fun f => do
      return Domain.featureTerm f :: (← f.entities.mapM (Domain.entityTerm f))) = .ok parts ∧
      ∀ part ∈ parts, ∀ t ∈ part, t.word.isText = true := by
    refine exists_mapM_forall fun f hf => ?_
    obtain ⟨ts, ht, htexts⟩ := exists_mapM_forall fun e he =>
      exists_entityTerm (f := f) ((h f hf).entities e he)
    exact ⟨_, bind_eq_ok.mpr ⟨ts, ht, rfl⟩, List.forall_mem_cons.mpr ⟨(h f hf).name, htexts⟩⟩
  obtain ⟨parts, hp, htexts⟩ := hparts
  refine ⟨_, bind_eq_ok.mpr ⟨_, bind_eq_ok.mpr ⟨parts, hp, rfl⟩, rfl⟩, fun t ht => ?_⟩
  obtain ⟨part, hpart, ht⟩ := List.mem_flatten.mp ht
  exact htexts part hpart t ht

omit [Scalar α] in
private theorem exists_groups (table : Classifier) {fs : List (Feature α)} (h : ∀ f ∈ fs, f.Typed) :
    ∃ groups, Domain.groups table fs = .ok groups ∧ ∀ g ∈ groups, ∀ f ∈ g.2, f.Typed := by
  have hnamed : ∃ named, fs.mapM (fun f => do return (← Domain.nameFor table f, f)) = .ok named ∧
      ∀ x ∈ named, x.2.Typed := by
    refine exists_mapM_forall fun f hf => ?_
    obtain ⟨s, hs⟩ := Json.isText_iff.mp (h f hf).name
    have hname : ∃ name, Domain.nameFor table f = .ok name := by
      unfold Domain.nameFor
      rw [hs, Classifier.classifyValue]
      exact ⟨_, rfl⟩
    obtain ⟨name, hn⟩ := hname
    exact ⟨(name, f), bind_eq_ok.mpr ⟨name, hn, rfl⟩, h f hf⟩
  obtain ⟨named, hn, htyped⟩ := hnamed
  exact ⟨grouped named, bind_eq_ok.mpr ⟨named, hn, rfl⟩, fun g hg f hf =>
    htyped _ ((of_mem_grouped hg).2 f hf)⟩

namespace FeatureMap

variable {p : Project} {stories : List (Story α)} {capabilities : List Capability}

/-- The features and domains of the map carry texts. -/
structure Typed (g : FeatureMap α) : Prop where
  features : ∀ f ∈ g.features, f.Typed
  domains : ∀ d ∈ g.domains, d.Typed

omit [Scalar α] in
private theorem Typed.addFeature {g : FeatureMap α} {f : Feature α} (hg : g.Typed) (hf : f.Typed) :
    (g.addFeature f).Typed :=
  ⟨List.forall_mem_append.mpr ⟨hg.features, List.forall_mem_singleton.mpr hf⟩, hg.domains⟩

omit [Scalar α] in
private theorem exists_mapComponents (hp : p.Typed) (table : Classifier) :
    ∃ g : FeatureMap α, mapComponents p table empty = .done g ∧ g.Typed := by
  refine Progress.exists_each (P := Typed) ⟨nofun, nofun⟩ fun g c hc hg => ?_
  obtain ⟨m, hm⟩ := Component.exists_toMapping table hp (hp.components c hc)
  exact ⟨_, Progress.step_eq_done.mpr (bind_eq_ok.mpr ⟨m, hm, rfl⟩), hg.features, hg.domains⟩

private theorem exists_takeCapabilities (hs : ∀ s ∈ stories, s.Typed)
    (hc : ∀ c ∈ capabilities, c.Typed) {g : FeatureMap α} (hg : g.Typed) :
    ∃ s, takeCapabilities stories capabilities g = .done s ∧ s.1.Typed := by
  refine Progress.exists_each (P := fun s : FeatureMap α × List String => s.1.Typed) hg
    fun s c hmem htyped => ?_
  obtain ⟨f, taken, hf, hfeature⟩ := exists_ofCapability s.1.mappings s.2 (hc c hmem) hs
  exact ⟨_, Progress.step_eq_done.mpr (bind_eq_ok.mpr ⟨_, hf, rfl⟩), htyped.addFeature hfeature⟩

private theorem exists_addFeatures (hs : ∀ s ∈ stories, s.Typed) (hc : ∀ c ∈ capabilities, c.Typed)
    {g : FeatureMap α} (hg : g.Typed) :
    ∃ g', addFeatures stories capabilities g = .done g' ∧ g'.Typed := by
  obtain ⟨⟨k, taken⟩, hk, htyped⟩ := exists_takeCapabilities hs hc hg
  unfold addFeatures
  rw [hk, Progress.done_andThen]
  dsimp only
  split
  · next f hf => exact ⟨k.addFeature f, rfl, htyped.addFeature (typed_infrastructure hf)⟩
  · exact ⟨k, rfl, htyped⟩

private theorem exists_relate {g : FeatureMap α} (hg : g.Typed) :
    ∃ g', relate g = .done g' ∧ g'.Typed := by
  have hfeatures := hg.features
  refine Progress.exists_each (P := Typed) hg fun k pair hpair hk => ?_
  obtain ⟨f, hf, hpair⟩ := List.mem_flatMap.mp hpair
  obtain ⟨h, hh, rfl⟩ := List.mem_map.mp hpair
  obtain ⟨r, hr⟩ := exists_between (g := h) (hfeatures f hf)
  cases r with
  | none => exact ⟨k, Progress.step_eq_done.mpr (bind_eq_ok.mpr ⟨_, hr, rfl⟩), hk⟩
  | some r =>
    exact ⟨_, Progress.step_eq_done.mpr (bind_eq_ok.mpr ⟨_, hr, rfl⟩), hk.features, hk.domains⟩

omit [Scalar α] in
private theorem exists_addDomains (table : Classifier) {g : FeatureMap α} (hg : g.Typed) :
    ∃ g', addDomains table g = .done g' ∧ g'.Typed := by
  obtain ⟨groups, hgroups, htyped⟩ := exists_groups table hg.features
  unfold addDomains
  rw [hgroups]
  refine Progress.exists_each (P := Typed) hg fun k group hgroup hk => ?_
  obtain ⟨d, hd, hwords⟩ := exists_ofFeatures group.1 (htyped group hgroup)
  exact ⟨_, Progress.step_eq_done.mpr (bind_eq_ok.mpr ⟨d, hd, rfl⟩), hk.features,
    List.forall_mem_append.mpr ⟨hk.domains, List.forall_mem_singleton.mpr hwords⟩⟩

/-- The feature map of typed facts is built, whatever the tables say. -/
theorem exists_build (hp : p.Typed) (tables : FeatureTables) (hs : ∀ s ∈ stories, s.Typed)
    (hc : ∀ c ∈ capabilities, c.Typed) :
    ∃ g, build p tables stories capabilities = .done g ∧ g.Typed := by
  obtain ⟨g₁, h₁, ht₁⟩ := exists_mapComponents (α := α) hp tables.responsibility
  obtain ⟨g₂, h₂, ht₂⟩ := exists_addFeatures hs hc ht₁
  obtain ⟨g₃, h₃, ht₃⟩ := exists_relate ht₂
  obtain ⟨g₄, h₄, ht₄⟩ := exists_addDomains tables.domain ht₃
  refine ⟨g₄.measure, ?_, fun f hf => ?_, ht₄.domains⟩
  · simp only [build, buildBy, h₁, h₂, h₃, h₄, Progress.done_andThen]
  · obtain ⟨k, hk, rfl⟩ := List.mem_map.mp hf
    obtain ⟨hname, hstories, hentities⟩ := ht₄.features k hk
    exact ⟨hname, hstories, hentities⟩

end FeatureMap

end BusinessAtlas
