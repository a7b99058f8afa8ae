import BusinessAtlas.Proofs.Feature.Mentions
import BusinessAtlas.Proofs.Feature.Related
import BusinessAtlas.Proofs.Grouped
import Mathlib.Data.List.Flatten

/-!
# Domains share out the features

Every feature falls into the domain that its name is labelled with, whatever labels the names. The
domains are those of the labels in the order in which they first come up, each with its features in
their order, so all features are in them and each is in one. As every component has one owner, the
components at the boundary to other systems are shared out as well.
-/

namespace BusinessAtlas

variable {α : Type}

/-- The name of the domain into which a feature falls. -/
def Feature.domain (label : Labelling) (f : Feature α) : String :=
  Domain.nameOf (label f.name).toOption.join

/-- The features of the map that fall into the domain of a name. -/
def FeatureMap.within (label : Labelling) (name : String) (g : FeatureMap α) : List (Feature α) :=
  g.features.filter fun f => f.domain label = name

namespace Domain

theorem nameFor_eq_ok {label : Labelling} {f : Feature α} {name : String}
    (h : nameFor label f = .ok name) : f.domain label = name ∧ ∃ l, label f.name = .ok l := by
  obtain ⟨l, hl, h⟩ := bind_eq_ok.mp h
  cases h
  refine ⟨?_, l, hl⟩
  rw [Feature.domain, hl]
  rfl

theorem groups_eq_ok {label : Labelling} {features : List (Feature α)}
    {groups : List (String × List (Feature α))} (h : Domain.groups label features = .ok groups) :
    (∀ f ∈ features, ∃ l, label f.name = .ok l) ∧
    groups = (distinctItems (features.map (·.domain label))).map fun name =>
      (name, features.filter fun f => f.domain label = name) := by
  obtain ⟨named, hnamed, h⟩ := bind_eq_ok.mp h
  cases h
  have hname {f : Feature α} {x : String × Feature α}
      (hx : (do return (← nameFor label f, f)) = Except.ok x) :
      x = (f.domain label, f) ∧ ∃ l, label f.name = .ok l := by
    obtain ⟨name, hfor, hx⟩ := bind_eq_ok.mp hx
    obtain ⟨rfl, hlabel⟩ := nameFor_eq_ok hfor
    cases hx
    exact ⟨rfl, hlabel⟩
  have hall : named = features.map fun f => (f.domain label, f) := by
    have hmap : (named.map fun x => x) = features.map fun f => (f.domain label, f) :=
      map_of_mapM hnamed fun f _ x hx => (hname hx).1
    rwa [List.map_id'] at hmap
  constructor
  · intro f hf
    obtain ⟨x, hx⟩ := exists_of_mapM hnamed hf
    exact (hname hx).2
  · rw [grouped_eq, hall, List.map_map]
    apply List.map_congr_left
    intro name _
    rw [itemsAt, List.filter_map, List.map_map]
    simp [Function.comp_def]

/-- What a domain of some features is made of. -/
structure Gathers (name : String) (features : List (Feature α)) (d : Domain) : Prop where
  name_eq : d.name = name
  features_eq : d.features = features.map (·.id)
  core_eq : d.core = coreComponents features
  boundary_eq : d.boundary = boundaryComponents features
  texts : ∀ f ∈ features, ∀ e ∈ f.entities, e.isText = true

theorem gathers_ofFeatures {name : String} {features : List (Feature α)} {d : Domain}
    (h : ofFeatures name features = .ok d) : d.Gathers name features := by
  obtain ⟨words, hwords, h⟩ := bind_eq_ok.mp h
  cases h
  refine ⟨rfl, rfl, rfl, rfl, ?_⟩
  intro f hf e he
  obtain ⟨parts, hparts, -⟩ := bind_eq_ok.mp hwords
  obtain ⟨part, hpart⟩ := exists_of_mapM hparts hf
  obtain ⟨terms, hterms, -⟩ := bind_eq_ok.mp hpart
  obtain ⟨term, hterm⟩ := exists_of_mapM hterms he
  obtain ⟨text, htext, -⟩ := bind_eq_ok.mp hterm
  cases e with
  | text s => rfl
  | _ => cases htext

theorem boundaryComponents_eq {features : List (Feature α)}
    (h : (features.flatMap Feature.componentNames).Nodup) : boundaryComponents features =
      ((features.flatMap (·.components)).filter (Mapping.hasPattern .apiCall)).map (·.name) := by
  apply distinctItems_eq_self
  apply (List.filter_sublist.map _).nodup
  rw [List.map_flatMap]
  exact h

end Domain

namespace FeatureMap

/-- The domains of the map are those into which its features fall, in the order in which they do. -/
structure Gathered (label : Labelling) (g : FeatureMap α) : Prop where
  labelled : ∀ f ∈ g.features, ∃ l, label f.name = .ok l
  names_eq : g.domains.map (·.name) = distinctItems (g.features.map (·.domain label))
  gathers : ∀ d ∈ g.domains, d.Gathers d.name (g.within label d.name)

variable [Scalar α] {g g' : FeatureMap α} {capabilities : List Capability}

omit [Scalar α] in
private theorem domains_addDomains {label : Labelling} (h : addDomains label g = .done g') :
    ∃ groups ds, Domain.groups label g.features = .ok groups ∧
      groups.mapM (fun group => Domain.ofFeatures group.1 group.2) = .ok ds ∧
      g'.domains = g.domains ++ ds := by
  unfold addDomains at h
  cases hgroups : Domain.groups label g.features with
  | error f =>
    rw [hgroups] at h
    cases h
  | ok groups =>
    rw [hgroups] at h
    refine ⟨groups, Progress.each_eq_done (P := fun before k => ∃ ds,
      before.mapM (fun group => Domain.ofFeatures group.1 group.2) = .ok ds ∧
        k.domains = g.domains ++ ds) h ⟨[], rfl, by simp⟩ ?_ |>.imp fun ds hds => ⟨rfl, hds⟩⟩
    intro before group t t' ⟨ds, hds, ht⟩ hs
    obtain ⟨d, hd, hs⟩ := bind_eq_ok.mp (Progress.step_eq_done.mp hs)
    cases hs
    exact ⟨ds ++ [d], mapM_concat_eq_ok hds hd, by simp [ht]⟩

private theorem domains_relate (h : relate g = .done g') : g'.domains = g.domains := by
  refine Progress.each_eq_done (P := fun _ k => k.domains = g.domains) h rfl
    fun before pair t t' ht hs => ?_
  obtain ⟨r, _, hs⟩ := bind_eq_ok.mp (Progress.step_eq_done.mp hs)
  cases r <;> cases hs <;> exact ht

private theorem gathers_measured {d : Domain} {name : String} {features : List (Feature α)}
    (h : d.Gathers name features) : d.Gathers name (features.map Feature.measured) := by
  refine ⟨h.name_eq, ?_, ?_, ?_, ?_⟩
  · rw [List.map_map]
    exact h.features_eq
  · rw [Domain.coreComponents, List.flatMap_map]
    exact h.core_eq
  · rw [Domain.boundaryComponents, List.flatMap_map]
    exact h.boundary_eq
  · intro f hf
    obtain ⟨k, hk, rfl⟩ := List.mem_map.mp hf
    exact h.texts k hk

theorem gathered_of_build {p : Project} {table : Classifier} {label : Labelling}
    {stories : List (Story α)} (h : buildBy p table label stories capabilities = .done g) :
    g.Gathered label := by
  obtain ⟨mapped, featured, related, grouped, hmapped, hfeatured, hrelated, hgrouped, rfl⟩ :=
    passes_of_build h
  obtain ⟨groups, ds, hgroups, hds, hdomains⟩ := domains_addDomains hgrouped
  obtain ⟨hlabelled, rfl⟩ := Domain.groups_eq_ok hgroups
  have hnone : related.domains = [] := by
    rw [domains_relate hrelated, (kept_addFeatures hfeatured).2, (kept_mapComponents hmapped).2]
    rfl
  rw [hnone, List.nil_append] at hdomains
  have hfeatures : grouped.measure.features = related.features.map Feature.measured :=
    congrArg (List.map Feature.measured) (addDomains_eq_done hgrouped).2
  have hwithin (name : String) : grouped.measure.within label name =
      (related.features.filter fun f => f.domain label = name).map Feature.measured := by
    rw [within, hfeatures, List.filter_map]
    rfl
  constructor
  · intro f hf
    rw [hfeatures] at hf
    obtain ⟨k, hk, rfl⟩ := List.mem_map.mp hf
    exact hlabelled k hk
  · have hnames : ds.map (·.name) = ((distinctItems (related.features.map (·.domain label))).map
        fun name => (name, related.features.filter fun f => f.domain label = name)).map (·.1) :=
      map_of_mapM hds fun group _ d hd => (Domain.gathers_ofFeatures hd).name_eq
    rw [List.map_map] at hnames
    rw [hfeatures, List.map_map]
    exact (congrArg _ hdomains).trans (hnames.trans (List.map_id _))
  · intro d hd
    obtain ⟨group, hgroup, hof⟩ := (mem_of_mapM hds).mp (hdomains ▸ hd)
    obtain ⟨name, -, rfl⟩ := List.mem_map.mp hgroup
    have hgathers := Domain.gathers_ofFeatures hof
    rw [hgathers.name_eq, hwithin]
    exact gathers_measured hgathers

/-- The domains divide up the features and the components at the boundary to other systems: each
feature is in the one domain that its name is labelled with, and each component that calls other
systems is at the boundary of one domain, once. -/
structure Divided (label : Labelling) (g : FeatureMap α) : Prop where
  names : (g.domains.map (·.name)).Nodup
  features : (g.domains.flatMap (·.features)).Perm (g.features.map (·.id))
  holds : ∀ d ∈ g.domains, d.features ≠ [] ∧ d.features = (g.within label d.name).map (·.id)
  placed : ∀ f ∈ g.features, ∃ l, label f.name = .ok l ∧
    ∃ d ∈ g.domains, d.name = Domain.nameOf l ∧ f ∈ g.within label d.name
  boundary : (g.domains.flatMap (·.boundary)).Perm
    ((g.mappings.filter (Mapping.hasPattern .apiCall)).map (·.name))
  once : (g.domains.flatMap (·.boundary)).Nodup

section

variable {label : Labelling}

omit [Scalar α]

theorem Gathered.mem_names (h : g.Gathered label) {name : String} :
    name ∈ g.domains.map (·.name) ↔ ∃ f ∈ g.features, f.domain label = name := by
  rw [h.names_eq, mem_distinctItems, List.mem_map]

theorem Gathered.nodup_names (h : g.Gathered label) : (g.domains.map (·.name)).Nodup := by
  rw [h.names_eq]
  exact nodup_distinctItems _

theorem Gathered.perm_features (h : g.Gathered label) :
    (g.domains.flatMap fun d => g.within label d.name).Perm g.features := by
  have hcover : ∀ f ∈ g.features, f.domain label ∈ g.domains.map (·.name) := fun f hf =>
    h.mem_names.mpr ⟨f, hf, rfl⟩
  have hperm := perm_flatMap_filter h.nodup_names hcover
  rwa [List.flatMap_map] at hperm

theorem Gathered.features_ne_nil (h : g.Gathered label) {d : Domain} (hd : d ∈ g.domains) :
    d.features ≠ [] := by
  obtain ⟨f, hf, hname⟩ := h.mem_names.mp (List.mem_map_of_mem hd)
  have hin : f ∈ g.within label d.name := List.mem_filter.mpr ⟨hf, decide_eq_true hname⟩
  rw [(h.gathers d hd).features_eq]
  exact List.ne_nil_of_mem (List.mem_map_of_mem hin)

/-- The entities of all features are texts, or the vocabularies would not have been finished. -/
theorem Gathered.texts (h : g.Gathered label) {f : Feature α} (hf : f ∈ g.features) :
    ∀ e ∈ f.entities, e.isText = true := by
  obtain ⟨d, hd, hname⟩ := List.mem_map.mp (h.mem_names.mpr ⟨f, hf, rfl⟩)
  exact (h.gathers d hd).texts f (List.mem_filter.mpr ⟨hf, decide_eq_true hname.symm⟩)

end

theorem divided_of_build {p : Project} {table : Classifier} {label : Labelling}
    {stories : List (Story α)} (h : buildBy p table label stories capabilities = .done g) :
    g.Divided label := by
  have hgathered := gathered_of_build h
  have howns := ownsOnce_of_build h
  have hall : g.domains.flatMap (·.boundary) =
      (((g.domains.flatMap fun d => g.within label d.name).flatMap (·.components)).filter
        (Mapping.hasPattern .apiCall)).map (·.name) := by
    rw [List.flatMap_assoc, List.filter_flatMap, List.map_flatMap]
    apply List.flatMap_congr
    intro d hd
    rw [(hgathered.gathers d hd).boundary_eq]
    apply Domain.boundaryComponents_eq
    exact (List.filter_sublist.flatMap _).nodup howns.nodup
  have hboundary : (g.domains.flatMap (·.boundary)).Perm
      ((g.mappings.filter (Mapping.hasPattern .apiCall)).map (·.name)) := by
    rw [hall]
    exact (((hgathered.perm_features.flatMap_right _).trans howns.perm_components).filter _).map _
  constructor
  · exact hgathered.nodup_names
  · have hids : g.domains.flatMap (·.features) =
        (g.domains.flatMap fun d => g.within label d.name).map (·.id) := by
      rw [List.map_flatMap]
      exact List.flatMap_congr fun d hd => (hgathered.gathers d hd).features_eq
    rw [hids]
    exact hgathered.perm_features.map _
  · intro d hd
    exact ⟨hgathered.features_ne_nil hd, (hgathered.gathers d hd).features_eq⟩
  · intro f hf
    obtain ⟨l, hl⟩ := hgathered.labelled f hf
    obtain ⟨d, hd, hname⟩ := List.mem_map.mp (hgathered.mem_names.mpr ⟨f, hf, rfl⟩)
    refine ⟨l, hl, d, hd, ?_, List.mem_filter.mpr ⟨hf, decide_eq_true hname.symm⟩⟩
    rw [hname, Feature.domain, hl]
    rfl
  · exact hboundary
  · apply hboundary.nodup_iff.mpr
    apply (List.filter_sublist.map _).nodup
    exact howns.perm.nodup_iff.mp howns.nodup

private def depot : Project :=
  ⟨["Cart", "Shelf", "Badge"].map fun name => ⟨.text name, .text "", .text "function", [],
    [⟨.text "useEffect", .text "effect"⟩], [],
    [.text (if name = "Shelf" then "list" else "api/items")]⟩, [], []⟩

private def depotCapabilities : List Capability :=
  [.naming "sales" "Sales" ["Cart"], .naming "stock" "Stock" ["Shelf", "Cart"]]

/-- The sales get an empty label, what is not known gets none. -/
private def byHand : Labelling
  | .text "Sales" => .ok (some "")
  | .text "Stock" => .ok (some "Storage")
  | _ => .ok none

theorem divided_of_build_depot : ∃ g : FeatureMap Rat,
    buildBy depot .responsibility byHand [] depotCapabilities = .done g ∧ g.Divided byHand ∧
    g.domains.map (fun d => (d.name, d.features, d.boundary)) =
      [("General", ["feature-sales", "feature-ui-infrastructure"], ["Cart", "Badge"]),
        ("Storage", ["feature-stock"], [])] := by
  have hbuilt := Progress.eq_done_of_isNone
    (show (buildBy depot .responsibility byHand [] depotCapabilities : Progress
      (FeatureMap Rat)).fault.isNone = true by decide +kernel)
  exact ⟨_, hbuilt, divided_of_build hbuilt, by decide +kernel⟩

end FeatureMap

end BusinessAtlas
