import BusinessAtlas.Proofs.Feature.Core
import BusinessAtlas.Proofs.Graph.Found
import Mathlib.Data.Finset.Card

/-!
# The members of clusters

Whatever a cluster lists is a node of the graph. The cluster of a feature lists its members as often as
they are named, and it is made, and collapsed, by the length of that list. In a run the components and
journeys that a cluster lists are named once, so what can come twice are the stories of a capability
that names them twice or by the id of another member, and features that have one id. Where nothing
does, the list is as long as there are members.
-/

namespace BusinessAtlas

variable {α β : Type}

namespace Arena

/-- The map of the nodes knows exactly their ids. -/
def Indexed (a : Arena α β) : Prop := ∀ k, a.hasKey k = true ↔ k ∈ a.nodeKeys

/-- The keys that are those of nodes. -/
def among (a : Arena α β) (keys : List Key) : List Key :=
  keys.filter fun k => decide (k ∈ a.nodeKeys)

theorem mem_among {a : Arena α β} {keys : List Key} {k : Key} :
    k ∈ a.among keys ↔ k ∈ keys ∧ k ∈ a.nodeKeys := by
  rw [among, List.mem_filter, decide_eq_true_iff]

theorem Indexed.keys_present {a : Arena α β} (h : a.Indexed) (ids : List Ident) :
    (a.present ids).map Ident.key = a.among (ids.map Ident.key) := by
  rw [present, among, List.filter_map]
  congr 1
  refine List.filter_congr fun i _ => ?_
  rw [Bool.eq_iff_iff, has, h i.key, Function.comp_apply, decide_eq_true_iff]

theorem present_congr {a a' : Arena α β} (h : a'.nodeSlots = a.nodeSlots) :
    a'.present = a.present := by
  funext ids
  refine List.filter_congr fun i _ => ?_
  rw [has, has, hasKey, hasKey, h]

end Arena

section

variable [Scalar α]

theorem Domain.cluster_congr {a a' : Arena α β} (h : a'.nodeSlots = a.nodeSlots) (d : Domain) :
    d.cluster a' = d.cluster a := by
  rw [cluster, Arena.present_congr h, cluster]

theorem Domain.keys_cluster {a : Arena α β} (h : a.Indexed) {d : Domain} {c : Cluster α}
    (hc : d.cluster a = some c) : c.nodes.map Ident.key =
      a.among (d.features.map .text) ++ a.among (d.core.map componentKey) := by
  unfold cluster at hc
  dsimp only at hc
  split at hc
  · cases hc
  · cases hc
    rw [List.map_append, h.keys_present, h.keys_present, List.map_map, List.map_map]
    rfl

theorem Domain.exists_cluster {a : Arena α β} (h : a.Indexed) {d : Domain} {id : String}
    (hid : id ∈ d.features) (hshown : .text id ∈ a.nodeKeys) : ∃ c, d.cluster a = some c := by
  have hpresent : Ident.text id ∈ a.present (d.features.map .text) := by
    rw [Arena.present, List.mem_filter, Arena.has, h]
    exact ⟨List.mem_map_of_mem hid, hshown⟩
  unfold cluster
  dsimp only
  rw [if_neg]
  · exact ⟨_, rfl⟩
  · intro hnone
    have hnil := (List.append_eq_nil_iff.mp (List.isEmpty_iff.mp hnone)).1
    exact List.ne_nil_of_mem hpresent hnil

theorem Feature.cluster_congr {a a' : Arena α β} (h : a'.nodeSlots = a.nodeSlots) (threshold : Json)
    (f : Feature α) : f.cluster threshold a' = f.cluster threshold a := by
  rw [cluster, clusterNodes, Arena.present_congr h, cluster, clusterNodes]

/-- Whether there is a cluster, and whether it is collapsed, goes by a count. -/
def Feature.Sized (threshold : Json) (n : Nat) (o : Option (Cluster α)) : Prop :=
  (o.isSome = true ↔ 2 < n) ∧ ∀ c, o = some c → exceeds threshold n = .ok c.collapsed

theorem Feature.cluster_eq_ok {threshold : Json} {a : Arena α β} {f : Feature α}
    {o : Option (Cluster α)} (h : f.cluster threshold a = .ok o) : ∃ nodes,
      f.clusterNodes a = .ok nodes ∧ Sized threshold nodes.length o ∧
        ∀ c, o = some c → c.id = "cluster-" ++ f.id ∧ c.nodes = nodes := by
  obtain ⟨nodes, hnodes, h⟩ := bind_eq_ok.mp h
  refine ⟨nodes, hnodes, ?_⟩
  split at h
  · next hfew =>
    cases h
    exact ⟨⟨by simpa using hfew, nofun⟩, nofun⟩
  · next hmany =>
    obtain ⟨collapsed, hcollapsed, h⟩ := bind_eq_ok.mp h
    cases h
    refine ⟨⟨by simpa using hmany, fun c hc => ?_⟩, fun c hc => ?_⟩
    · cases hc
      exact hcollapsed
    · cases hc
      exact ⟨rfl, rfl⟩

namespace Graph

/-- What the stories of a feature are that the graph has, as often as they are named. -/
def storyKeys (g : Graph α β) (f : Feature α) : List Key :=
  g.arena.among (f.stories.filterMap Json.key?)

/-- The members of a feature that the graph has, as often as they are named: the feature itself, its
stories and its components. -/
def memberKeys (g : Graph α β) (f : Feature α) : List Key :=
  .text f.id :: g.storyKeys f ++ g.arena.among (f.componentNames.map componentKey)

omit [Scalar α] in
theorem keys_clusterNodes {g : Graph α β} (h : g.arena.Indexed) {f : Feature α} {nodes : List Ident}
    (hnodes : f.clusterNodes g.arena = .ok nodes) : nodes.map Ident.key = g.memberKeys f := by
  obtain ⟨stories, hstories, hnodes⟩ := bind_eq_ok.mp hnodes
  cases hnodes
  have hkeys : stories.map (fun i => some i.key) = f.stories.map Json.key? :=
    map_of_mapM hstories fun _ _ _ hi => (Json.key?_of_asIdent hi).symm
  have hall : f.stories.filterMap Json.key? = stories.map Ident.key := by
    have hsome := congrArg (List.filterMap id) hkeys
    rw [List.filterMap_map, List.filterMap_map] at hsome
    exact hsome.symm.trans (congrFun List.filterMap_eq_map' _)
  rw [memberKeys, storyKeys, hall, List.map_append, List.map_cons, h.keys_present, h.keys_present,
    List.map_map]
  rfl

/-- The graph has the clusters of the domains, those of the features and those of the personas, and the
clusters of features go by a count of their members. -/
def Clusters (threshold : Json) (s : Sources α) (count : Feature α → Nat) (g : Graph α β) : Prop :=
  ∃ made : Feature α → Option (Cluster α),
    (∀ f ∈ s.features.features, Feature.Sized threshold (count f) (made f) ∧
      ∀ c, made f = some c → c.id = "cluster-" ++ f.id ∧ c.nodes.map Ident.key = g.memberKeys f) ∧
    g.clusters = s.features.domains.filterMap (·.cluster g.arena) ++
      s.features.features.filterMap made ++ personaClusters s.journeys.journeys

/-- The clusters list nodes of the graph, each once, and those of features go by how many members they
have. -/
structure CountsMembers (threshold : Json) (s : Sources α) (g : Graph α β) : Prop where
  members : ∀ c ∈ g.clusters, ∀ i ∈ c.nodes, i.key ∈ g.arena.nodeKeys
  once : ∀ c ∈ g.clusters, (c.nodes.map Ident.key).Nodup
  sized : g.Clusters threshold s fun f => (g.memberKeys f).toFinset.card

/-- No story comes twice among the members of a feature, and none has the id of the feature or that of
the node of a component. -/
def StoriesApart (g : Graph α β) (f : Feature α) : Prop :=
  (g.storyKeys f).Nodup ∧ ∀ k ∈ g.storyKeys f,
    k ≠ .text f.id ∧ ∀ name ∈ f.componentNames, k ≠ componentKey name

omit [Scalar α] in
instance (g : Graph α β) : DecidablePred g.StoriesApart := fun _ =>
  inferInstanceAs (Decidable (_ ∧ _))

section

variable {s : Sources α} {g g' : Graph α β}

omit [Scalar α] in
private theorem clusters_addClusters {ι : Type}
    {cluster : Arena α β → ι → Except Fault (Option (Cluster α))} {items : List ι}
    (h : addClusters cluster items g = .done g') : ∃ found,
      items.mapM (cluster g.arena) = .ok found ∧ g'.clusters = g.clusters ++ found.filterMap id := by
  have hadded : g'.arena = g.arena ∧ ∃ found, items.mapM (cluster g.arena) = .ok found ∧
      g'.clusters = g.clusters ++ found.filterMap id := by
    refine Progress.each_eq_done (P := fun before t => t.arena = g.arena ∧ ∃ found,
      before.mapM (cluster g.arena) = .ok found ∧
        t.clusters = g.clusters ++ found.filterMap id) h ⟨rfl, [], rfl, by simp⟩ ?_
    rintro before x t t' ⟨harena, found, hfound, ht⟩ hs
    obtain ⟨o, ho, hs⟩ := bind_eq_ok.mp (Progress.step_eq_done.mp hs)
    rw [harena] at ho
    have hnext := mapM_concat_eq_ok hfound ho
    cases o with
    | none =>
      cases hs
      exact ⟨harena, _, hnext, by simpa using ht⟩
    | some c =>
      cases hs
      exact ⟨harena, _, hnext, by simp [ht]⟩
  exact hadded.2

theorem clusters_addAllClusters {threshold : Json} (h : addAllClusters threshold s g = .done g') :
    ∃ found, s.features.features.mapM (Feature.cluster threshold g.arena) = .ok found ∧
      g'.clusters = g.clusters ++ (s.features.domains.filterMap (·.cluster g.arena) ++
        found.filterMap id ++ personaClusters s.journeys.journeys) := by
  obtain ⟨g₂, h, h₃⟩ := Progress.andThen_eq_done.mp h
  obtain ⟨g₁, h₁, h₂⟩ := Progress.andThen_eq_done.mp h
  cases h₃
  obtain ⟨domains, hdomains, hc₁⟩ := clusters_addClusters h₁
  obtain ⟨found, hfound, hc₂⟩ := clusters_addClusters h₂
  have hall : domains = s.features.domains.map (·.cluster g.arena) := by
    have hpure : s.features.domains.mapM (fun d => (.ok (d.cluster g.arena) : Except Fault _)) =
        .ok (s.features.domains.map (·.cluster g.arena)) := List.mapM_pure
    exact Except.ok.inj (hdomains.symm.trans hpure)
  rw [arena_of_addClusters h₁] at hfound
  refine ⟨found, hfound, ?_⟩
  rw [clusterJourneys, hc₂, hc₁, hall, List.filterMap_map, List.append_assoc, List.append_assoc,
    List.append_assoc]
  rfl

private theorem unclustered {g₁ g₂ : Graph α β} (hg : g.clusters = [])
    (h₁ : addAllNodes s g = .done g₁) (h₂ : addAllEdges s g₁ = .done g₂) : g₂.clusters = [] := by
  obtain ⟨arena₁, rfl⟩ := confined_addAllNodes s g g g₁ ⟨g.arena, rfl⟩ h₁
  obtain ⟨arena₂, rfl⟩ := confined_addAllEdges s _ _ g₂ ⟨arena₁, rfl⟩ h₂
  exact hg

private theorem indexed_of_stages {g₁ g₂ : Graph α β} (hg : g.arena = .empty)
    (h₁ : addAllNodes s g = .done g₁) (h₂ : addAllEdges s g₁ = .done g₂) : g₂.arena.Indexed := by
  obtain ⟨ns, hns, -⟩ := adds_addAllNodes s g g₁ h₁
  obtain ⟨es, hes, -⟩ := adds_addAllEdges s g₁ g₂ h₂
  rw [hns, hg, ← Arena.takeAll_append] at hes
  rw [hes]
  exact (Arena.holds_takeAll _).hasKey_iff

variable [Coordinate β] {settings : GraphSettings β} {now : Moment}

/-- The clusters of a graph that was built are made of the nodes that it has: connections and places
change neither the ids of the nodes nor the map of them. -/
theorem made_of_build (h : build settings now s = .done g) : g.arena.Indexed ∧
    ∃ made : Feature α → Option (Cluster α),
      (∀ f ∈ s.features.features,
        f.cluster settings.collapseThreshold g.arena = .ok (made f)) ∧
      g.clusters = s.features.domains.filterMap (·.cluster g.arena) ++
        s.features.features.filterMap made ++ personaClusters s.journeys.journeys := by
  obtain ⟨g₃, h, hplace⟩ := Progress.andThen_eq_done.mp h
  obtain ⟨g₂, h, h₃⟩ := Progress.andThen_eq_done.mp h
  obtain ⟨g₁, h₁, h₂⟩ := Progress.andThen_eq_done.mp h
  have hnone : g₂.clusters = [] := unclustered rfl h₁ h₂
  have hindexed := indexed_of_stages rfl h₁ h₂
  have harena := arena_of_addAllClusters h₃
  obtain ⟨found, hfound, hclusters⟩ := clusters_addAllClusters h₃
  have hkeys : g.arena.nodeKeys = g₂.arena.nodeKeys := by
    have hlinked : g₃.connect.takeStatistics.arena.nodeKeys = g₃.arena.nodeKeys := List.map_map ..
    rw [((leaves_place settings.layout).keeps _ g hplace).1, hlinked, harena]
  have hleft : g.arena.nodeSlots = g₂.arena.nodeSlots ∧ g.clusters = g₃.clusters := by
    obtain ⟨nodes, rfl⟩ := exists_nodes_of_place hplace
    exact ⟨(rfl : _ = g₃.arena.nodeSlots).trans (congrArg Arena.nodeSlots harena), rfl⟩
  obtain ⟨hslots, hsame⟩ := hleft
  let made := fun f : Feature α => (f.cluster settings.collapseThreshold g₂.arena).toOption.join
  have hmade {f : Feature α} {o} (ho : f.cluster settings.collapseThreshold g₂.arena = .ok o) :
      o = made f := by
    simp only [made, ho]
    rfl
  have hall : found = s.features.features.map made := by
    have hmap := map_of_mapM (g := id) hfound fun _ _ _ ho => hmade ho
    rwa [List.map_id] at hmap
  refine ⟨fun k => ?_, made, fun f hf => ?_, ?_⟩
  · rw [hkeys, ← hindexed k, Arena.hasKey, Arena.hasKey, hslots]
  · obtain ⟨o, ho⟩ := exists_of_mapM hfound hf
    rw [Feature.cluster_congr hslots, ho, hmade ho]
  · simp only [hsame, hclusters, hnone, hall, List.nil_append, List.filterMap_map, Function.id_comp,
      Domain.cluster_congr hslots]

theorem clusters_cases (h : build settings now s = .done g) {c : Cluster α} (hc : c ∈ g.clusters) :
    (∃ d ∈ s.features.domains, d.cluster g.arena = some c) ∨
      (∃ f ∈ s.features.features, 2 < (g.memberKeys f).length ∧
        c.nodes.map Ident.key = g.memberKeys f) ∨
      c ∈ personaClusters s.journeys.journeys := by
  obtain ⟨hindexed, made, hmade, hclusters⟩ := made_of_build h
  rw [hclusters, List.mem_append, List.mem_append, List.mem_filterMap, List.mem_filterMap] at hc
  rcases hc with (hc | ⟨f, hf, hc⟩) | hc
  · exact .inl hc
  · obtain ⟨nodes, hnodes, hsized, hparts⟩ := Feature.cluster_eq_ok (hmade f hf)
    have hkeys := keys_clusterNodes hindexed hnodes
    have hmany := hsized.1.mp (hc ▸ rfl)
    rw [← List.length_map Ident.key, hkeys] at hmany
    exact .inr (.inl ⟨f, hf, hmany, (hparts c hc).2 ▸ hkeys⟩)
  · exact .inr (.inr hc)

theorem clusters_length_of_build (h : build settings now s = .done g) :
    g.Clusters settings.collapseThreshold s fun f => (g.memberKeys f).length := by
  obtain ⟨hindexed, made, hmade, hclusters⟩ := made_of_build h
  refine ⟨made, fun f hf => ?_, hclusters⟩
  obtain ⟨nodes, hnodes, hsized, hparts⟩ := Feature.cluster_eq_ok (hmade f hf)
  have hkeys := keys_clusterNodes hindexed hnodes
  rw [← List.length_map Ident.key, hkeys] at hsized
  refine ⟨hsized, fun c hc => ?_⟩
  obtain ⟨hid, rfl⟩ := hparts c hc
  exact ⟨hid, hkeys⟩

omit [Coordinate β] in
/-- Clusters that go by one count of the members go by another that is as large where there are enough
members for a cluster, and too small where the first one is. -/
theorem Clusters.congr {threshold : Json} {count other : Feature α → Nat}
    (h : g.Clusters threshold s count)
    (hmany : ∀ f ∈ s.features.features, 2 < count f → other f = count f)
    (hfew : ∀ f ∈ s.features.features, other f ≤ count f) : g.Clusters threshold s other := by
  obtain ⟨made, hmade, hclusters⟩ := h
  refine ⟨made, fun f hf => ?_, hclusters⟩
  obtain ⟨hsized, hparts⟩ := hmade f hf
  refine ⟨?_, hparts⟩
  by_cases hcount : 2 < count f
  · rwa [hmany f hf hcount]
  · have hnone : made f = none := by simpa using mt hsized.1.mp hcount
    have hless : ¬2 < other f := fun hlt => hcount (hlt.trans_le (hfew f hf))
    rw [hnone]
    exact ⟨by simpa using hless, nofun⟩

end

section

variable {js : List (Journey α)} {c : Cluster α}

theorem nodes_of_mem_personaClusters (hc : c ∈ personaClusters js) :
    ∃ group : List (Journey α), group.Sublist js ∧ c.nodes = group.map fun j => .text j.id := by
  obtain ⟨⟨persona, group⟩, hgroup, rfl⟩ := List.mem_map.mp hc
  have hall := List.mem_of_mem_filter hgroup
  rw [grouped_eq, List.mem_map] at hall
  obtain ⟨key, -, hpair⟩ := hall
  cases hpair
  refine ⟨_, ?_, rfl⟩
  rw [itemsAt, List.filter_map, List.map_map, Function.comp_def, List.map_id']
  exact List.filter_sublist

theorem nodup_of_mem_personaClusters (hids : (js.map (·.id)).Nodup) (hc : c ∈ personaClusters js) :
    (c.nodes.map Ident.key).Nodup := by
  obtain ⟨group, hgroup, hnodes⟩ := nodes_of_mem_personaClusters hc
  have hkeys : c.nodes.map Ident.key = (group.map (·.id)).map Key.text := by
    rw [hnodes, List.map_map, List.map_map]
    rfl
  rw [hkeys]
  exact ((hgroup.map _).nodup hids).map fun _ _ => Key.text.inj

end

section

variable {s : Sources α} {g : Graph α β}

omit [Scalar α] in
theorem nodup_memberKeys_iff (hs : s.Found) {f : Feature α} (hf : f ∈ s.features.features) :
    (g.memberKeys f).Nodup ↔ g.StoriesApart f := by
  obtain ⟨rest, hid⟩ := hs.owned.exists_id hf
  obtain ⟨i, hi⟩ := List.mem_iff_getElem?.mp hf
  have hcomponents : (g.arena.among (f.componentNames.map componentKey)).Nodup :=
    List.filter_sublist.nodup ((hs.owned.nodup_componentNames hi).map componentKey_injective)
  have hself : .text f.id ∉ g.arena.among (f.componentNames.map componentKey) := by
    intro hmem
    obtain ⟨name, -, hname⟩ := List.mem_map.mp (Arena.mem_among.mp hmem).1
    have hsame := Key.text.inj hname
    rw [hid] at hsame
    exact append_ne_of_stems (by decide) (by decide) (by decide) _ _ hsame
  rw [memberKeys, List.cons_append, List.nodup_cons, List.nodup_append, List.mem_append, not_or,
    StoriesApart]
  constructor
  · rintro ⟨⟨hfeature, -⟩, hstories, -, hdisjoint⟩
    refine ⟨hstories, fun k hk => ⟨fun he => hfeature (he ▸ hk), fun name hname he => ?_⟩⟩
    have hpresent := (Arena.mem_among.mp hk).2
    exact hdisjoint k hk k (Arena.mem_among.mpr ⟨he ▸ List.mem_map_of_mem hname, hpresent⟩) rfl
  · rintro ⟨hstories, hapart⟩
    refine ⟨⟨fun hmem => (hapart _ hmem).1 rfl, hself⟩, hstories, hcomponents, ?_⟩
    intro k hk l hl he
    obtain ⟨name, hname, rfl⟩ := List.mem_map.mp (Arena.mem_among.mp hl).1
    exact (hapart k hk).2 name hname he

variable [Coordinate β] {settings : GraphSettings β} {now : Moment}

private theorem members_of_build (h : build settings now s = .done g) :
    ∀ c ∈ g.clusters, ∀ i ∈ c.nodes, i.key ∈ g.arena.nodeKeys := by
  intro c hc i hi
  have hindexed := (made_of_build h).1
  have hshows := (shows_of_build h).nodes
  have hkey : i.key ∈ c.nodes.map Ident.key := List.mem_map_of_mem hi
  rcases clusters_cases h hc with ⟨d, -, hd⟩ | ⟨f, hf, -, hkeys⟩ | hc
  · rw [Domain.keys_cluster hindexed hd, List.mem_append] at hkey
    exact hkey.elim (fun hk => (Arena.mem_among.mp hk).2) fun hk => (Arena.mem_among.mp hk).2
  · rw [hkeys, memberKeys, List.cons_append, List.mem_cons, List.mem_append] at hkey
    rcases hkey with hk | hk | hk
    · exact hk ▸ (hshows _).mpr (.feature hf)
    · exact (Arena.mem_among.mp hk).2
    · exact (Arena.mem_among.mp hk).2
  · obtain ⟨group, hgroup, hnodes⟩ := nodes_of_mem_personaClusters hc
    obtain ⟨j, hj, rfl⟩ := List.mem_map.mp (hnodes ▸ hi)
    exact (hshows _).mpr (.journey (hgroup.subset hj))

private theorem exists_feature {p : Project} {c : Context α} (hs : Sources.ofProject p c = .ok s)
    {d : Domain} (hd : d ∈ s.features.domains) :
    ∀ id ∈ d.features, ∃ f ∈ s.features.features, f.id = id := by
  obtain ⟨-, hfeatures, -⟩ := Sources.stages_of_project hs
  intro id hid
  rw [((FeatureMap.gathered_of_build hfeatures).gathers d hd).features_eq] at hid
  obtain ⟨f, hf, rfl⟩ := List.mem_map.mp hid
  exact ⟨f, List.mem_of_mem_filter hf, rfl⟩

theorem exists_domainCluster {p : Project} {c : Context α} (hs : Sources.ofProject p c = .ok s)
    (h : build settings now s = .done g) {d : Domain} (hd : d ∈ s.features.domains) :
    ∃ cluster, d.cluster g.arena = some cluster := by
  obtain ⟨-, hfeatures, -⟩ := Sources.stages_of_project hs
  have hnonempty := (FeatureMap.gathered_of_build hfeatures).features_ne_nil hd
  obtain ⟨id, hid⟩ := List.exists_mem_of_ne_nil _ hnonempty
  obtain ⟨f, hf, rfl⟩ := exists_feature hs hd id hid
  exact Domain.exists_cluster (made_of_build h).1 hid (((shows_of_build h).nodes _).mpr (.feature hf))

private theorem exists_nodup_cluster_iff {p : Project} {c : Context α}
    (hs : Sources.ofProject p c = .ok s) (h : build settings now s = .done g) {d : Domain}
    (hd : d ∈ s.features.domains) : ∃ cluster, d.cluster g.arena = some cluster ∧
      ((cluster.nodes.map Ident.key).Nodup ↔ d.features.Nodup) := by
  obtain ⟨-, hfeatures, -⟩ := Sources.stages_of_project hs
  obtain ⟨-, hfound⟩ := Sources.found_of_project hs
  have hindexed := (made_of_build h).1
  have hgathers := (FeatureMap.gathered_of_build hfeatures).gathers d hd
  have hids := exists_feature hs hd
  have hshown : ∀ id ∈ d.features, .text id ∈ g.arena.nodeKeys := by
    intro id hid
    obtain ⟨f, hf, rfl⟩ := hids id hid
    exact ((shows_of_build h).nodes _).mpr (.feature hf)
  obtain ⟨cluster, hcluster⟩ := exists_domainCluster hs h hd
  refine ⟨cluster, hcluster, ?_⟩
  have hall : g.arena.among (d.features.map .text) = d.features.map .text := by
    refine List.filter_eq_self.mpr fun k hk => decide_eq_true ?_
    obtain ⟨id, hid, rfl⟩ := List.mem_map.mp hk
    exact hshown id hid
  have hcore : (g.arena.among (d.core.map componentKey)).Nodup := by
    refine List.filter_sublist.nodup (List.Nodup.map componentKey_injective ?_)
    rw [hgathers.core_eq]
    exact Domain.nodup_coreComponents _
  rw [Domain.keys_cluster hindexed hcluster, hall, List.nodup_append,
    List.nodup_map_iff fun _ _ => Key.text.inj]
  refine ⟨fun hnodup => hnodup.1, fun hnodup => ⟨hnodup, hcore, fun k hk l hl he => ?_⟩⟩
  obtain ⟨id, hid, rfl⟩ := List.mem_map.mp hk
  obtain ⟨f, hf, rfl⟩ := hids id hid
  obtain ⟨name, -, rfl⟩ := List.mem_map.mp (Arena.mem_among.mp hl).1
  obtain ⟨rest, hrest⟩ := hfound.owned.exists_id hf
  rw [hrest] at he
  exact append_ne_of_stems (by decide) (by decide) (by decide) _ _ (Key.text.inj he)

private theorem once_iff_of_build {p : Project} {c : Context α}
    (hs : Sources.ofProject p c = .ok s) (h : build settings now s = .done g) :
    (∀ c ∈ g.clusters, (c.nodes.map Ident.key).Nodup) ↔
      (∀ d ∈ s.features.domains, d.features.Nodup) ∧
      ∀ f ∈ s.features.features, 2 < (g.memberKeys f).length → g.StoriesApart f := by
  obtain ⟨-, hfound⟩ := Sources.found_of_project hs
  constructor
  · intro honce
    obtain ⟨made, hmade, hclusters⟩ := clusters_length_of_build h
    rw [hclusters] at honce
    constructor
    · intro d hd
      obtain ⟨cluster, hcluster, hiff⟩ := exists_nodup_cluster_iff hs h hd
      have hin := List.mem_filterMap.mpr ⟨d, hd, hcluster⟩
      exact hiff.mp (honce cluster (List.mem_append_left _ (List.mem_append_left _ hin)))
    · intro f hf hmany
      obtain ⟨hsized, hparts⟩ := hmade f hf
      obtain ⟨cluster, hcluster⟩ := Option.isSome_iff_exists.mp (hsized.1.mpr hmany)
      have hin := List.mem_filterMap.mpr ⟨f, hf, hcluster⟩
      have hnodup := honce cluster (List.mem_append_left _ (List.mem_append_right _ hin))
      rw [(hparts cluster hcluster).2] at hnodup
      exact (nodup_memberKeys_iff hfound hf).mp hnodup
  · rintro ⟨hdomains, hstories⟩ c hc
    rcases clusters_cases h hc with ⟨d, hd, hcluster⟩ | ⟨f, hf, hmany, hkeys⟩ | hc
    · obtain ⟨cluster, hsome, hiff⟩ := exists_nodup_cluster_iff hs h hd
      obtain rfl : cluster = c := Option.some.inj (hsome.symm.trans hcluster)
      exact hiff.mpr (hdomains d hd)
    · exact hkeys ▸ (nodup_memberKeys_iff hfound hf).mpr (hstories f hf hmany)
    · obtain ⟨t, -, htraced⟩ := hfound.traced
      exact nodup_of_mem_personaClusters htraced.ids hc

/-- What clusters list are nodes, and the cluster of a feature goes by how often its members are named.
In a run clusters list each member once and go by how many members there are exactly if no two features
of a domain have one id and the stories of no feature that has a cluster repeat a member. -/
theorem clusters_of_build (h : build settings now s = .done g) :
    (∀ c ∈ g.clusters, ∀ i ∈ c.nodes, i.key ∈ g.arena.nodeKeys) ∧
    g.Clusters settings.collapseThreshold s (fun f => (g.memberKeys f).length) ∧
    ∀ p c, Sources.ofProject p c = .ok s → (g.CountsMembers settings.collapseThreshold s ↔
      (∀ d ∈ s.features.domains, d.features.Nodup) ∧
      ∀ f ∈ s.features.features, 2 < (g.memberKeys f).length → g.StoriesApart f) := by
  have hmembers := members_of_build h
  have hlengths := clusters_length_of_build h
  refine ⟨hmembers, hlengths, fun p c hs => ?_⟩
  have honce := once_iff_of_build hs h
  constructor
  · intro hcounts
    exact honce.mp hcounts.once
  · intro hapart
    have hnodup : ∀ f ∈ s.features.features, 2 < (g.memberKeys f).length →
        (g.memberKeys f).Nodup := fun f hf hmany =>
      (nodup_memberKeys_iff (Sources.found_of_project hs).2 hf).mpr (hapart.2 f hf hmany)
    refine ⟨hmembers, honce.mpr hapart, hlengths.congr (fun f hf hmany => ?_) fun f hf => ?_⟩
    · exact List.toFinset_card_of_nodup (hnodup f hf hmany)
    · exact List.toFinset_card_le _

end

end Graph

end

namespace Graph

/-- Two stories and the capability of sales, which names some stories and some components. -/
private def tillWork (stories components : List String) : Context Rat where
  stories := ["pay", "refund"].map fun id =>
    ⟨.text id, .text "", .text "", .text "buyer", .text "high", 0, .text "", .text "", .text "simple",
      [], [], .null⟩
  capabilities := [
    { Capability.naming "sales" "Sales" components with stories := stories.map .text }]
  entities := []
  rules := []
  personas := []

private def tillSettings : GraphSettings Json := Config.default.graphSettings

private def tillTime : Moment := ⟨2024, 1, 2, 3, 4, 5, 0⟩

theorem clusters_of_build_till : ∃ s g,
    Sources.ofProject (.bare ["Cart", "Till", "Badge"])
      (tillWork ["pay", "refund"] ["Cart", "Till", "Badge"]) = .ok s ∧
    build tillSettings tillTime s = .done g ∧
    g.clusters.map (fun c => (c.id, c.nodes.length, c.collapsed)) =
      [("domain-general", 1, false), ("cluster-feature-sales", 6, true)] ∧
    g.CountsMembers tillSettings.collapseThreshold s := by
  obtain ⟨s, hs, hbuilt⟩ := exists_of_any (show (Sources.ofProject (.bare ["Cart", "Till", "Badge"])
    (tillWork ["pay", "refund"] ["Cart", "Till", "Badge"])).toOption.any (fun s =>
      (build tillSettings tillTime s).toExcept.toOption.any fun g =>
        (g.clusters.map (fun c => (c.id, c.nodes.length, c.collapsed)) ==
          [("domain-general", 1, false), ("cluster-feature-sales", 6, true)]) &&
        decide ((∀ d ∈ s.features.domains, d.features.Nodup) ∧
          ∀ f ∈ s.features.features, 2 < (g.memberKeys f).length → g.StoriesApart f)) = true by
    decide +kernel)
  obtain ⟨g, hg, hfound⟩ := exists_of_any hbuilt
  obtain ⟨hclusters, hapart⟩ := (Bool.and_eq_true _ _).mp hfound
  have hdone := Progress.toExcept_eq_ok.mp hg
  exact ⟨s, g, hs, hdone, eq_of_beq hclusters,
    ((clusters_of_build hdone).2.2 _ _ hs).mpr (of_decide_eq_true hapart)⟩

/-- A capability that names one story twice: its feature has a cluster although there are only two
members, one of which the cluster lists twice. -/
theorem not_countsMembers_twice : ∃ s g,
    Sources.ofProject (.bare []) (tillWork ["pay", "pay"] []) = .ok s ∧
    build tillSettings tillTime s = .done g ∧
    (∃ f ∈ s.features.features, (g.memberKeys f).toFinset.card = 2 ∧ ∃ c ∈ g.clusters,
      c.id = "cluster-" ++ f.id ∧ c.nodes = [.text f.id, .text "pay", .text "pay"]) ∧
    ¬g.CountsMembers tillSettings.collapseThreshold s := by
  obtain ⟨s, hs, hbuilt⟩ := exists_of_any (show (Sources.ofProject (.bare [])
    (tillWork ["pay", "pay"] [])).toOption.any (fun s =>
      (build tillSettings tillTime s).toExcept.toOption.any fun g => decide (∃ f ∈ s.features.features,
        (g.memberKeys f).toFinset.card = 2 ∧ ∃ c ∈ g.clusters,
          c.id = "cluster-" ++ f.id ∧ c.nodes = [.text f.id, .text "pay", .text "pay"])) = true by
    decide +kernel)
  obtain ⟨g, hg, hfound⟩ := exists_of_any hbuilt
  obtain ⟨f, hf, hcard, c, hc, hid, hnodes⟩ := of_decide_eq_true hfound
  refine ⟨s, g, hs, Progress.toExcept_eq_ok.mp hg, ⟨f, hf, hcard, c, hc, hid, hnodes⟩, ?_⟩
  intro hcounts
  have honce := hcounts.once c hc
  rw [hnodes] at honce
  simp at honce

end Graph

end BusinessAtlas
