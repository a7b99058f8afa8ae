import BusinessAtlas.Proofs.Network.Coverage
import Mathlib.Data.List.Induction

/-!
# A node for everything that has an id of its own

Nodes are made in batches: first those of the stories, then those of the capabilities, the features,
the components, the entities, the journeys, the rules and the personas. Of several things with one id
the first one has the node, whatever batches they are in. So the counts by kind are the sizes of the
batches exactly if no id comes twice, within a batch or across them.
-/

namespace BusinessAtlas

section

variable {κ κ' ι ι' : Type} [DecidableEq κ] [DecidableEq κ']

theorem map_firstPer {f : ι → ι'} {key : ι → κ} (key' : ι' → κ')
    (h : ∀ x y, key' (f x) = key' (f y) ↔ key x = key y) (items : List ι) :
    (firstPer key items).map f = firstPer key' (items.map f) := by
  induction items using List.reverseRecOn with
  | nil => rfl
  | append_singleton items x ih =>
    have hmem : key' (f x) ∈ (items.map f).map key' ↔ key x ∈ items.map key := by
      simp only [List.map_map, List.mem_map, Function.comp_apply, h]
    rw [List.map_append, List.map_singleton, firstPer_concat, firstPer_concat, List.map_append, ih]
    by_cases hx : key x ∈ items.map key
    · rw [if_pos hx, if_pos (hmem.mpr hx), List.map_nil]
    · rw [if_neg hx, if_neg (mt hmem.mp hx), List.map_singleton]

theorem firstPer_sublist (key : ι → κ) (items : List ι) : (firstPer key items).Sublist items := by
  induction items using List.reverseRecOn with
  | nil => exact .slnil
  | append_singleton items x ih =>
    rw [firstPer_concat]
    refine ih.append ?_
    split
    · exact List.nil_sublist _
    · exact .refl _

theorem mem_firstPer_iff {key : ι → κ} {items : List ι} {x : ι} :
    x ∈ firstPer key items ↔ items.find? (fun y => key y = key x) = some x := by
  refine ⟨find?_of_mem_firstPer, fun h => ?_⟩
  have hkey : key x ∈ (firstPer key items).map key :=
    (mem_map_firstPer key items).mpr (List.mem_map_of_mem (List.mem_of_find?_eq_some h))
  obtain ⟨y, hy, hyx⟩ := List.mem_map.mp hkey
  have hfound := find?_of_mem_firstPer hy
  rw [hyx, h] at hfound
  exact Option.some.inj hfound ▸ hy

theorem getD_lookup_countsOf (kinds : List κ) (k : κ) :
    ((countsOf kinds).lookup k).getD 0 = kinds.count k := by
  by_cases hk : k ∈ kinds
  · rw [countsOf, List.lookup_graph _ (mem_distinctItems.mpr hk)]
    rfl
  · have hnone : (countsOf kinds).lookup k = none := by
      refine List.lookup_eq_none_iff.mpr fun p hp => ?_
      obtain ⟨l, hl, rfl⟩ := List.mem_map.mp hp
      exact bne_iff_ne.mpr fun he => hk (he ▸ mem_distinctItems.mp hl)
    rw [hnone, List.count_eq_zero_of_not_mem hk]
    rfl

end

variable {α β : Type}

/-- The kinds of the things that nodes are made of, in the order in which they are. -/
def NodeKind.batches : List NodeKind :=
  [.story, .capability, .feature, .component, .entity, .journey, .rule, .persona]

/-- The id and the kind of a node. -/
def Node.entry (n : Node α β) : Option Key × NodeKind := (some n.id.key, n.kind)

namespace Graph

namespace Sources

/-- The ids of the things of a kind. -/
def batch (s : Sources α) : NodeKind → List (Option Key)
  | .story => s.context.stories.map (·.id.key?)
  | .capability => s.context.capabilities.map (·.id.key?)
  | .feature => s.features.features.map fun x => some (.text x.id)
  | .component => s.features.mappings.map fun x => some (componentKey x.name)
  | .entity => s.context.entities.map fun x => some (entityKey x.name.shown)
  | .journey => s.journeys.journeys.map fun x => some (.text x.id)
  | .rule => s.context.rules.map (·.id.key?)
  | .persona => s.context.personas.map (·.id.key?)
  | .endpoint | .integration => []

/-- All ids in the order in which nodes are made of them. -/
def allIds (s : Sources α) : List (Option Key) := NodeKind.batches.flatMap s.batch

/-- All ids with the kinds of what they are the ids of. -/
def entries (s : Sources α) : List (Option Key × NodeKind) :=
  NodeKind.batches.flatMap fun kind => (s.batch kind).map fun id => (id, kind)

theorem map_entries (s : Sources α) : s.entries.map Prod.fst = s.allIds := by
  simp [entries, allIds, List.map_flatMap, Function.comp_def]

theorem count_entries (s : Sources α) (kind : NodeKind) :
    (s.entries.map Prod.snd).count kind = (s.batch kind).length := by
  have hkinds : s.entries.map Prod.snd =
      NodeKind.batches.flatMap fun other => List.replicate (s.batch other).length other := by
    simp [entries, List.map_flatMap, Function.comp_def]
  rw [hkinds]
  cases kind <;> simp [NodeKind.batches, batch, List.count_replicate]

theorem mem_batch {s : Sources α} {k : Key} {kind : NodeKind} :
    some k ∈ s.batch kind ↔ s.DeclaresAs (k, kind) := by
  cases kind <;> simp [batch, DeclaresAs, componentKey, entityKey]

end Sources

/-- How many nodes of a kind the statistics tell of. -/
def countOf (kind : NodeKind) (g : Graph α β) : Nat :=
  (g.statistics.nodesByKind.lookup kind).getD 0

/-- The nodes of the graph are those of the sources: one for every id, of the kind of what first has
the id. -/
structure Sources.Numbers (s : Sources α) (g : Graph α β) : Prop where
  nodes : g.arena.nodes.map Node.entry = firstPer Prod.fst s.entries
  counts : ∀ kind, g.countOf kind = (g.arena.nodes.map (·.kind)).count kind

namespace Sources.Numbers

variable {s : Sources α} {g : Graph α β}

/-- A thing has a node of its kind exactly if the first thing with its id is of its kind. -/
theorem mem_iff (h : s.Numbers g) (id : Option Key) (kind : NodeKind) :
    (id, kind) ∈ g.arena.nodes.map Node.entry ↔
      s.entries.find? (fun e => e.1 = id) = some (id, kind) := by
  rw [h.nodes, mem_firstPer_iff]

theorem exists_key (h : s.Numbers g) {id : Option Key} (hid : id ∈ s.allIds) :
    ∃ k, id = some k := by
  rw [← s.map_entries, ← mem_map_firstPer Prod.fst, ← h.nodes, List.map_map] at hid
  obtain ⟨n, -, rfl⟩ := List.mem_map.mp hid
  exact ⟨n.id.key, rfl⟩

theorem nodes_iff (h : s.Numbers g) :
    g.arena.nodes.map Node.entry = s.entries ↔ s.allIds.Nodup := by
  rw [h.nodes, firstPer_eq_self_iff, s.map_entries]

theorem counts_iff (h : s.Numbers g) :
    (∀ kind, g.countOf kind = (s.batch kind).length) ↔ s.allIds.Nodup := by
  have hkinds : g.arena.nodes.map (·.kind) = (firstPer Prod.fst s.entries).map Prod.snd := by
    rw [← h.nodes, List.map_map]
    rfl
  rw [← h.nodes_iff, h.nodes]
  simp only [h.counts, hkinds, ← s.count_entries]
  constructor
  · intro hcounts
    have hlength := (List.perm_iff_count.mpr hcounts).length_eq
    rw [List.length_map, List.length_map] at hlength
    exact (firstPer_sublist Prod.fst s.entries).eq_of_length hlength
  · intro heq kind
    rw [heq]

end Sources.Numbers

section

variable [Scalar α]

omit [Scalar α] in
private theorem entries_of_mapM {ι : Type} {node : ι → Except Fault (Node α β)} {id : ι → Json}
    {kind : NodeKind} {items : List ι} {ns : List (Node α β)} (h : items.mapM node = .ok ns)
    (hmade : ∀ x n, node x = .ok n → n.Made (id x) kind) :
    ns.map Node.entry = items.map fun x => ((id x).key?, kind) :=
  map_of_mapM h fun x _ n hn => Prod.ext (hmade x n hn).key_eq.symm (hmade x n hn).kind_eq

theorem entries_addAllNodes (s : Sources α) :
    Offers .node (fun ns => ns.map Node.entry = s.entries) (addAllNodes (β := β) s) := by
  refine (offers_makesNodes s).imp fun ns hns => ?_
  obtain ⟨stories, capabilities, rules, personas, hmakes⟩ := hns
  have hstories := entries_of_mapM hmakes.stories made_ofStory
  have hcapabilities := entries_of_mapM hmakes.capabilities made_ofCapability
  have hrules := entries_of_mapM hmakes.rules made_ofRule
  have hpersonas := entries_of_mapM hmakes.personas made_ofPersona
  simp only [hmakes.eq, List.map_append, List.map_map, hstories, hcapabilities, hrules, hpersonas]
  simp [Sources.entries, NodeKind.batches, Sources.batch, Function.comp_def, Node.entry,
    Node.ofFeature, Node.ofMapping, Node.ofEntity, Node.ofJourney, componentId, entityId,
    componentKey, entityKey]

variable [Coordinate β] {settings : GraphSettings β} {now : Moment} {s : Sources α} {g : Graph α β}

private theorem countOf_of_build (h : build settings now s = .done g) (kind : NodeKind) :
    g.countOf kind = (g.arena.nodes.map (·.kind)).count kind := by
  obtain ⟨g₃, -, hplace⟩ := Progress.andThen_eq_done.mp h
  have hkinds : g.arena.nodes.map (·.kind) =
      g₃.connect.takeStatistics.arena.nodes.map (·.kind) := by
    have htyped := congrArg (List.map Prod.snd) (leaves_place _ _ g hplace).1
    rwa [Arena.typedKeys, Arena.typedKeys, List.map_map, List.map_map] at htyped
  obtain ⟨nodes, hnodes⟩ := exists_nodes_of_place hplace
  have hstatistics := congrArg Graph.statistics hnodes
  rw [hkinds, countOf, hstatistics]
  exact getD_lookup_countsOf _ kind

theorem numbers_of_build (h : build settings now s = .done g) : s.Numbers g := by
  refine ⟨?_, countOf_of_build h⟩
  obtain ⟨ns, hentries, hnodes⟩ := nodes_of_build (entries_addAllNodes s) h
  have hentry := congrArg (List.map Node.entry) hnodes
  rw [List.map_map, List.map_map] at hentry
  have hentry : g.arena.nodes.map Node.entry = (firstPer (·.id.key) ns).map Node.entry := hentry
  have hkey (n m : Node α β) : n.entry.1 = m.entry.1 ↔ n.id.key = m.id.key := by
    simp [Node.entry]
  rw [hentry, map_firstPer Prod.fst hkey, hentries]

end

end Graph

/-- Every requirement has an id of its own, which begins as none does that a run makes, and no two
entities or features are to have one id. -/
structure Context.Distinct (c : Context α) : Prop where
  separate : c.Separate
  entities : (c.entities.map (·.name.shown)).Nodup
  features : (infrastructureId :: c.capabilities.map fun x => featureId x.id).Nodup

theorem FeatureMap.OwnsOnce.ids_sublist {capabilities : List Capability} {m : FeatureMap α}
    (h : m.OwnsOnce capabilities) : (m.features.map (·.id)).Sublist
      ((capabilities.map fun x => featureId x.id) ++ [infrastructureId]) := by
  have hrest : ((m.features.drop capabilities.length).map (·.id)).Sublist [infrastructureId] := by
    rcases h.drop_cases with hdrop | ⟨f, hdrop, hf⟩
    · rw [hdrop]
      exact List.nil_sublist _
    · rw [hdrop, List.map_singleton, hf.id_eq]
  rw [← List.take_append_drop capabilities.length m.features, List.map_append, h.ids_take]
  exact (List.Sublist.refl _).append hrest

namespace Graph.Sources.Found

variable {s : Sources α}

private theorem nodup_map_some {ι κ ν : Type} {f : ι → κ} {g : κ → ν} (hg : Function.Injective g)
    {xs : List ι} (h : (xs.map f).Nodup) : (xs.map fun x => some (g (f x))).Nodup := by
  have hsome : Function.Injective fun y => some (g y) := fun _ _ he => hg (Option.some.inj he)
  have hnodup := h.map hsome
  rwa [List.map_map] at hnodup

private theorem nodup_batch (hs : s.Found) (hc : s.context.Distinct) (kind : NodeKind) :
    (s.batch kind).Nodup := by
  have hids := hc.separate.distinct
  simp only [Context.ids, List.map_append, List.map_map] at hids
  have hbelow := hids.of_append_left
  cases kind with
  | story => exact hbelow.of_append_left.of_append_left
  | capability => exact hbelow.of_append_left.of_append_right
  | rule => exact hbelow.of_append_right
  | persona => exact hids.of_append_right
  | feature =>
    have hfeatures := (List.perm_append_singleton infrastructureId _).nodup_iff.mpr hc.features
    have hnodup := hs.owned.ids_sublist.nodup hfeatures
    exact nodup_map_some (fun _ _ h => Key.text.inj h) hnodup
  | component =>
    exact nodup_map_some componentKey_injective (hs.owned.perm.nodup_iff.mp hs.owned.nodup)
  | entity => exact nodup_map_some entityKey_injective hc.entities
  | journey =>
    obtain ⟨t, -, htraced⟩ := hs.traced
    exact nodup_map_some (fun _ _ h => Key.text.inj h) htraced.ids
  | endpoint => exact List.nodup_nil
  | integration => exact List.nodup_nil

theorem nodup_allIds (hs : s.Found) (hc : s.context.Distinct)
    (hids : ∀ id ∈ s.allIds, ∃ k, id = some k) : s.allIds.Nodup := by
  have hnodup : NodeKind.batches.Nodup := by decide
  refine List.nodup_flatMap.mpr ⟨fun kind _ => hs.nodup_batch hc kind, ?_⟩
  refine hnodup.imp_of_mem fun {a b} hamem _ hne id ha hb => ?_
  obtain ⟨k, rfl⟩ := hids id (List.mem_flatMap.mpr ⟨a, hamem, ha⟩)
  exact hne (hs.kind_unique hc.separate (mem_batch.mp ha) (mem_batch.mp hb))

end Graph.Sources.Found

namespace Atlas

/-- In a run, a thing has a node of its kind exactly if the first thing with its id is of its kind. So
there is a node for everything, and the counts are the sizes of the batches, exactly if no id comes
twice, and none does where requirements, entities and features have ids of their own. -/
theorem numbers_make (config : Config) (now : Moment) (analyse : Bool) (p : Project)
    (c : Context Number) (a : Atlas) (h : make config now analyse p c = .ok a) :
    a.sources.context = c ∧
      (∀ kind, ∀ id ∈ a.sources.batch kind, (id, kind) ∈ a.graph.arena.nodes.map Node.entry ↔
        a.sources.entries.find? (fun e => e.1 = id) = some (id, kind)) ∧
      (a.graph.arena.nodes.map Node.entry = a.sources.entries ↔ a.sources.allIds.Nodup) ∧
      ((∀ kind, a.graph.countOf kind = (a.sources.batch kind).length) ↔
        a.sources.allIds.Nodup) ∧
      (c.Distinct → a.sources.allIds.Nodup) := by
  obtain ⟨rfl, hfound, hbuilt, -⟩ := stages_of_make h
  have hnumbers := Graph.numbers_of_build hbuilt
  exact ⟨rfl, fun kind id _ => hnumbers.mem_iff id kind, hnumbers.nodes_iff, hnumbers.counts_iff,
    fun hc => hfound.nodup_allIds hc fun _ hid => hnumbers.exists_key hid⟩

private def firstDay : Moment := ⟨2024, 1, 2, 3, 4, 5, 0⟩

/-- The home page contains the cart. -/
private def kioskProject : Project :=
  ⟨[⟨.text "HomePage", .text "", .text "function", [⟨.text "onClick", .text "unknown", false⟩], [],
      [.text "Cart"], []⟩,
    ⟨.text "Cart", .text "", .text "function", [⟨.text "onClick", .text "unknown", false⟩], [], [],
      []⟩], [], []⟩

private def kioskContext : Context Number where
  stories := [⟨.text "pay", .text "Pay", .text "", .text "buyer", .text "high", .int 1, .text "",
    .text "", .text "simple", [.text "Cart"], [], .null⟩]
  capabilities := [⟨.text "sales", .text "Sales", .text "", [.text "pay"], [.text "Cart"],
    [.text "Order"], [], .text "core", .record []⟩]
  entities := ["Order", "Coupon"].map fun name => ⟨.text name, [], [], [], .text "", .null⟩
  rules := [⟨.text "limit", .text "", .text "workflow", [.text "Cart"], [.text "Order"], [], [],
    .null⟩]
  personas := [⟨.text "buyer", .text "Buyer", .text "", [], [], .null⟩]

private theorem distinct_kiosk : kioskContext.Distinct where
  separate := ⟨by decide +kernel,
    Context.apart_of_heads ["pay", "sales", "limit", "buyer"] rfl (by decide)⟩
  entities := by decide +kernel
  features := by decide +kernel

theorem numbers_make_kiosk : ∃ a, make .default firstDay false kioskProject kioskContext = .ok a ∧
    kioskContext.Distinct ∧ NodeKind.batches.map (fun kind => (a.sources.batch kind).length) =
      [1, 1, 2, 2, 2, 1, 1, 1] ∧
    a.graph.arena.nodes.map Node.entry = a.sources.entries ∧
    ∀ kind, a.graph.countOf kind = (a.sources.batch kind).length := by
  have hmade : ((make .default firstDay false kioskProject kioskContext).toOption.any fun a =>
      NodeKind.batches.map (fun kind => (a.sources.batch kind).length) ==
        [1, 1, 2, 2, 2, 1, 1, 1]) = true := by decide +kernel
  obtain ⟨a, ha, hsizes⟩ := exists_of_any hmade
  obtain ⟨-, -, hnodes, hcounts, hdistinct⟩ :=
    numbers_make .default firstDay false kioskProject kioskContext a ha
  have hids := hdistinct distinct_kiosk
  exact ⟨a, ha, distinct_kiosk, eq_of_beq hsizes, hnodes.mpr hids, hcounts.mpr hids⟩

/-- A story and a capability that both have the id `sales`. -/
private def salesContext : Context Number where
  stories := [⟨.text "sales", .text "Sell", .text "", .text "", .text "low", .int 1, .text "",
    .text "", .text "simple", [], [], .null⟩]
  capabilities := [⟨.text "sales", .text "Sales", .text "", [], [], [], [], .text "core", .record []⟩]
  entities := []
  rules := []
  personas := []

/-- Where a story has the id of a capability, the capability has no node and is not counted, although
no id comes twice among the stories, the capabilities, the rules or the personas. -/
theorem numbers_make_sales : ∃ a,
    make .default firstDay false ⟨[], [], []⟩ salesContext = .ok a ∧
      (salesContext.stories.map (·.id.key?)).Nodup ∧
      (salesContext.capabilities.map (·.id.key?)).Nodup ∧
      (salesContext.rules.map (·.id.key?)).Nodup ∧
      (salesContext.personas.map (·.id.key?)).Nodup ∧
      (salesContext.entities.map (·.name)).Nodup ∧
      some (.text "sales") ∈ a.sources.batch .capability ∧
      (some (.text "sales"), .capability) ∉ a.graph.arena.nodes.map Node.entry ∧
      a.graph.countOf .capability ≠ (a.sources.batch .capability).length := by
  have hmade : ((make .default firstDay false ⟨[], [], []⟩ salesContext).toOption.any fun a =>
      decide (some (.text "sales") ∈ a.sources.batch .capability) &&
      decide ((some (.text "sales"), .capability) ∉ a.graph.arena.nodes.map Node.entry) &&
      decide (a.graph.countOf .capability ≠ (a.sources.batch .capability).length)) = true := by
    decide +kernel
  obtain ⟨a, ha, hchecks⟩ := exists_of_any hmade
  simp only [Bool.and_eq_true, decide_eq_true_eq] at hchecks
  obtain ⟨⟨hbatch, hnode⟩, hcount⟩ := hchecks
  exact ⟨a, ha, by decide +kernel, by decide +kernel, List.nodup_nil, List.nodup_nil,
    List.nodup_nil, hbatch, hnode, hcount⟩

end Atlas

end BusinessAtlas
