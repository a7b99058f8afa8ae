import BusinessAtlas.Graph.Builder
import BusinessAtlas.Proofs.Graph.Offered
import BusinessAtlas.Proofs.Graph.Places
import BusinessAtlas.Proofs.Journey.Finite

/-!
# Finite graphs

A graph of finite sources is finite, and so is all that is exported of it. Every pass keeps this of
the graph: what it adds takes its numbers from the sources, or computes them from counts and from
numbers that are bounded.
-/

namespace BusinessAtlas

/-- The values that are shown of the node are finite. Its importance is whole or bounded, so that its
connections can be added. -/
structure Node.Bounded (k : Nat) (n : Node Number Json) : Prop where
  id : n.id.toJson.Finite
  label : n.label.Finite
  description : n.description.Finite
  data : n.data.toJson.Finite
  position : ∀ p, n.position = some p → p.Finite
  importance : n.metrics.importance.Tame k
  complexity : n.metrics.complexity.Finite
  value : n.metrics.value.Finite
  tags : ∀ v ∈ n.tags, v.Finite

/-- The values that are shown of the edge are finite. -/
structure Edge.Finite (e : Edge Number) : Prop where
  source : e.source.toJson.Finite
  target : e.target.toJson.Finite
  weight : e.weight.Finite
  note : e.note.toJson.Finite

/-- The values that are shown of the cluster are finite. -/
structure Cluster.Finite (c : Cluster Number) : Prop where
  nodes : ∀ i ∈ c.nodes, i.toJson.Finite
  value : c.value.Finite
  complexity : c.complexity.Finite
  completeness : c.completeness.Finite

/-- The values that are shown of the graph are finite. -/
structure Graph.Bounded (k : Nat) (g : Graph Number Json) : Prop where
  title : g.title.Finite
  description : g.description.Finite
  nodes : ∀ n ∈ g.arena.nodes, n.Bounded k
  edges : ∀ e ∈ g.arena.edges, e.Finite
  clusters : ∀ c ∈ g.clusters, c.Finite
  averageConnectivity : g.statistics.averageConnectivity.Finite
  density : g.statistics.density.Finite

/-- What a graph is built from is finite, no story is too sure or too unsure, and no list is longer
than any list can be. -/
structure Graph.Sources.Bounded (s : Graph.Sources Number) : Prop where
  context : s.context.Finite
  confidence : ∀ x ∈ s.context.stories, x.confidence.Below 800
  features : s.features.Finite
  domains : ∀ d ∈ s.features.domains, d.features.length < 2 ^ 60
  journeys : ∀ j ∈ s.journeys.journeys, j.Finite
  journeyCount : s.journeys.journeys.length < 2 ^ 60

section

private theorem finite_tagged {tags : List Json} (h : ∀ v ∈ tags, v.Finite) :
    ∀ v ∈ tagged tags, v.Finite := fun v hv => h v (List.mem_of_mem_filter hv)

private theorem below_importance {x : Story Number} (h : x.confidence.Below 800) :
    Yields x.importance (Number.Below 820) := by
  have hbonus : Yields (x.priority.choose [("critical", 30), ("high", 20), ("medium", 10)] 0)
      fun bonus => bonus ≤ 30 := Json.yields_choose (by decide) (by decide)
  refine Yields.bind hbonus fun bonus hbonus => yields_ok ?_
  have hbase : Number.Below 7 (.int (50 + bonus : Nat)) := Number.below_nat (by omega)
  have htwenty : Number.Below 5 (.int 20) := by decide
  have hhundred : Number.Below 7 (.int topImportance) := by decide
  have hsure := h.mul (by decide) htwenty
  exact ((hbase.mono (by decide)).add (by decide) hsure).cap (hhundred.mono (by decide))

private theorem bounded_ofStory {x : Story Number} (hx : x.Finite) (h : x.confidence.Below 800) :
    Yields (Node.ofStory x) (Node.Bounded 820) := by
  refine Yields.bind (below_importance h) fun importance himportance => ?_
  refine Yields.bind (yields_true _) fun complexity _ => ?_
  refine Yields.bind (yields_true _) fun value _ => ?_
  refine Yields.bind (yields_true _) fun color _ => ?_
  refine Yields.bind hx.id.asIdent fun i hi => yields_ok ?_
  exact ⟨hi, hx.title, hx.description, hx.raw, nofun, himportance.tame, trivial, trivial,
    finite_tagged (by simpa using ⟨hx.kind, hx.priority, hx.capability⟩)⟩

private theorem bounded_ofCapability {x : Capability} (hx : x.Finite) :
    Yields (Node.ofCapability x) (Node.Bounded 820) := by
  refine Yields.bind (yields_true _) fun importance _ => ?_
  refine Yields.bind (yields_true _) fun value _ => ?_
  refine Yields.bind (yields_true _) fun color _ => ?_
  refine Yields.bind hx.id.asIdent fun i hi => yields_ok ?_
  exact ⟨hi, hx.name, hx.description, hx.raw, nofun, trivial, trivial, trivial,
    finite_tagged (by simpa using hx.value)⟩

private theorem bounded_ofFeature {f : Feature Number} (h : f.Finite) :
    (Node.ofFeature f).Bounded 820 :=
  ⟨Json.finite_text _, h.name, h.description, h.toJson, nofun, trivial, trivial, trivial,
    List.forall_mem_singleton.mpr (Json.finite_text _)⟩

private theorem bounded_ofMapping {m : Mapping} (h : m.Finite) : (Node.ofMapping m).Bounded 820 :=
  ⟨Json.finite_text _, Json.finite_text _, Json.finite_text _, h.toJson, nofun, trivial, trivial,
    trivial, finite_tagged (List.forall_mem_singleton.mpr (Json.finite_text _))⟩

private theorem bounded_ofEntity {e : Entity} (h : e.Finite) : (Node.ofEntity e).Bounded 820 :=
  ⟨Json.finite_text _, h.name, h.purpose, h.raw, nofun, trivial, trivial, trivial,
    List.forall_mem_singleton.mpr (Json.finite_text _)⟩

private theorem bounded_ofJourney {j : Journey Number} (h : j.Finite) :
    (Node.ofJourney j).Bounded 820 := by
  have hten : Number.Below 4 (.int 10) := by decide
  exact ⟨Json.finite_text _, Json.finite_text _, Json.finite_text? _, h.toJson, nofun, trivial,
    (h.complexity.mul (by decide) hten).finite, trivial, finite_tagged (by simp)⟩

private theorem bounded_ofRule {x : Rule} (hx : x.Finite) :
    Yields (Node.ofRule x) (Node.Bounded 820) := by
  refine Yields.bind (yields_true _) fun affected _ => ?_
  refine Yields.bind (yields_true _) fun importance _ => ?_
  refine Yields.bind hx.id.asIdent fun i hi => yields_ok ?_
  exact ⟨hi, hx.description, Json.finite_text _, hx.raw, nofun, trivial, trivial, trivial,
    finite_tagged (List.forall_mem_singleton.mpr hx.category)⟩

private theorem bounded_ofPersona {x : Persona} (hx : x.Finite) :
    Yields (Node.ofPersona x) (Node.Bounded 820) := by
  refine Yields.bind hx.id.asIdent fun i hi => yields_ok ?_
  exact ⟨hi, hx.name, hx.description, hx.raw, nofun, trivial, trivial, trivial,
    List.forall_mem_singleton.mpr (Json.finite_text _)⟩

end

section

private theorem finite_note {n : EdgeNote Number} (h : ∀ c, n = .confidence c → c.Finite) :
    n.toJson.Finite := by
  cases n with
  | confidence c => exact Json.finite_record.mpr (by simpa using h c rfl)
  | _ => simp [EdgeNote.toJson]

private theorem finite_flowEdge (f : FlowEdge) : (f.edge : Edge Number).Finite := by
  have hweight : (f.criticality.weight : Number).Finite := by
    cases f.criticality with
    | critical => exact Number.finite_tenths (m := 10) (by decide)
    | high => exact Number.finite_tenths (m := 8) (by decide)
    | medium => exact Number.finite_tenths (m := 5) (by decide)
    | low => exact Number.finite_tenths (m := 3) (by decide)
    | other name => exact Number.finite_tenths (m := 3) (by decide)
  exact ⟨Json.finite_text _, Json.finite_text _, hweight, finite_note nofun⟩

end

section

private theorem finite_present {a : Arena Number Json} {ids : List Ident}
    (h : ∀ i ∈ ids, i.toJson.Finite) : ∀ i ∈ a.present ids, i.toJson.Finite :=
  fun i hi => h i (List.mem_of_mem_filter hi)

private theorem finite_texts {κ : Type} {ident : κ → Ident} (h : ∀ x, ∃ s, ident x = .text s)
    (xs : List κ) : ∀ i ∈ xs.map ident, i.toJson.Finite := by
  intro i hi
  obtain ⟨x, -, rfl⟩ := List.mem_map.mp hi
  obtain ⟨s, hs⟩ := h x
  rw [hs]
  exact Json.finite_text s

private theorem finite_domainCluster {a : Arena Number Json} {d : Domain}
    (hlength : d.features.length < 2 ^ 60) {c : Cluster Number} (h : d.cluster a = some c) :
    c.Finite := by
  have hten : Number.Below 64 ((Number.int d.features.length).div (.int 10)) :=
    Number.below_div_int (k := 60) (m := d.features.length) (n := 10) (by decide) (by decide)
      (by omega)
  have hhundred : Number.Below 7 (.int 100) := by decide
  unfold Domain.cluster at h
  dsimp only at h
  split at h
  · cases h
  · cases h
    refine ⟨List.forall_mem_append.mpr ⟨?_, ?_⟩, trivial, trivial,
      (hten.mul (by decide) hhundred).finite⟩
    · exact finite_present (finite_texts (fun name => ⟨name, rfl⟩) _)
    · exact finite_present (finite_texts (fun name => ⟨_, rfl⟩) _)

private theorem finite_featureCluster {threshold : Json} {a : Arena Number Json} {f : Feature Number}
    (hf : f.Finite) : Yields (f.cluster threshold a) fun o => ∀ c, o = some c → c.Finite := by
  have hnodes : Yields (f.clusterNodes a) fun is => ∀ i ∈ is, i.toJson.Finite := by
    refine Yields.bind (yields_mapM fun v hv => (hf.stories v hv).asIdent) fun stories hstories => ?_
    refine yields_ok (List.forall_mem_append.mpr ⟨?_, ?_⟩)
    · exact List.forall_mem_cons.mpr ⟨Json.finite_text _, finite_present hstories⟩
    · exact finite_present (finite_texts (fun name => ⟨_, rfl⟩) _)
  refine Yields.bind hnodes fun nodes hnodes => ?_
  split
  · exact yields_ok nofun
  · refine Yields.bind (yields_true _) fun collapsed _ => yields_ok ?_
    rintro c ⟨⟩
    exact ⟨hnodes, trivial, trivial, trivial⟩

private theorem finite_personaClusters {journeys : List (Journey Number)}
    (h : ∀ j ∈ journeys, j.Finite) (hlength : journeys.length < 2 ^ 60) :
    ∀ c ∈ personaClusters journeys, c.Finite := by
  intro c hc
  obtain ⟨⟨persona, members⟩, hgroup, rfl⟩ := List.mem_map.mp hc
  have hgrouped := List.mem_of_mem_filter hgroup
  have hmembers : ∀ j ∈ members, j ∈ journeys := by
    intro j hj
    obtain ⟨k, hk, heq⟩ := List.mem_map.mp ((of_mem_grouped hgrouped).2 j hj)
    cases heq
    exact hk
  have hle : members.length ≤ journeys.length := by
    have hall := length_le_of_mem_grouped hgrouped
    rwa [List.length_map] at hall
  have hsum : Number.Below (76 + 64) (Scalar.sum (members.map (·.metrics.complexity))) := by
    refine Number.below_sum (by decide) (by rw [List.length_map]; omega) fun x hx => ?_
    obtain ⟨j, hj, rfl⟩ := List.mem_map.mp hx
    exact (h j (hmembers j hj)).complexity
  have hsome : members.length ≠ 0 := fun hnone =>
    (of_mem_grouped hgrouped).1 (List.length_eq_zero_iff.mp hnone)
  have hten : Number.Below 4 (.int 10) := by decide
  have hpart := hsum.div (by decide) hsome (by omega)
  exact ⟨finite_texts (fun j : Journey Number => ⟨j.id, rfl⟩) members, trivial,
    (hpart.mul (by decide) hten).finite, trivial⟩

end

namespace Graph

variable {k : Nat} {s : Sources Number} {g : Graph Number Json}

section

variable {ι : Type} {items : List ι}

private theorem keeps_addClusters
    {cluster : Arena Number Json → ι → Except Fault (Option (Cluster Number))}
    (h : ∀ x ∈ items, ∀ a, Yields (cluster a x) fun o => ∀ c, o = some c → c.Finite) :
    Progress.Keeps (Graph.Bounded k) (addClusters cluster items) := by
  refine Progress.keeps_each items fun x hx g hg => ?_
  refine Yields.bind (h x hx g.arena) fun o ho => ?_
  cases o with
  | none => exact yields_ok hg
  | some c =>
    refine yields_ok ⟨hg.title, hg.description, hg.nodes, hg.edges, ?_, hg.averageConnectivity,
      hg.density⟩
    exact List.forall_mem_append.mpr ⟨hg.clusters, List.forall_mem_singleton.mpr (ho c rfl)⟩

end

private theorem Sources.MakesNode.bounded (hs : s.Bounded) {n : Node Number Json}
    (h : s.MakesNode n) : n.Bounded 820 := by
  cases h with
  | story hx hn => exact bounded_ofStory (hs.context.stories _ hx) (hs.confidence _ hx) n hn
  | capability hx hn => exact bounded_ofCapability (hs.context.capabilities _ hx) n hn
  | feature hf => exact bounded_ofFeature (hs.features.features _ hf)
  | component hm => exact bounded_ofMapping (hs.features.mappings _ hm)
  | entity he => exact bounded_ofEntity (hs.context.entities _ he)
  | journey hj => exact bounded_ofJourney (hs.journeys _ hj)
  | rule hx hn => exact bounded_ofRule (hs.context.rules _ hx) n hn
  | persona hx hn => exact bounded_ofPersona (hs.context.personas _ hx) n hn

private theorem Sources.DrawsEdge.finite (hs : s.Bounded) {e : Edge Number} (h : s.DrawsEdge e) :
    e.Finite := by
  cases h with
  | @story x _ hx h =>
    have hid := (hs.context.stories x hx).id.asIdent
    cases h with
    | @belongsTo c i j hc hi hj =>
      have hcapability := hs.context.capabilities c (List.mem_of_find?_eq_some hc)
      refine ⟨hid i hi, hcapability.id.asIdent j hj, Number.finite_tenths (m := 8) (by decide), ?_⟩
      exact finite_note fun _ hnote => EdgeNote.confidence.inj hnote ▸ (hs.confidence x hx).finite
    | @implements name i _ hi =>
      exact ⟨hid i hi, Json.finite_text _, Number.finite_tenths (m := 7) (by decide),
        finite_note nofun⟩
  | @capability c _ hc h =>
    obtain @⟨name, i, -, hi⟩ := h
    exact ⟨(hs.context.capabilities c hc).id.asIdent i hi, Json.finite_text _,
      Number.finite_tenths (m := 6) (by decide), finite_note nofun⟩
  | relationship hr h =>
    obtain ⟨-⟩ := h
    exact ⟨Json.finite_text _, Json.finite_text _, hs.features.relationships _ hr,
      finite_note nofun⟩
  | feature _ h =>
    obtain ⟨name, -, rfl⟩ := List.mem_map.mp h
    exact ⟨Json.finite_text _, Json.finite_text _, Number.finite_tenths (m := 7) (by decide),
      finite_note nofun⟩
  | journeyRelationship _ h =>
    obtain ⟨-⟩ := h
    exact ⟨Json.finite_text _, Json.finite_text _, Number.finite_tenths (m := 6) (by decide),
      finite_note nofun⟩
  | journey _ h =>
    obtain ⟨name, -, rfl⟩ := List.mem_map.mp h
    exact ⟨Json.finite_text _, Json.finite_text _, Number.finite_tenths (m := 5) (by decide),
      finite_note nofun⟩
  | flow => exact finite_flowEdge _
  | @rule r _ hr h =>
    have hid := (hs.context.rules r hr).id.asIdent
    cases h with
    | @validates name i _ hi =>
      exact ⟨hid i hi, Json.finite_text _, Number.finite_tenths (m := 7) (by decide),
        finite_note nofun⟩
    | @enforces name i _ hi =>
      exact ⟨hid i hi, Json.finite_text _, Number.finite_tenths (m := 8) (by decide),
        finite_note nofun⟩

private theorem Bounded.takeAll {arena : Arena Number Json} {offers : List (Offer Number Json)}
    (hg : g.Bounded k) (harena : arena = g.arena.takeAll offers)
    (hnodes : ∀ n, .node n ∈ offers → n.Bounded k) (hedges : ∀ e, .edge e ∈ offers → e.Finite) :
    (g.inArena fun _ => arena).Bounded k := by
  obtain ⟨hmade, hdrawn⟩ := g.arena.mem_takeAll offers
  rw [harena]
  exact ⟨hg.title, hg.description, fun n hn => (hmade n hn).elim (hg.nodes n) (hnodes n),
    fun e he => (hdrawn e he).elim (hg.edges e) (hedges e), hg.clusters, hg.averageConnectivity,
    hg.density⟩

private theorem keeps_addAllNodes (hs : s.Bounded) :
    Progress.Keeps (Graph.Bounded 820) (addAllNodes s) := by
  intro g g' hg h
  obtain ⟨ns, hoffered, hmakes⟩ := offers_makes s g g' h
  obtain ⟨arena, rfl⟩ := confined_addAllNodes s g g g' ⟨g.arena, rfl⟩ h
  refine hg.takeAll hoffered (fun n hn => ?_) (by simp)
  exact (hmakes n (by simpa using hn)).bounded hs

private theorem keeps_addAllEdges (hs : s.Bounded) :
    Progress.Keeps (Graph.Bounded k) (addAllEdges s) := by
  intro g g' hg h
  obtain ⟨es, hoffered, hdraws⟩ := offers_draws s g g' h
  obtain ⟨arena, rfl⟩ := confined_addAllEdges s g g g' ⟨g.arena, rfl⟩ h
  refine hg.takeAll hoffered (by simp) fun e he => ?_
  exact ((hdraws e).mp (by simpa using he)).finite hs

private theorem bounded_addAllClusters (threshold : Json) (hs : s.Bounded) :
    Progress.Keeps (Graph.Bounded k) (addAllClusters threshold s) := by
  have hdomains : Progress.Keeps (Graph.Bounded k) (clusterDomains s.features.domains) :=
    keeps_addClusters fun d hd _ => yields_ok fun _ hc => finite_domainCluster (hs.domains d hd) hc
  have hfeatures : Progress.Keeps (Graph.Bounded k) (clusterFeatures threshold s.features.features) :=
    keeps_addClusters fun f hf _ => finite_featureCluster (hs.features.features f hf)
  refine (hdomains.andThen hfeatures).andThen (Progress.keeps_done fun g hg => ?_)
  exact ⟨hg.title, hg.description, hg.nodes, hg.edges,
    List.forall_mem_append.mpr ⟨hg.clusters, finite_personaClusters hs.journeys hs.journeyCount⟩,
    hg.averageConnectivity, hg.density⟩

private theorem length_connect (g : Graph Number Json) :
    g.connect.arena.nodes.length = g.arena.nodes.length := List.length_map _

private theorem degree_le (a : Arena Number Json) (key : Key) : a.degree key ≤ 2 * a.edges.length := by
  have hsource := List.countP_le_length (p := fun e : Edge Number => e.source.key == key) (l := a.edges)
  have htarget := List.countP_le_length (p := fun e : Edge Number => e.target.key == key) (l := a.edges)
  unfold Arena.degree
  omega

private theorem Bounded.connect (hk : 62 ≤ k) (hk' : k ≤ 960) (hg : g.Bounded k)
    (hedges : g.arena.edges.length < 2 ^ 60) : g.connect.Bounded (k + 6) := by
  refine ⟨hg.title, hg.description, fun n hn => ?_, hg.edges, hg.clusters, hg.averageConnectivity,
    hg.density⟩
  obtain ⟨m, hm, rfl⟩ := List.mem_map.mp hn
  have hfinite := hg.nodes m hm
  have hdegree := degree_le g.arena m.id.key
  exact ⟨hfinite.id, hfinite.label, hfinite.description, hfinite.data, hfinite.position,
    (hfinite.importance.add_count hk hk' (by omega)).cap, hfinite.complexity, hfinite.value,
    hfinite.tags⟩

private theorem finite_averageConnectivity (hedges : g.arena.edges.length < 2 ^ 60)
    (h : g.statistics.averageConnectivity.Finite) :
    g.connect.counted.averageConnectivity.Finite := by
  unfold counted
  dsimp only
  split
  · exact h
  · next hsome =>
    have htotal : totalOf (g.connect.arena.nodes.map (·.metrics.connectivity)) ≤
        2 * g.arena.edges.length * g.connect.arena.nodes.length := by
      refine totalOf_map_le fun n hn => ?_
      obtain ⟨m, -, rfl⟩ := List.mem_map.mp hn
      exact degree_le g.arena m.id.key
    have hlength : g.connect.arena.nodes.length ≠ 0 := by simpa using hsome
    refine (Number.below_div_int (k := 61) (by decide) hlength (Nat.lt_of_le_of_lt htotal ?_)).finite
    exact Nat.mul_lt_mul_of_pos_right (by omega) (Nat.pos_of_ne_zero hlength)

private theorem finite_densityOf {nodes edges : Nat} (hnodes : nodes < 2 ^ 60)
    (hedges : edges < 2 ^ 60) : (densityOf nodes edges : Number).Finite := by
  unfold densityOf
  split
  · exact Number.finite_tenths (m := 0) (by decide)
  · next hmany =>
    have hpairs : 2 ≤ nodes * (nodes - 1) := by
      have hle : 2 * 1 ≤ nodes * (nodes - 1) := Nat.mul_le_mul (by omega) (by omega)
      omega
    have hfew : nodes * (nodes - 1) < 2 ^ 120 * 2 := by
      have hlt : nodes * (nodes - 1) < 2 ^ 60 * 2 ^ 60 := Nat.mul_lt_mul'' hnodes (by omega)
      omega
    have hone : Binary64.OneLe (Binary64.ofQuotient (nodes * (nodes - 1) : Nat) 2) :=
      Binary64.oneLe_ofQuotient (by decide) (by decide) hfew hpairs
    exact ((Number.below_nat hedges).div_oneLe (by decide) hone).finite

private theorem Bounded.takeStatistics (hg : g.connect.Bounded k)
    (hnodes : g.arena.nodes.length < 2 ^ 60) (hedges : g.arena.edges.length < 2 ^ 60) :
    g.connect.takeStatistics.Bounded k := by
  have hlength : g.connect.arena.nodes.length < 2 ^ 60 := g.length_connect ▸ hnodes
  exact ⟨hg.title, hg.description, hg.nodes, hg.edges, hg.clusters,
    finite_averageConnectivity hedges hg.averageConnectivity,
    finite_densityOf hlength hedges⟩

private theorem Bounded.place {l : Layout Json} (hl : l.Bounded 800) {g' : Graph Number Json}
    (hg : g.Bounded k) (hnodes : g.arena.nodes.length < 2 ^ 60) (h : place l g = .done g') :
    g'.Bounded k := by
  have hkeeps : Progress.Keeps
      (fun t : Graph Number Json => t.Bounded k ∧ t.arena.nodes.length < 2 ^ 60)
      (Graph.place l) := by
    refine Progress.keeps_each (List.range NodeKind.levels) fun level hlevel t ht => ?_
    have hplaced : Yields (l.placeLevel t.arena.nodes level) fun ns =>
        ∀ n ∈ ns, n.Bounded k :=
      hl.placeLevel (fun n hn p hp => ⟨hn.id, hn.label, hn.description, hn.data,
        fun q hq => Option.some.inj hq ▸ hp, hn.importance, hn.complexity, hn.value, hn.tags⟩)
        (List.mem_range.mp hlevel) ht.2 ht.1.nodes
    intro t' ht'
    obtain ⟨ns, hns, ht'⟩ := bind_eq_ok.mp ht'
    cases ht'
    have hlength := congrArg List.length (Layout.typedKeys_placeLevel hns)
    rw [List.length_map, List.length_map] at hlength
    exact ⟨⟨ht.1.title, ht.1.description, hplaced ns hns, ht.1.edges, ht.1.clusters,
      ht.1.averageConnectivity, ht.1.density⟩, hlength ▸ ht.2⟩
  exact (hkeeps g g' ⟨hg, hnodes⟩ h).1

/-- The graph that is built of finite sources is finite. -/
theorem bounded_of_build {settings : GraphSettings Json} {now : Moment} (hs : s.Bounded)
    (htitle : settings.title.Finite) (hdescription : settings.description.Finite)
    (hlayout : settings.layout.Bounded 800) (h : build settings now s = .done g)
    (hnodes : g.arena.nodes.length < 2 ^ 60) (hedges : g.arena.edges.length < 2 ^ 60) :
    g.Bounded 826 := by
  have hzero : (Scalar.decimal 0 1 : Number).Finite :=
    Number.finite_tenths (m := 0) (by decide)
  have hstart : (start settings now : Graph Number Json).Bounded 820 :=
    ⟨htitle, hdescription, List.forall_mem_nil _, List.forall_mem_nil _, List.forall_mem_nil _, hzero,
      hzero⟩
  have hstages := ((keeps_addAllNodes hs).andThen (keeps_addAllEdges hs)).andThen
    (bounded_addAllClusters settings.collapseThreshold hs)
  obtain ⟨g₃, h₃, hplace⟩ := Progress.andThen_eq_done.mp h
  have hbefore := hstages (start settings now) g₃ hstart h₃
  obtain ⟨hkeys, hsame⟩ := leaves_place settings.layout g₃.connect.takeStatistics g hplace
  have hlength : g.arena.nodes.length = g₃.connect.arena.nodes.length := by
    have hlengths := congrArg List.length hkeys
    rwa [Arena.typedKeys, Arena.typedKeys, List.length_map, List.length_map] at hlengths
  have hedges : g₃.arena.edges.length < 2 ^ 60 := congrArg List.length hsame ▸ hedges
  have hnodes : g₃.connect.arena.nodes.length < 2 ^ 60 := hlength ▸ hnodes
  have hlinked := hbefore.connect (by decide) (by decide) hedges
  exact (hlinked.takeStatistics (g₃.length_connect ▸ hnodes) hedges).place hlayout hnodes hplace

end Graph

section

variable {k : Nat} {metadata positions : Bool}

theorem Node.Bounded.metrics {n : Node Number Json} (h : n.Bounded k) : n.metrics.toJson.Finite := by
  simpa [NodeMetrics.toJson] using ⟨h.importance.finite, h.complexity, h.value⟩

private theorem Node.Bounded.positionField {n : Node Number Json} (h : n.Bounded k) :
    ∀ f ∈ n.positionField positions, f.2.Finite := by
  intro f hf
  simp only [Node.positionField, Node.shownPosition, Option.mem_toList, Option.map_eq_some_iff,
    Option.ite_none_right_eq_some] at hf
  obtain ⟨p, ⟨-, hp⟩, rfl⟩ := hf
  have hplace := h.position p hp
  simpa [Position.toJson] using ⟨hplace.x, hplace.y⟩

private theorem Node.Bounded.toRecord {n : Node Number Json} (h : n.Bounded k) :
    (n.toRecord metadata positions).Finite := by
  refine Json.finite_record.mpr (List.forall_mem_append.mpr ⟨List.forall_mem_append.mpr ⟨?_,
    forall_when ?_⟩, h.positionField⟩)
  · simpa using ⟨h.id, h.label, h.description, h.tags⟩
  · simpa using ⟨h.data, h.metrics⟩

private theorem Node.Bounded.toElement {n : Node Number Json} (h : n.Bounded k) :
    (n.toElement metadata positions).Finite := by
  have hdata : (Json.record ([("id", n.id.toJson), ("label", n.label), ("type", .text n.kind.name)] ++
      when metadata [("metrics", n.metrics.toJson)])).Finite := by
    refine Json.finite_record.mpr (List.forall_mem_append.mpr ⟨?_, forall_when ?_⟩)
    · simpa using ⟨h.id, h.label⟩
    · simpa using h.metrics
  refine Json.finite_record.mpr (List.forall_mem_append.mpr ⟨?_, h.positionField⟩)
  exact List.forall_mem_cons.mpr ⟨hdata, by simp⟩

private theorem Node.Bounded.toPoint {n : Node Number Json} (h : n.Bounded k) :
    (n.toPoint positions).Finite := by
  have hsize : n.size.Finite := by
    unfold Node.size
    split
    · trivial
    · exact h.importance.finite
  refine Json.finite_record.mpr (List.forall_mem_append.mpr ⟨?_, ?_⟩)
  · simpa using ⟨h.id, h.label, hsize⟩
  · cases hp : n.shownPosition positions with
    | none => exact nofun
    | some p =>
      simp only [Node.shownPosition, Option.ite_none_right_eq_some] at hp
      have hplace := h.position p hp.2
      simpa using ⟨hplace.x, hplace.y⟩

private theorem Edge.Finite.toJson {e : Edge Number} (h : e.Finite) : e.toJson.Finite := by
  have hstyle : e.style.toJson.Finite := by
    obtain ⟨width, color, dashed, animated⟩ := e.style
    cases width <;> cases color <;> cases dashed <;> cases animated <;> simp [EdgeStyle.toJson]
  simpa [Edge.toJson] using ⟨h.source, h.target, h.weight, h.note, hstyle⟩

private theorem Edge.Finite.toElement {e : Edge Number} (h : e.Finite) : e.toElement.Finite := by
  simpa [Edge.toElement] using ⟨h.source, h.target, h.weight⟩

private theorem Edge.Finite.toLink {e : Edge Number} (h : e.Finite) : e.toLink.Finite := by
  simpa [Edge.toLink] using ⟨h.source, h.target, h.weight⟩

private theorem Cluster.Finite.toJson {c : Cluster Number} (h : c.Finite) : c.toJson.Finite := by
  simpa [Cluster.toJson] using ⟨h.nodes, h.value, h.complexity, h.completeness⟩

private theorem finite_counts {κ : Type} (name : κ → String) (counts : List (κ × Nat)) :
    (Json.record (counts.map fun c => (name c.1, .nat c.2))).Finite := by
  refine Json.finite_record.mpr fun f hf => ?_
  obtain ⟨c, -, rfl⟩ := List.mem_map.mp hf
  exact Json.finite_nat _

private theorem finite_viewOptions : viewOptions.Finite := by
  simp [viewOptions, Json.int, Number.Finite]

private theorem finite_legend : legend.Finite := by
  refine Json.finite_list.mpr (List.forall_mem_append.mpr ⟨fun v hv => ?_, fun v hv => ?_⟩)
  · obtain ⟨k, -, rfl⟩ := List.mem_map.mp hv
    simp
  · obtain ⟨k, -, rfl⟩ := List.mem_map.mp hv
    simp

namespace Graph

variable {g : Graph Number Json}

private theorem Bounded.about (h : g.Bounded k) : g.about.Finite := by
  have hstatistics : g.statistics.toJson.Finite := by
    refine Json.finite_record.mpr ?_
    simp only [List.forall_mem_cons]
    exact ⟨Json.finite_nat _, Json.finite_nat _, finite_counts _ _, finite_counts _ _,
      Json.finite_number.mpr h.averageConnectivity, Json.finite_number.mpr h.density,
      Json.finite_nat _, Json.finite_nat _, List.forall_mem_nil _⟩
  refine Json.finite_record.mpr ?_
  simp only [List.forall_mem_cons]
  exact ⟨h.title, h.description, Json.finite_text _, hstatistics, finite_viewOptions, finite_legend,
    List.forall_mem_nil _⟩

/-- All that is exported of a finite graph is finite. -/
theorem Bounded.exported (h : g.Bounded k) (format : ExportFormat) :
    (g.exported format metadata positions).Finite := by
  cases format with
  | json =>
    have hnodes : ∀ n ∈ g.arena.nodes, (n.toRecord metadata positions).Finite :=
      fun n hn => (h.nodes n hn).toRecord
    have hedges : ∀ e ∈ g.arena.edges, e.toJson.Finite := fun e he => (h.edges e he).toJson
    have hclusters : ∀ c ∈ g.clusters, c.toJson.Finite := fun c hc => (h.clusters c hc).toJson
    refine Json.finite_record.mpr (List.forall_mem_append.mpr ⟨?_, forall_when ?_⟩)
    · simpa using ⟨hnodes, hedges⟩
    · simpa using ⟨hclusters, h.about⟩
  | cytoscape =>
    have hnodes : ∀ n ∈ g.arena.nodes, (n.toElement metadata positions).Finite :=
      fun n hn => (h.nodes n hn).toElement
    have hedges : ∀ e ∈ g.arena.edges, e.toElement.Finite := fun e he => (h.edges e he).toElement
    simpa [Graph.exported, Graph.toElements, or_imp, forall_and] using ⟨hnodes, hedges⟩
  | d3 =>
    have hnodes : ∀ n ∈ g.arena.nodes, (n.toPoint positions).Finite :=
      fun n hn => (h.nodes n hn).toPoint
    have hedges : ∀ e ∈ g.arena.edges, e.toLink.Finite := fun e he => (h.edges e he).toLink
    simpa [Graph.exported, Graph.toLinks] using ⟨hnodes, hedges⟩

end Graph

end

end BusinessAtlas
