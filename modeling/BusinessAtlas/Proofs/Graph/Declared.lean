import BusinessAtlas.Proofs.Graph.Offered

/-!
# The nodes and edges of a built graph

What a project declares decides the graph: it has a node for every declared id and no other, and an
edge for every declared key whose ends are nodes and no other. Repeated ids and names change nothing.
-/

namespace BusinessAtlas

variable {α β : Type}

/-- The ids of the requirements. -/
def Context.ids (c : Context α) : List Json :=
  c.stories.map (·.id) ++ c.capabilities.map (·.id) ++ c.rules.map (·.id) ++ c.personas.map (·.id)

namespace Graph.Sources

/-- The ids that the sources declare. -/
inductive DeclaresNode (s : Sources α) : Key → Prop where
  | story {x k} : x ∈ s.context.stories → x.id.key? = some k → DeclaresNode s k
  | capability {x k} : x ∈ s.context.capabilities → x.id.key? = some k → DeclaresNode s k
  | feature {x} : x ∈ s.features.features → DeclaresNode s (.text x.id)
  | component {x} : x ∈ s.features.mappings → DeclaresNode s (.text ("component-" ++ x.name))
  | entity {x} : x ∈ s.context.entities → DeclaresNode s (.text ("entity-" ++ x.name.shown))
  | journey {x} : x ∈ s.journeys.journeys → DeclaresNode s (.text x.id)
  | rule {x k} : x ∈ s.context.rules → x.id.key? = some k → DeclaresNode s k
  | persona {x k} : x ∈ s.context.personas → x.id.key? = some k → DeclaresNode s k

/-- The ids that the sources declare for things of each kind. -/
def DeclaresAs (s : Sources α) : Key × NodeKind → Prop
  | (k, .story) => ∃ x ∈ s.context.stories, x.id.key? = some k
  | (k, .capability) => ∃ x ∈ s.context.capabilities, x.id.key? = some k
  | (k, .feature) => ∃ x ∈ s.features.features, .text x.id = k
  | (k, .component) => ∃ x ∈ s.features.mappings, .text ("component-" ++ x.name) = k
  | (k, .entity) => ∃ x ∈ s.context.entities, .text ("entity-" ++ x.name.shown) = k
  | (k, .journey) => ∃ x ∈ s.journeys.journeys, .text x.id = k
  | (k, .rule) => ∃ x ∈ s.context.rules, x.id.key? = some k
  | (k, .persona) => ∃ x ∈ s.context.personas, x.id.key? = some k
  | (_, .endpoint) | (_, .integration) => False

theorem declaresNode_iff {s : Sources α} {k : Key} :
    s.DeclaresNode k ↔ ∃ kind, s.DeclaresAs (k, kind) := by
  constructor
  · intro h
    cases h with
    | story hx hk => exact ⟨.story, _, hx, hk⟩
    | capability hx hk => exact ⟨.capability, _, hx, hk⟩
    | feature hx => exact ⟨.feature, _, hx, rfl⟩
    | component hx => exact ⟨.component, _, hx, rfl⟩
    | entity hx => exact ⟨.entity, _, hx, rfl⟩
    | journey hx => exact ⟨.journey, _, hx, rfl⟩
    | rule hx hk => exact ⟨.rule, _, hx, hk⟩
    | persona hx hk => exact ⟨.persona, _, hx, hk⟩
  · rintro ⟨kind, h⟩
    cases kind with
    | story => obtain ⟨x, hx, hk⟩ := h; exact .story hx hk
    | capability => obtain ⟨x, hx, hk⟩ := h; exact .capability hx hk
    | feature => obtain ⟨x, hx, rfl⟩ := h; exact .feature hx
    | component => obtain ⟨x, hx, rfl⟩ := h; exact .component hx
    | entity => obtain ⟨x, hx, rfl⟩ := h; exact .entity hx
    | journey => obtain ⟨x, hx, rfl⟩ := h; exact .journey hx
    | rule => obtain ⟨x, hx, hk⟩ := h; exact .rule hx hk
    | persona => obtain ⟨x, hx, hk⟩ := h; exact .persona hx hk
    | endpoint => exact h.elim
    | integration => exact h.elim

/-- The keys of the edges that the sources declare, whether or not their ends are declared. -/
inductive DeclaresEdge (s : Sources α) : EdgeKey → Prop where
  /-- A story belongs to the first capability that lists it. -/
  | belongsTo {x c k l} : x ∈ s.context.stories →
    (s.context.capabilities.find? fun c => x.id.isAmong c.stories) = some c →
    x.id.key? = some k → c.id.key? = some l → DeclaresEdge s ⟨k, l, .belongsTo⟩
  /-- A story is implemented by its components. -/
  | implements {x name k} : x ∈ s.context.stories → name ∈ x.components → x.id.key? = some k →
    DeclaresEdge s ⟨k, .text ("component-" ++ name.shown), .implements⟩
  /-- A capability uses its entities. -/
  | usesEntity {x name k} : x ∈ s.context.capabilities → name ∈ x.entities → x.id.key? = some k →
    DeclaresEdge s ⟨k, .text ("entity-" ++ name.shown), .uses⟩
  /-- Features relate in the way that their relationship is drawn. -/
  | featuresRelate {r kind} : r ∈ s.features.relationships → r.kind.edge = .ok kind →
    DeclaresEdge s ⟨.text r.source, .text r.target, kind⟩
  /-- A feature uses the components that it owns. -/
  | owns {x name} : x ∈ s.features.features → name ∈ x.componentNames →
    DeclaresEdge s ⟨.text x.id, .text ("component-" ++ name), .uses⟩
  /-- Journeys relate in the way that their relationship is drawn. -/
  | journeysRelate {r kind} : r ∈ s.journeys.relationships → r.kind.edge = .ok kind →
    DeclaresEdge s ⟨.text r.source, .text r.target, kind⟩
  /-- A journey uses the components of its steps. -/
  | traverses {x step} : x ∈ s.journeys.journeys → step ∈ x.steps →
    DeclaresEdge s ⟨.text x.id, .text ("component-" ++ step.component), .uses⟩
  /-- The flow of data goes from component to component. -/
  | flows {f} : f ∈ s.journeys.flow.edges →
    DeclaresEdge s ⟨.text ("component-" ++ f.source), .text ("component-" ++ f.target), .transforms⟩
  /-- A rule validates the entities that it affects. -/
  | validates {x name k} : x ∈ s.context.rules → name ∈ x.entities → x.id.key? = some k →
    DeclaresEdge s ⟨k, .text ("entity-" ++ name.shown), .validates⟩
  /-- A rule is implemented by the components that enforce it. -/
  | enforces {x name k} : x ∈ s.context.rules → name ∈ x.implementation → x.id.key? = some k →
    DeclaresEdge s ⟨k, .text ("component-" ++ name.shown), .implements⟩

/-- How many nodes the sources offer. -/
def nodeCount (s : Sources α) : Nat :=
  s.context.stories.length + s.context.capabilities.length + s.features.features.length +
    s.features.mappings.length + s.context.entities.length + s.journeys.journeys.length +
    s.context.rules.length + s.context.personas.length

end Graph.Sources

section

variable [Scalar α]

namespace Graph

variable {s : Sources α}

private theorem Sources.DrawsEdge.declares {e : Edge α} (h : s.DrawsEdge e) : s.DeclaresEdge e.key := by
  cases h with
  | story hx h =>
    cases h with
    | belongsTo hc hi hj =>
      exact .belongsTo hx hc (Json.key?_of_asIdent hi) (Json.key?_of_asIdent hj)
    | implements hname hi => exact .implements hx hname (Json.key?_of_asIdent hi)
  | capability hx h =>
    obtain ⟨hname, hi⟩ := h
    exact .usesEntity hx hname (Json.key?_of_asIdent hi)
  | relationship hr h =>
    obtain ⟨hkind⟩ := h
    exact .featuresRelate hr hkind
  | feature hx h =>
    obtain ⟨name, hname, rfl⟩ := List.mem_map.mp h
    exact .owns hx hname
  | journeyRelationship hr h =>
    obtain ⟨hkind⟩ := h
    exact .journeysRelate hr hkind
  | journey hx h =>
    obtain ⟨name, hname, rfl⟩ := List.mem_map.mp h
    obtain ⟨step, hstep, rfl⟩ := List.mem_map.mp (mem_distinctItems.mp hname)
    exact .traverses hx hstep
  | flow hf => exact .flows hf
  | rule hx h =>
    cases h with
    | validates hname hi => exact .validates hx hname (Json.key?_of_asIdent hi)
    | enforces hname hi => exact .enforces hx hname (Json.key?_of_asIdent hi)

private theorem Sources.DeclaresEdge.exists_drawn {k : EdgeKey} (h : s.DeclaresEdge k) :
    ∃ e, s.DrawsEdge e ∧ e.key = k := by
  cases h with
  | belongsTo hx hc hk hl =>
    obtain ⟨i, hi, rfl⟩ := Json.key?_eq_some.mp hk
    obtain ⟨j, hj, rfl⟩ := Json.key?_eq_some.mp hl
    exact ⟨_, .story hx (.belongsTo hc hi hj), rfl⟩
  | implements hx hname hk =>
    obtain ⟨i, hi, rfl⟩ := Json.key?_eq_some.mp hk
    exact ⟨_, .story hx (.implements hname hi), rfl⟩
  | usesEntity hx hname hk =>
    obtain ⟨i, hi, rfl⟩ := Json.key?_eq_some.mp hk
    exact ⟨_, .capability hx (.uses hname hi), rfl⟩
  | featuresRelate hr hkind => exact ⟨_, .relationship hr (.relates hkind), rfl⟩
  | owns hx hname => exact ⟨_, .feature hx (List.mem_map_of_mem hname), rfl⟩
  | journeysRelate hr hkind => exact ⟨_, .journeyRelationship hr (.relates hkind), rfl⟩
  | @traverses x step hx hstep =>
    have hname : step.component ∈ x.components :=
      mem_distinctItems.mpr (List.mem_map_of_mem hstep)
    exact ⟨_, .journey hx (List.mem_map_of_mem hname), rfl⟩
  | flows hf => exact ⟨_, .flow hf, rfl⟩
  | validates hx hname hk =>
    obtain ⟨i, hi, rfl⟩ := Json.key?_eq_some.mp hk
    exact ⟨_, .rule hx (.validates hname hi), rfl⟩
  | enforces hx hname hk =>
    obtain ⟨i, hi, rfl⟩ := Json.key?_eq_some.mp hk
    exact ⟨_, .rule hx (.enforces hname hi), rfl⟩

theorem types_addAllNodes (s : Sources α) :
    Adds .node Node.typedKey s.DeclaresAs (addAllNodes (β := β) s) := by
  have hstories := adds_addNodes (β := β) _ (fun x n h => (made_ofStory x n h).typedKey)
    s.context.stories
  have hcapabilities := adds_addNodes (α := α) (β := β) _
    (fun x n h => (made_ofCapability x n h).typedKey) s.context.capabilities
  have hrules := adds_addNodes (α := α) (β := β) _ (fun x n h => (made_ofRule x n h).typedKey)
    s.context.rules
  have hpersonas := adds_addNodes (α := α) (β := β) _
    (fun x n h => (made_ofPersona x n h).typedKey) s.context.personas
  have h := ((((((hstories.andThen hcapabilities).andThen
    (adds_addNodes_ok _ Node.ofFeature s.features.features)).andThen
    (adds_addNodes_ok _ Node.ofMapping s.features.mappings)).andThen
    (adds_addNodes_ok _ Node.ofEntity s.context.entities)).andThen
    (adds_addNodes_ok _ Node.ofJourney s.journeys.journeys)).andThen hrules).andThen hpersonas
  refine h.congr fun ⟨k, kind⟩ => ?_
  cases kind <;> simp [Node.typedKey, Sources.DeclaresAs, Node.ofFeature, Node.ofMapping,
    Node.ofEntity, Node.ofJourney, componentId, entityId]

theorem adds_addAllNodes (s : Sources α) :
    Adds .node (·.id.key) s.DeclaresNode (addAllNodes (β := β) s) := by
  intro g g' h
  obtain ⟨ns, harena, hns⟩ := types_addAllNodes s g g' h
  refine ⟨ns, harena, fun k => ?_⟩
  rw [Sources.declaresNode_iff, List.mem_map]
  constructor
  · rintro ⟨n, hn, rfl⟩
    exact ⟨n.kind, (hns _).mp (List.mem_map_of_mem hn)⟩
  · rintro ⟨kind, hkind⟩
    obtain ⟨n, hn, hk⟩ := List.mem_map.mp ((hns _).mpr hkind)
    exact ⟨n, hn, congrArg Prod.fst hk⟩

theorem adds_addAllEdges (s : Sources α) :
    Adds (β := β) .edge Edge.key s.DeclaresEdge (addAllEdges s) := by
  refine (offers_draws s).imp fun es hes k => ?_
  rw [List.mem_map]
  constructor
  · rintro ⟨e, he, rfl⟩
    exact ((hes e).mp he).declares
  · intro hk
    obtain ⟨e, he, rfl⟩ := hk.exists_drawn
    exact ⟨e, (hes e).mpr he, rfl⟩

theorem grows_addAllNodes (s : Sources α) :
    Grows s.nodeCount (addAllNodes (β := β) s) :=
  (((((((grows_addNodes Node.ofStory s.context.stories).andThen
    (grows_addNodes Node.ofCapability s.context.capabilities)).andThen
    (grows_addNodes (fun f => .ok (Node.ofFeature f)) s.features.features)).andThen
    (grows_addNodes (fun m => .ok (Node.ofMapping m)) s.features.mappings)).andThen
    (grows_addNodes (fun e => .ok (Node.ofEntity e)) s.context.entities)).andThen
    (grows_addNodes (fun j => .ok (Node.ofJourney j)) s.journeys.journeys)).andThen
    (grows_addNodes Node.ofRule s.context.rules)).andThen
    (grows_addNodes Node.ofPersona s.context.personas)

theorem leaves_addAllClusters (threshold : Json) (s : Sources α) :
    Leaves (addAllClusters (β := β) threshold s) :=
  ((leaves_addClusters _ s.features.domains).andThen
    (leaves_addClusters _ s.features.features)).andThen
    fun g g' h => by cases h; exact ⟨rfl, rfl⟩

theorem arena_of_addAllClusters {threshold : Json} {s : Sources α} {g g' : Graph α β}
    (h : addAllClusters threshold s g = .done g') : g'.arena = g.arena := by
  obtain ⟨g₂, h, h₃⟩ := Progress.andThen_eq_done.mp h
  obtain ⟨g₁, h₁, h₂⟩ := Progress.andThen_eq_done.mp h
  cases h₃
  exact (arena_of_addClusters h₂).trans (arena_of_addClusters h₁)

theorem keeps_addAllClusters (threshold : Json) (s : Sources α) :
    Keeps (addAllClusters (β := β) threshold s) := (leaves_addAllClusters threshold s).keeps

/-- The graph shows what the sources declare and nothing else. -/
structure Shows (s : Sources α) (g : Graph α β) : Prop where
  nodes : ∀ k, k ∈ g.arena.nodes.map (·.id.key) ↔ s.DeclaresNode k
  edges : ∀ k, k ∈ g.arena.edges.map Edge.key ↔
    s.DeclaresEdge k ∧ s.DeclaresNode k.source ∧ s.DeclaresNode k.target

private theorem shows_addAllEdges {s : Sources α} {g g₁ g₂ : Graph α β}
    (hg : g.arena = .empty) (h₁ : addAllNodes s g = .done g₁) (h₂ : addAllEdges s g₁ = .done g₂) :
    Shows s g₂ := by
  obtain ⟨ns, hns, hn⟩ := adds_addAllNodes s g g₁ h₁
  obtain ⟨es, hes, he⟩ := adds_addAllEdges s g₁ g₂ h₂
  rw [hns, hg, ← Arena.takeAll_append] at hes
  have hholds := Arena.holds_takeAll (ns.map .node ++ es.map (Offer.edge : Edge α → Offer α β))
  rw [← hes] at hholds
  refine ⟨fun k => ?_, fun k => ?_⟩
  · rw [← hn]
    have hmem := hholds.mem_nodeKeys k
    rwa [Offer.nodeKeys_append, Offer.nodeKeys_nodes, Offer.nodeKeys_edges, List.append_nil] at hmem
  · rw [← he, ← hn, ← hn]
    refine (hholds.mem_edgeKeys k).trans ?_
    simp only [Offer.timely_append, Offer.timely_nodes, Offer.timely_edges, Offer.nodeKeys_nodes,
      List.nil_append, List.append_nil, List.mem_map, List.mem_filter, decide_eq_true_eq]
    constructor
    · rintro ⟨e, ⟨hm, hends⟩, rfl⟩
      exact ⟨⟨e, hm, rfl⟩, hends⟩
    · rintro ⟨⟨e, hm, rfl⟩, hends⟩
      exact ⟨e, ⟨hm, hends⟩, rfl⟩

theorem stages_of_build [Coordinate β] {settings : GraphSettings β} {now : Moment}
    {s : Sources α} {g : Graph α β} (h : build settings now s = .done g) :
    ∃ g₁ g₂, addAllNodes s (start settings now) = .done g₁ ∧ addAllEdges s g₁ = .done g₂ ∧
      g.arena.typedKeys = g₂.arena.typedKeys ∧ g.arena.edges = g₂.arena.edges := by
  obtain ⟨g₃, h, hplace⟩ := Progress.andThen_eq_done.mp h
  obtain ⟨g₂, h, h₃⟩ := Progress.andThen_eq_done.mp h
  obtain ⟨g₁, h₁, h₂⟩ := Progress.andThen_eq_done.mp h
  obtain ⟨hn₃, he₃⟩ := leaves_addAllClusters _ s g₂ g₃ h₃
  obtain ⟨hn, he⟩ := leaves_place _ _ g hplace
  have hconnect : g₃.connect.takeStatistics.arena.typedKeys = g₃.arena.typedKeys := by
    rw [Arena.typedKeys, connect, inArena, takeStatistics, Arena.connected, List.map_map]
    rfl
  exact ⟨g₁, g₂, h₁, h₂, hn.trans (hconnect.trans hn₃), he.trans he₃⟩

/-- In a graph that was built, the nodes and the edges are those declared. -/
theorem shows_of_build [Coordinate β] {settings : GraphSettings β} {now : Moment}
    {s : Sources α} {g : Graph α β} (h : build settings now s = .done g) : Shows s g := by
  obtain ⟨g₁, g₂, h₁, h₂, hn, he⟩ := stages_of_build h
  obtain ⟨hnodes, hedges⟩ := shows_addAllEdges rfl h₁ h₂
  have hkeys : g.arena.nodeKeys = g₂.arena.nodeKeys := by
    rw [Arena.nodeKeys_of_typedKeys, Arena.nodeKeys_of_typedKeys, hn]
  refine ⟨fun k => ?_, fun k => ?_⟩
  · rw [← hnodes]
    exact iff_of_eq (congrArg (k ∈ ·) hkeys)
  · rw [he]
    exact hedges k

/-- If `P` holds of all nodes that are offered, the nodes of a graph that was built are the first ones
for their ids among some such nodes, with their connections counted and in their places. -/
theorem nodes_of_build [Coordinate β] {settings : GraphSettings β} {now : Moment} {s : Sources α}
    {P : List (Node α β) → Prop} (hP : Offers .node P (addAllNodes s)) {g : Graph α β}
    (h : build settings now s = .done g) : ∃ ns, P ns ∧ g.arena.nodes.map Node.unplaced =
      (firstPer (·.id.key) ns).map fun n => (n.linked (g.arena.degree n.id.key)).unplaced := by
  obtain ⟨g₃, h, hplace⟩ := Progress.andThen_eq_done.mp h
  obtain ⟨g₂, h, h₃⟩ := Progress.andThen_eq_done.mp h
  obtain ⟨g₁, h₁, h₂⟩ := Progress.andThen_eq_done.mp h
  obtain ⟨ns, hns, hPns⟩ := hP _ g₁ h₁
  have hnodes : g₃.arena.nodes = firstPer (·.id.key) ns := by
    have hholds := Arena.holds_takeAll (ns.map (Offer.node : Node α β → Offer α β))
    have hstart : (start settings now : Graph α β).arena = .empty := rfl
    rw [arena_of_addAllClusters h₃, (adds_addAllEdges s).nodes_eq h₂, hns, hstart, hholds.nodes_eq,
      List.filterMap_map]
    simp [Function.comp_def, Offer.node?]
  have hedges : g.arena.edges = g₃.arena.edges := (leaves_place _ _ g hplace).2
  have hdegree (key : Key) : g.arena.degree key = g₃.arena.degree key := by
    rw [Arena.degree, hedges, Arena.degree]
  refine ⟨ns, hPns, ?_⟩
  simp only [hdegree]
  rw [unplaced_of_place hplace, ← hnodes, connect, takeStatistics, inArena, Arena.connected,
    List.map_map]
  rfl

/-- A node of a graph that was built is one of those that were offered, but for its connections and its
place. -/
theorem exists_offered_of_build [Coordinate β] {settings : GraphSettings β} {now : Moment}
    {s : Sources α} {P : List (Node α β) → Prop} (hP : Offers .node P (addAllNodes s))
    {g : Graph α β} (h : build settings now s = .done g) :
    ∃ ns, P ns ∧ ∀ n ∈ g.arena.nodes, ∃ m ∈ firstPer (·.id.key) ns,
      (m.linked (g.arena.degree m.id.key)).unplaced = n.unplaced := by
  obtain ⟨ns, hns, hnodes⟩ := nodes_of_build hP h
  refine ⟨ns, hns, fun n hn => ?_⟩
  have hmem := List.mem_map_of_mem (f := Node.unplaced) hn
  rw [hnodes] at hmem
  exact List.mem_map.mp hmem

theorem types_of_build [Coordinate β] {settings : GraphSettings β} {now : Moment}
    {s : Sources α} {g : Graph α β} (h : build settings now s = .done g) :
    ∀ typed ∈ g.arena.typedKeys, s.DeclaresAs typed := by
  have hoffers : Offers (β := β) .node (fun ns => ∀ n ∈ ns, s.DeclaresAs n.typedKey)
      (addAllNodes s) := by
    intro k k' hk
    obtain ⟨ns, harena, htypes⟩ := types_addAllNodes s k k' hk
    exact ⟨ns, harena, fun n hn => (htypes _).mp (List.mem_map_of_mem hn)⟩
  obtain ⟨ns, htypes, hnodes⟩ := exists_offered_of_build hoffers h
  intro typed htyped
  obtain ⟨n, hn, rfl⟩ := List.mem_map.mp htyped
  obtain ⟨m, hm, hmn⟩ := hnodes n hn
  have hsame := congrArg Node.typedKey hmn
  change m.typedKey = n.typedKey at hsame
  exact hsame ▸ htypes m (mem_of_mem_firstPer hm)

theorem nodup_of_build [Coordinate β] {settings : GraphSettings β} {now : Moment} {s : Sources α}
    {g : Graph α β} (h : build settings now s = .done g) : g.arena.nodeKeys.Nodup := by
  obtain ⟨g₁, g₂, h₁, h₂, hn, -⟩ := stages_of_build h
  obtain ⟨ns, hns, -⟩ := adds_addAllNodes s _ g₁ h₁
  obtain ⟨es, hes, -⟩ := adds_addAllEdges s g₁ g₂ h₂
  have hstart : (start settings now : Graph α β).arena = .empty := rfl
  rw [hns, hstart, ← Arena.takeAll_append] at hes
  rw [Arena.nodeKeys_of_typedKeys, hn, ← Arena.nodeKeys_of_typedKeys, hes]
  exact (Arena.holds_takeAll _).nodup_nodeKeys

/-- A graph can only be built when the ids of the requirements identify them. -/
theorem identified_of_build [Coordinate β] {settings : GraphSettings β} {now : Moment}
    {s : Sources α} {g : Graph α β} (h : build settings now s = .done g) :
    ∀ id ∈ s.context.ids, ∃ k, id.key? = some k := by
  obtain ⟨g₁, -, h, -⟩ := stages_of_build h
  obtain ⟨ns, -, stories, capabilities, rules, personas, hmakes⟩ := offers_makesNodes s _ g₁ h
  intro id hid
  simp only [Context.ids, List.mem_append, List.mem_map] at hid
  obtain ((⟨x, hx, rfl⟩ | ⟨x, hx, rfl⟩) | ⟨x, hx, rfl⟩) | ⟨x, hx, rfl⟩ := hid
  · obtain ⟨n, hn⟩ := exists_of_mapM hmakes.stories hx
    exact ⟨_, (made_ofStory x n hn).key_eq⟩
  · obtain ⟨n, hn⟩ := exists_of_mapM hmakes.capabilities hx
    exact ⟨_, (made_ofCapability x n hn).key_eq⟩
  · obtain ⟨n, hn⟩ := exists_of_mapM hmakes.rules hx
    exact ⟨_, (made_ofRule x n hn).key_eq⟩
  · obtain ⟨n, hn⟩ := exists_of_mapM hmakes.personas hx
    exact ⟨_, (made_ofPersona x n hn).key_eq⟩

/-- If `P` holds of all edges that are offered, the edges of a graph that was built are the first
ones for their keys among some such edges with both ends in the graph. -/
theorem edges_of_build [Coordinate β] {settings : GraphSettings β} {now : Moment} {s : Sources α}
    {P : List (Edge α) → Prop} (hP : Offers (β := β) .edge P (addAllEdges s)) {g : Graph α β}
    (h : build settings now s = .done g) : ∃ es, P es ∧ g.arena.edges = firstPer Edge.key
      (es.filter fun e => decide (e.source.key ∈ g.arena.nodeKeys ∧
        e.target.key ∈ g.arena.nodeKeys)) := by
  obtain ⟨g₁, g₂, h₁, h₂, hn, he⟩ := stages_of_build h
  obtain ⟨ns, hns, -⟩ := adds_addAllNodes s _ g₁ h₁
  obtain ⟨es, hes, hPes⟩ := hP g₁ g₂ h₂
  have hstart : (start settings now : Graph α β).arena = .empty := rfl
  rw [hns, hstart, ← Arena.takeAll_append] at hes
  have hholds := Arena.holds_takeAll (ns.map .node ++ es.map (Offer.edge : Edge α → Offer α β))
  rw [← hes] at hholds
  have hkeys (k : Key) : k ∈ ns.map (·.id.key) ↔ k ∈ g.arena.nodeKeys := by
    rw [Arena.nodeKeys_of_typedKeys, hn, ← Arena.nodeKeys_of_typedKeys, hholds.mem_nodeKeys,
      Offer.nodeKeys_append, Offer.nodeKeys_nodes, Offer.nodeKeys_edges, List.append_nil]
  refine ⟨es, hPes, ?_⟩
  rw [he, hholds.edges_eq, Offer.timely_append, Offer.timely_nodes, Offer.timely_edges,
    Offer.nodeKeys_nodes, List.append_nil, List.nil_append]
  simp only [hkeys]

theorem edges_forall_of_build [Coordinate β] {settings : GraphSettings β} {now : Moment}
    {s : Sources α} {P : Edge α → Prop}
    (hP : Offers (β := β) .edge (fun es => ∀ e ∈ es, P e) (addAllEdges s)) {g : Graph α β}
    (h : build settings now s = .done g) : ∀ e ∈ g.arena.edges, P e := by
  obtain ⟨es, hes, hedges⟩ := edges_of_build hP h
  intro e he
  rw [hedges] at he
  exact hes e (List.mem_of_mem_filter (mem_of_mem_firstPer he))

theorem nodup_edgeKeys_of_build [Coordinate β] {settings : GraphSettings β} {now : Moment}
    {s : Sources α} {g : Graph α β} (h : build settings now s = .done g) :
    g.arena.edgeKeys.Nodup := by
  have hoffers : Offers (β := β) .edge (fun _ => True) (addAllEdges s) := by
    intro k k' hk
    obtain ⟨es, harena, -⟩ := adds_addAllEdges s k k' hk
    exact ⟨es, harena, trivial⟩
  obtain ⟨es, -, hedges⟩ := edges_of_build hoffers h
  rw [Arena.edgeKeys, hedges]
  exact nodup_map_firstPer Edge.key _

end Graph

end

end BusinessAtlas
