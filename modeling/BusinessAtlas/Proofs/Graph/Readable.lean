import BusinessAtlas.Proofs.Graph.Declared

/-!
# When a graph can be built

The passes only stop at a field that is not what it is read as, at a relationship that no edge stands
for, or at settings that give no places. Where there is nothing of the kind, the graph is built, and
it shows exactly what is declared.
-/

namespace BusinessAtlas

variable {α β : Type}

private theorem exists_choose {γ : Type} (table : List (String × γ)) (default : γ) {v : Json}
    (h : v.Identifies) : ∃ c, v.choose table default = .ok c := by
  obtain ⟨i, hi⟩ := Json.identifies_iff.mp h
  cases i <;> exact ⟨_, bind_eq_ok.mpr ⟨_, hi, rfl⟩⟩

theorem RelationshipKind.exists_edge {k : RelationshipKind} (h : ∀ name, k ≠ .other name) :
    ∃ kind, k.edge = .ok kind := by
  cases k with
  | other name => exact absurd rfl (h name)
  | _ => exact ⟨_, rfl⟩

theorem JourneyRelationshipKind.exists_edge {k : JourneyRelationshipKind}
    (h : ∀ name, k ≠ .other name) : ∃ kind, k.edge = .ok kind := by
  cases k with
  | other name => exact absurd rfl (h name)
  | _ => exact ⟨_, rfl⟩

/-- The settings serve a graph of up to `n` nodes: the threshold is a number, and every node gets a
place. -/
structure GraphSettings.Serve [Coordinate β] (settings : GraphSettings β) (n : Nat) : Prop where
  threshold : settings.collapseThreshold.asNumber?.isSome = true
  layout : settings.layout.Fits n

namespace Graph

/-- The fields that a graph reads hold what they are read as, and every relationship is of a kind
that an edge stands for. -/
structure Sources.Readable (s : Sources α) : Prop where
  stories : ∀ x ∈ s.context.stories, x.id.Identifies ∧ x.priority.Identifies ∧
    x.complexity.Identifies
  capabilities : ∀ x ∈ s.context.capabilities, x.id.Identifies ∧ x.value.Identifies
  rules : ∀ x ∈ s.context.rules, x.id.Identifies ∧ x.category.Identifies ∧
    ∀ e ∈ x.entities, e.isText = true
  personas : ∀ x ∈ s.context.personas, x.id.Identifies
  features : ∀ x ∈ s.features.features, ∀ story ∈ x.stories, story.Identifies
  featureKinds : ∀ r ∈ s.features.relationships, ∀ name, r.kind ≠ .other name
  journeyKinds : ∀ r ∈ s.journeys.relationships, ∀ name, r.kind ≠ .other name

variable [Scalar α]

private theorem exists_ofStory {x : Story α} (h : x.id.Identifies ∧ x.priority.Identifies ∧
    x.complexity.Identifies) : ∃ n : Node α β, Node.ofStory x = .ok n := by
  obtain ⟨hid, hpriority, hcomplexity⟩ := h
  obtain ⟨bonus, hb⟩ := exists_choose [("critical", 30), ("high", 20), ("medium", 10)] 0 hpriority
  obtain ⟨effort, he⟩ := exists_choose [("complex", 80), ("medium", 50)] 20 hcomplexity
  obtain ⟨worth, hw⟩ := exists_choose [("critical", 100), ("high", 75), ("medium", 50)] 25 hpriority
  obtain ⟨color, hc⟩ := exists_choose
    [("critical", "#E74C3C"), ("high", "#F39C12"), ("medium", "#3498DB")] "#95A5A6" hpriority
  obtain ⟨i, hi⟩ := Json.identifies_iff.mp hid
  exact ⟨_, bind_eq_ok.mpr ⟨_, bind_eq_ok.mpr ⟨bonus, hb, rfl⟩, bind_eq_ok.mpr ⟨effort, he,
    bind_eq_ok.mpr ⟨worth, hw, bind_eq_ok.mpr ⟨color, hc, bind_eq_ok.mpr ⟨i, hi, rfl⟩⟩⟩⟩⟩⟩

private theorem exists_ofCapability {x : Capability} (h : x.id.Identifies ∧ x.value.Identifies) :
    ∃ n : Node α β, Node.ofCapability x = .ok n := by
  obtain ⟨importance, hm⟩ := exists_choose [("core", 90), ("supporting", 60)] 30 h.2
  obtain ⟨worth, hw⟩ := exists_choose [("core", 100), ("supporting", 60)] 30 h.2
  obtain ⟨color, hc⟩ := exists_choose [("core", "#27AE60"), ("supporting", "#3498DB")] "#95A5A6" h.2
  obtain ⟨i, hi⟩ := Json.identifies_iff.mp h.1
  exact ⟨_, bind_eq_ok.mpr ⟨importance, hm, bind_eq_ok.mpr ⟨worth, hw, bind_eq_ok.mpr ⟨color, hc,
    bind_eq_ok.mpr ⟨i, hi, rfl⟩⟩⟩⟩⟩

private theorem exists_ofRule {x : Rule} (h : x.id.Identifies ∧ x.category.Identifies ∧
    ∀ e ∈ x.entities, e.isText = true) : ∃ n : Node α β, Node.ofRule x = .ok n := by
  obtain ⟨affected, ha⟩ := Json.exists_joinTexts ", " h.2.2
  obtain ⟨importance, hm⟩ := exists_choose [("validation", 80), ("authorization", 90)] 60 h.2.1
  obtain ⟨i, hi⟩ := Json.identifies_iff.mp h.1
  exact ⟨_, bind_eq_ok.mpr ⟨affected, ha, bind_eq_ok.mpr ⟨importance, hm,
    bind_eq_ok.mpr ⟨i, hi, rfl⟩⟩⟩⟩

private theorem exists_ofPersona {x : Persona} (h : x.id.Identifies) :
    ∃ n : Node α β, Node.ofPersona x = .ok n := by
  obtain ⟨i, hi⟩ := Json.identifies_iff.mp h
  exact ⟨_, bind_eq_ok.mpr ⟨i, hi, rfl⟩⟩

omit [Scalar α] in
private theorem exists_toEach {id : Json} (h : id.Identifies) (target : Json → Ident)
    (draw : Ident → Ident → Edge α) (names : List Json) :
    ∃ es, Edge.toEach id target draw names = .ok es := by
  obtain ⟨i, hi⟩ := Json.identifies_iff.mp h
  exact exists_mapM fun name _ => ⟨_, bind_eq_ok.mpr ⟨i, hi, rfl⟩⟩

private theorem exists_belonging {capabilities : List Capability}
    (hc : ∀ c ∈ capabilities, c.id.Identifies) {x : Story α} (h : x.id.Identifies) :
    ∃ es, x.belonging capabilities = .ok es := by
  unfold Story.belonging
  cases hf : capabilities.find? fun c => x.id.isAmong c.stories with
  | none => exact ⟨[], rfl⟩
  | some c =>
    obtain ⟨i, hi⟩ := Json.identifies_iff.mp h
    obtain ⟨j, hj⟩ := Json.identifies_iff.mp (hc c (List.mem_of_find?_eq_some hf))
    exact ⟨_, bind_eq_ok.mpr ⟨i, hi, bind_eq_ok.mpr ⟨j, hj, rfl⟩⟩⟩

private theorem exists_storyEdges {capabilities : List Capability}
    (hc : ∀ c ∈ capabilities, c.id.Identifies) {x : Story α} (h : x.id.Identifies) :
    ∃ es, x.edges capabilities = .ok es := by
  obtain ⟨belonging, hb⟩ := exists_belonging hc h
  obtain ⟨implementing, hm⟩ := exists_toEach h componentId _ x.components
  exact ⟨_, bind_eq_ok.mpr ⟨belonging, hb, bind_eq_ok.mpr ⟨implementing, hm, rfl⟩⟩⟩

private theorem exists_ruleEdges {x : Rule} (h : x.id.Identifies) :
    ∃ es : List (Edge α), x.edges = .ok es := by
  obtain ⟨validating, hv⟩ := exists_toEach h entityId _ x.entities
  obtain ⟨enforcing, he⟩ := exists_toEach h componentId _ x.implementation
  exact ⟨_, bind_eq_ok.mpr ⟨validating, hv, bind_eq_ok.mpr ⟨enforcing, he, rfl⟩⟩⟩

omit [Scalar α] in
private theorem exists_relationshipEdges {r : Relationship α} (h : ∀ name, r.kind ≠ .other name) :
    ∃ es, r.edges = .ok es := by
  obtain ⟨kind, hk⟩ := RelationshipKind.exists_edge h
  exact ⟨_, bind_eq_ok.mpr ⟨kind, hk, rfl⟩⟩

private theorem exists_journeyRelationshipEdges {r : JourneyRelationship}
    (h : ∀ name, r.kind ≠ .other name) : ∃ es : List (Edge α), r.edges = .ok es := by
  obtain ⟨kind, hk⟩ := JourneyRelationshipKind.exists_edge h
  exact ⟨_, bind_eq_ok.mpr ⟨kind, hk, rfl⟩⟩

private theorem total_addAllNodes {s : Sources α} (h : s.Readable) :
    Total (addAllNodes (β := β) s) :=
  (((((((total_addNodes fun x hx => exists_ofStory (h.stories x hx)).andThen
    (total_addNodes fun x hx => exists_ofCapability (h.capabilities x hx))).andThen
    (total_addNodes fun _ _ => ⟨_, rfl⟩)).andThen
    (total_addNodes fun _ _ => ⟨_, rfl⟩)).andThen
    (total_addNodes fun _ _ => ⟨_, rfl⟩)).andThen
    (total_addNodes fun _ _ => ⟨_, rfl⟩)).andThen
    (total_addNodes fun x hx => exists_ofRule (h.rules x hx))).andThen
    (total_addNodes fun x hx => exists_ofPersona (h.personas x hx))

private theorem total_addAllEdges {s : Sources α} (h : s.Readable) :
    Total (addAllEdges (β := β) s) :=
  (((((total_addEdges fun x hx => exists_storyEdges (fun c hc => (h.capabilities c hc).1)
      (h.stories x hx).1).andThen
    (total_addEdges fun x hx => exists_toEach (h.capabilities x hx).1 _ _ _)).andThen
    ((total_addEdges fun r hr => exists_relationshipEdges (h.featureKinds r hr)).andThen
      (total_addEdges fun _ _ => ⟨_, rfl⟩))).andThen
    ((total_addEdges fun r hr => exists_journeyRelationshipEdges (h.journeyKinds r hr)).andThen
      (total_addEdges fun _ _ => ⟨_, rfl⟩))).andThen
    (total_addEdges fun _ _ => ⟨_, rfl⟩)).andThen
    (total_addEdges fun x hx => exists_ruleEdges (h.rules x hx).1)

private theorem exists_featureCluster {threshold : Json} (ht : threshold.asNumber?.isSome = true)
    {f : Feature α} (h : ∀ story ∈ f.stories, story.Identifies) (a : Arena α β) :
    ∃ c, f.cluster threshold a = .ok c := by
  obtain ⟨t, ht⟩ := Option.isSome_iff_exists.mp ht
  obtain ⟨stories, hs⟩ := exists_mapM fun story hstory => Json.identifies_iff.mp (h story hstory)
  have hnodes : ∃ nodes, f.clusterNodes a = .ok nodes := ⟨_, bind_eq_ok.mpr ⟨stories, hs, rfl⟩⟩
  obtain ⟨nodes, hn⟩ := hnodes
  have hexceeds : exceeds threshold nodes.length = .ok (t.less (.int nodes.length)) := by
    rw [exceeds, ht]
  unfold Feature.cluster
  rw [hn, ok_bind]
  split
  · exact ⟨_, rfl⟩
  · rw [hexceeds]
    exact ⟨_, rfl⟩

private theorem total_addAllClusters {threshold : Json} (ht : threshold.asNumber?.isSome = true)
    {s : Sources α} (h : s.Readable) : Total (addAllClusters (β := β) threshold s) :=
  ((total_addClusters fun _ _ _ => ⟨_, rfl⟩).andThen
    (total_addClusters fun a f hf => exists_featureCluster ht (h.features f hf) a)).andThen
    fun _ => ⟨_, rfl⟩

variable [Coordinate β]

theorem exists_build {settings : GraphSettings β} (now : Moment) {s : Sources α}
    (hs : settings.Serve s.nodeCount) (h : s.Readable) : ∃ g, build settings now s = .done g := by
  obtain ⟨g₁, h₁⟩ := total_addAllNodes h (start settings now)
  obtain ⟨g₂, h₂⟩ := total_addAllEdges h g₁
  obtain ⟨g₃, h₃⟩ := total_addAllClusters hs.threshold h g₂
  have hlen₁ := grows_addAllNodes s _ g₁ h₁
  have hlen₂ := congrArg List.length ((adds_addAllEdges s).nodes_eq h₂)
  have hlen₃ := (keeps_addAllClusters _ s).length_eq h₃
  have hlen : g₃.connect.takeStatistics.arena.nodes.length ≤ s.nodeCount := by
    have hstart : (start settings now : Graph α β).arena.nodes.length = 0 := rfl
    simp only [connect, inArena, takeStatistics, Arena.connected, List.length_map]
    omega
  obtain ⟨g, hg⟩ := exists_place hs.layout hlen
  exact ⟨g, Progress.andThen_eq_done.mpr ⟨g₃, Progress.andThen_eq_done.mpr ⟨g₂,
    Progress.andThen_eq_done.mpr ⟨g₁, h₁, h₂⟩, h₃⟩, hg⟩⟩

/-- Whatever the sources are, a graph that is built from them shows what they declare and nothing
else; and a graph is built from all sources that can be read. -/
theorem shows_build (settings : GraphSettings β) (now : Moment) (s : Sources α) :
    (∀ g, (build settings now s).toExcept = .ok g → Shows s g) ∧
      (settings.Serve s.nodeCount → s.Readable →
        ∃ g, (build settings now s).toExcept = .ok g) := by
  refine ⟨fun g h => shows_of_build (Progress.toExcept_eq_ok.mp h), fun hs h => ?_⟩
  obtain ⟨g, hg⟩ := exists_build now hs h
  exact ⟨g, Progress.toExcept_eq_ok.mpr hg⟩

/-- A shop: one story, the capability that lists it, its entity and component, and a rule. -/
private def shop : Sources Rat where
  context := {
    stories := [⟨.text "pay", .text "Pay", .text "", .text "buyer", .text "high", 1, .text "", .text "",
      .text "simple", [.text "Cart"], [], .null⟩]
    capabilities := [⟨.text "sales", .text "Sales", .text "", [.text "pay"], [.text "Cart"],
      [.text "Order"], [], .text "core", .null⟩]
    entities := [⟨.text "Order", [], [], [], .text "", .null⟩]
    rules := [⟨.text "limit", .text "", .text "workflow", [.text "Cart"], [.text "Order"], [], [],
      .null⟩]
    personas := [⟨.text "buyer", .text "Buyer", .text "", [], [], .null⟩] }
  features := {
    mappings := [⟨"Cart", .functional, "", "", [], ⟨[], [], [], []⟩⟩]
    features := []
    relationships := [⟨"feature-sales", "feature-stock", .dependsOn, 1, ""⟩]
    domains := [] }
  journeys := .empty

private def shopSettings : GraphSettings Rat :=
  ⟨.text "Shop", .text "", ⟨1000, 150, 100, 100⟩, .int 5⟩

theorem shows_build_shop : ∃ g : Graph Rat Rat,
    (build shopSettings ⟨2024, 1, 2, 3, 4, 5, 0⟩ shop).toExcept = .ok g ∧ Shows shop g := by
  obtain ⟨hshows, hbuilt⟩ := shows_build shopSettings ⟨2024, 1, 2, 3, 4, 5, 0⟩ shop
  have hserve : shopSettings.Serve shop.nodeCount := ⟨rfl, Layout.fits_rat _ _⟩
  have hread : shop.Readable := by
    constructor <;> simp [shop, Json.Identifies, Json.ident?, Json.isText, JourneyMap.empty]
  obtain ⟨g, hg⟩ := hbuilt hserve hread
  exact ⟨g, hg, hshows g hg⟩

end Graph

end BusinessAtlas
