import BusinessAtlas.Proofs.Graph.Passes

/-!
# What sources offer a graph

Everything in a project makes a node of its own and draws edges in one or two ways. Here it is said
once which nodes and edges these are, and in which order they are offered. What holds of all of them
is then shown way by way, without a look at the passes.
-/

namespace BusinessAtlas

variable {α β : Type}

private theorem mem_flatten_of_mapM {ι κ : Type} {f : ι → Except Fault (List κ)} {P : ι → κ → Prop}
    {items : List ι} {xs : List κ} (h : List.flatten <$> items.mapM f = .ok xs)
    (hP : ∀ i ys, f i = .ok ys → ∀ x, x ∈ ys ↔ P i x) (x : κ) : x ∈ xs ↔ ∃ i ∈ items, P i x := by
  obtain ⟨found, hfound, rfl⟩ := map_eq_ok.mp h
  rw [List.mem_flatten]
  constructor
  · rintro ⟨ys, hys, hx⟩
    obtain ⟨i, hi, hiy⟩ := (mem_of_mapM hfound).mp hys
    exact ⟨i, hi, (hP i ys hiy x).mp hx⟩
  · rintro ⟨i, hi, hx⟩
    obtain ⟨ys, hys⟩ := exists_of_mapM hfound hi
    exact ⟨ys, (mem_of_mapM hfound).mpr ⟨i, hi, hys⟩, (hP i ys hys x).mpr hx⟩

namespace Edge

theorem mem_toEach {id : Json} {target : Json → Ident} {draw : Ident → Ident → Edge α}
    {names : List Json} {es : List (Edge α)} (h : toEach id target draw names = .ok es)
    {e : Edge α} :
    e ∈ es ↔ ∃ name ∈ names, ∃ i, id.asIdent = .ok i ∧ e = draw i (target name) := by
  rw [mem_of_mapM h]
  constructor
  · rintro ⟨name, hname, he⟩
    obtain ⟨i, hi, he⟩ := bind_eq_ok.mp he
    cases he
    exact ⟨name, hname, i, hi, rfl⟩
  · rintro ⟨name, hname, i, hi, rfl⟩
    exact ⟨name, hname, bind_eq_ok.mpr ⟨i, hi, rfl⟩⟩

end Edge

variable [Scalar α]

/-- The edges that a story draws. -/
inductive Story.Draws (capabilities : List Capability) (x : Story α) : Edge α → Prop where
  /-- A story belongs to the first capability that lists it. -/
  | belongsTo {c i j} : (capabilities.find? fun c => x.id.isAmong c.stories) = some c →
    x.id.asIdent = .ok i → c.id.asIdent = .ok j → Draws capabilities x
      { Edge.plain i j .belongsTo "belongs to" (Scalar.decimal 8 1) with
        note := .confidence x.confidence }
  /-- A story is implemented by its components. -/
  | implements {name i} : name ∈ x.components → x.id.asIdent = .ok i → Draws capabilities x
      ((Edge.plain i (componentId name) .implements "implemented by" (Scalar.decimal 7 1)).colored
        "#3498DB")

/-- The edges that a capability draws. -/
inductive Capability.Draws (c : Capability) : Edge α → Prop where
  /-- A capability uses its entities. -/
  | uses {name i} : name ∈ c.entities → c.id.asIdent = .ok i → Draws c
      { ((Edge.plain i (entityId name) .uses "uses" (Scalar.decimal 6 1)).colored
        "#9B59B6").dashed with direction := .bothWays }

/-- The edges that a relationship of features draws. -/
inductive Relationship.Draws (r : Relationship α) : Edge α → Prop where
  /-- Features relate in the way that their relationship is drawn. -/
  | relates {kind} : r.kind.edge = .ok kind → Draws r
      { Edge.plain (.text r.source) (.text r.target) kind r.description r.strength with
        direction := if kind == .dependsOn then .oneWay else .bothWays
        note := .criticalPath (kind == .dependsOn) }

/-- The edges that a relationship of journeys draws. -/
inductive JourneyRelationship.Draws (r : JourneyRelationship) : Edge α → Prop where
  /-- Journeys relate in the way that their relationship is drawn. -/
  | relates {kind} : r.kind.edge = .ok kind → Draws r
      { Edge.plain (.text r.source) (.text r.target) kind r.kind.name (Scalar.decimal 6 1) with
        note := .condition r.condition }

/-- The edges that a rule draws. -/
inductive Rule.Draws (r : Rule) : Edge α → Prop where
  /-- A rule validates the entities that it affects. -/
  | validates {name i} : name ∈ r.entities → r.id.asIdent = .ok i → Draws r
      ((Edge.plain i (entityId name) .validates "validates" (Scalar.decimal 7 1)).colored
        "#E74C3C").dashed
  /-- A rule is implemented by the components that enforce it. -/
  | enforces {name i} : name ∈ r.implementation → r.id.asIdent = .ok i → Draws r
      (Edge.plain i (componentId name) .implements "enforced by" (Scalar.decimal 8 1))

section

variable {es : List (Edge α)}

private theorem Story.mem_belonging {capabilities : List Capability} {x : Story α}
    (h : x.belonging capabilities = .ok es) (e : Edge α) : e ∈ es ↔ ∃ c i j,
      (capabilities.find? fun c => x.id.isAmong c.stories) = some c ∧
        x.id.asIdent = .ok i ∧ c.id.asIdent = .ok j ∧
        e = { Edge.plain i j .belongsTo "belongs to" (Scalar.decimal 8 1) with
          note := .confidence x.confidence } := by
  unfold belonging at h
  cases hc : capabilities.find? fun c => x.id.isAmong c.stories with
  | none =>
    rw [hc] at h
    cases h
    simp
  | some c =>
    rw [hc] at h
    obtain ⟨i, hi, h⟩ := bind_eq_ok.mp h
    obtain ⟨j, hj, h⟩ := bind_eq_ok.mp h
    cases h
    simp [hi, hj]

theorem Story.mem_edges {capabilities : List Capability} {x : Story α}
    (h : x.edges capabilities = .ok es) (e : Edge α) : e ∈ es ↔ x.Draws capabilities e := by
  obtain ⟨belonging, hbelonging, h⟩ := bind_eq_ok.mp h
  obtain ⟨implementing, himplementing, h⟩ := bind_eq_ok.mp h
  cases h
  rw [List.mem_append, mem_belonging hbelonging, Edge.mem_toEach himplementing]
  constructor
  · rintro (⟨c, i, j, hc, hi, hj, rfl⟩ | ⟨name, hname, i, hi, rfl⟩)
    · exact .belongsTo hc hi hj
    · exact .implements hname hi
  · intro he
    cases he with
    | belongsTo hc hi hj => exact .inl ⟨_, _, _, hc, hi, hj, rfl⟩
    | implements hname hi => exact .inr ⟨_, hname, _, hi, rfl⟩

theorem Capability.mem_edges {c : Capability} (h : c.edges = .ok es) (e : Edge α) :
    e ∈ es ↔ c.Draws e := by
  rw [Edge.mem_toEach h]
  constructor
  · rintro ⟨name, hname, i, hi, rfl⟩
    exact .uses hname hi
  · rintro ⟨hname, hi⟩
    exact ⟨_, hname, _, hi, rfl⟩

omit [Scalar α] in
theorem Relationship.mem_edges {r : Relationship α} (h : r.edges = .ok es) (e : Edge α) :
    e ∈ es ↔ r.Draws e := by
  obtain ⟨kind, hkind, h⟩ := bind_eq_ok.mp h
  cases h
  rw [List.mem_singleton]
  constructor
  · rintro rfl
    exact .relates hkind
  · rintro ⟨hother⟩
    cases hkind.symm.trans hother
    rfl

theorem JourneyRelationship.mem_edges {r : JourneyRelationship} (h : r.edges = .ok es) (e : Edge α) :
    e ∈ es ↔ r.Draws e := by
  obtain ⟨kind, hkind, h⟩ := bind_eq_ok.mp h
  cases h
  rw [List.mem_singleton]
  constructor
  · rintro rfl
    exact .relates hkind
  · rintro ⟨hother⟩
    cases hkind.symm.trans hother
    rfl

theorem Rule.mem_edges {r : Rule} (h : r.edges = .ok es) (e : Edge α) : e ∈ es ↔ r.Draws e := by
  obtain ⟨validating, hvalidating, h⟩ := bind_eq_ok.mp h
  obtain ⟨enforcing, henforcing, h⟩ := bind_eq_ok.mp h
  cases h
  rw [List.mem_append, Edge.mem_toEach hvalidating, Edge.mem_toEach henforcing]
  constructor
  · rintro (⟨name, hname, i, hi, rfl⟩ | ⟨name, hname, i, hi, rfl⟩)
    · exact .validates hname hi
    · exact .enforces hname hi
  · intro he
    cases he with
    | validates hname hi => exact .inl ⟨_, hname, _, hi, rfl⟩
    | enforces hname hi => exact .inr ⟨_, hname, _, hi, rfl⟩

end

namespace Graph

namespace Sources

/-- The nodes that the sources make. -/
inductive MakesNode (s : Sources α) : Node α β → Prop where
  | story {x n} : x ∈ s.context.stories → Node.ofStory x = .ok n → MakesNode s n
  | capability {x n} : x ∈ s.context.capabilities → Node.ofCapability x = .ok n → MakesNode s n
  | feature {x} : x ∈ s.features.features → MakesNode s (.ofFeature x)
  | component {x} : x ∈ s.features.mappings → MakesNode s (.ofMapping x)
  | entity {x} : x ∈ s.context.entities → MakesNode s (.ofEntity x)
  | journey {x} : x ∈ s.journeys.journeys → MakesNode s (.ofJourney x)
  | rule {x n} : x ∈ s.context.rules → Node.ofRule x = .ok n → MakesNode s n
  | persona {x n} : x ∈ s.context.personas → Node.ofPersona x = .ok n → MakesNode s n

/-- The nodes that the sources make, in the order in which they are offered. -/
structure MakesNodes (s : Sources α) (ns stories capabilities rules personas : List (Node α β)) :
    Prop where
  eq : ns = stories ++ (capabilities ++ s.features.features.map Node.ofFeature ++
    s.features.mappings.map Node.ofMapping ++ s.context.entities.map Node.ofEntity ++
    s.journeys.journeys.map Node.ofJourney ++ rules ++ personas)
  stories : s.context.stories.mapM Node.ofStory = .ok stories
  capabilities : s.context.capabilities.mapM Node.ofCapability = .ok capabilities
  rules : s.context.rules.mapM Node.ofRule = .ok rules
  personas : s.context.personas.mapM Node.ofPersona = .ok personas

/-- The edges that the sources draw, whether or not their ends are nodes. -/
inductive DrawsEdge (s : Sources α) : Edge α → Prop where
  | story {x e} : x ∈ s.context.stories → x.Draws s.context.capabilities e → DrawsEdge s e
  | capability {x e} : x ∈ s.context.capabilities → x.Draws e → DrawsEdge s e
  | relationship {r e} : r ∈ s.features.relationships → r.Draws e → DrawsEdge s e
  | feature {x e} : x ∈ s.features.features → e ∈ x.edges → DrawsEdge s e
  | journeyRelationship {r e} : r ∈ s.journeys.relationships → r.Draws e → DrawsEdge s e
  | journey {x e} : x ∈ s.journeys.journeys → e ∈ x.edges → DrawsEdge s e
  | flow {f} : f ∈ s.journeys.flow.edges → DrawsEdge s f.edge
  | rule {x e} : x ∈ s.context.rules → x.Draws e → DrawsEdge s e

/-- The edges that the sources draw, in the order in which they are offered. -/
structure DrawsEdges (s : Sources α)
    (es stories capabilities relationships rels rules : List (Edge α)) : Prop where
  eq : es = stories ++ capabilities ++ relationships ++
    s.features.features.flatMap Feature.edges ++ rels ++
    s.journeys.journeys.flatMap Journey.edges ++ s.journeys.flow.edges.map FlowEdge.edge ++ rules
  stories : ∀ e, e ∈ stories ↔ ∃ x ∈ s.context.stories, x.Draws s.context.capabilities e
  capabilities : ∀ e, e ∈ capabilities ↔ ∃ x ∈ s.context.capabilities, x.Draws e
  relationships : ∀ e, e ∈ relationships ↔ ∃ r ∈ s.features.relationships, r.Draws e
  rels : List.flatten <$> s.journeys.relationships.mapM JourneyRelationship.edges = .ok rels
  rules : ∀ e, e ∈ rules ↔ ∃ x ∈ s.context.rules, x.Draws e

variable {s : Sources α}

theorem MakesNodes.mem_iff {ns stories capabilities rules personas : List (Node α β)}
    (h : s.MakesNodes ns stories capabilities rules personas) {n : Node α β} :
    n ∈ ns ↔ s.MakesNode n := by
  simp only [h.eq, List.mem_append, List.mem_map, mem_of_mapM h.stories, mem_of_mapM h.capabilities,
    mem_of_mapM h.rules, mem_of_mapM h.personas, or_assoc]
  constructor
  · rintro (⟨x, hx, hn⟩ | ⟨x, hx, hn⟩ | ⟨x, hx, rfl⟩ | ⟨x, hx, rfl⟩ | ⟨x, hx, rfl⟩ | ⟨x, hx, rfl⟩ |
      ⟨x, hx, hn⟩ | ⟨x, hx, hn⟩)
    · exact .story hx hn
    · exact .capability hx hn
    · exact .feature hx
    · exact .component hx
    · exact .entity hx
    · exact .journey hx
    · exact .rule hx hn
    · exact .persona hx hn
  · intro hn
    cases hn with
    | story hx hn => exact .inl ⟨_, hx, hn⟩
    | capability hx hn => exact .inr (.inl ⟨_, hx, hn⟩)
    | feature hx => exact .inr (.inr (.inl ⟨_, hx, rfl⟩))
    | component hx => exact .inr (.inr (.inr (.inl ⟨_, hx, rfl⟩)))
    | entity hx => exact .inr (.inr (.inr (.inr (.inl ⟨_, hx, rfl⟩))))
    | journey hx => exact .inr (.inr (.inr (.inr (.inr (.inl ⟨_, hx, rfl⟩)))))
    | rule hx hn => exact .inr (.inr (.inr (.inr (.inr (.inr (.inl ⟨_, hx, hn⟩))))))
    | persona hx hn => exact .inr (.inr (.inr (.inr (.inr (.inr (.inr ⟨_, hx, hn⟩))))))

theorem DrawsEdges.mem_iff {es stories capabilities relationships rels rules : List (Edge α)}
    (h : s.DrawsEdges es stories capabilities relationships rels rules) {e : Edge α} :
    e ∈ es ↔ s.DrawsEdge e := by
  have hrels := mem_flatten_of_mapM h.rels fun _ _ => JourneyRelationship.mem_edges
  simp only [h.eq, List.mem_append, List.mem_flatMap, List.mem_map, h.stories, h.capabilities,
    h.relationships, hrels, h.rules, or_assoc]
  constructor
  · rintro (⟨x, hx, he⟩ | ⟨x, hx, he⟩ | ⟨r, hr, he⟩ | ⟨x, hx, he⟩ | ⟨r, hr, he⟩ | ⟨x, hx, he⟩ |
      ⟨f, hf, rfl⟩ | ⟨x, hx, he⟩)
    · exact .story hx he
    · exact .capability hx he
    · exact .relationship hr he
    · exact .feature hx he
    · exact .journeyRelationship hr he
    · exact .journey hx he
    · exact .flow hf
    · exact .rule hx he
  · intro he
    cases he with
    | story hx he => exact .inl ⟨_, hx, he⟩
    | capability hx he => exact .inr (.inl ⟨_, hx, he⟩)
    | relationship hr he => exact .inr (.inr (.inl ⟨_, hr, he⟩))
    | feature hx he => exact .inr (.inr (.inr (.inl ⟨_, hx, he⟩)))
    | journeyRelationship hr he => exact .inr (.inr (.inr (.inr (.inl ⟨_, hr, he⟩))))
    | journey hx he => exact .inr (.inr (.inr (.inr (.inr (.inl ⟨_, hx, he⟩)))))
    | flow hf => exact .inr (.inr (.inr (.inr (.inr (.inr (.inl ⟨_, hf, rfl⟩))))))
    | rule hx he => exact .inr (.inr (.inr (.inr (.inr (.inr (.inr ⟨_, hx, he⟩))))))

end Sources

variable {s : Sources α}

theorem offers_makesNodes (s : Sources α) : Offers .node
    (fun ns => ∃ stories capabilities rules personas,
      s.MakesNodes ns stories capabilities rules personas) (addAllNodes (β := β) s) := by
  have hstories := offers_addNodes (β := β) Node.ofStory s.context.stories
  have hcapabilities := offers_addNodes (α := α) (β := β) Node.ofCapability s.context.capabilities
  have hfeatures := offers_addNodes_ok (β := β) Node.ofFeature s.features.features
  have hcomponents := offers_addNodes_ok (α := α) (β := β) Node.ofMapping s.features.mappings
  have hentities := offers_addNodes_ok (α := α) (β := β) Node.ofEntity s.context.entities
  have hjourneys := offers_addNodes_ok (β := β) Node.ofJourney s.journeys.journeys
  have hrules := offers_addNodes (α := α) (β := β) Node.ofRule s.context.rules
  have hpersonas := offers_addNodes (α := α) (β := β) Node.ofPersona s.context.personas
  have h := ((((((hstories.andThen hcapabilities).andThen hfeatures).andThen hcomponents).andThen
    hentities).andThen hjourneys).andThen hrules).andThen hpersonas
  refine h.imp fun ns hns => ?_
  obtain ⟨_, personas, rfl, ⟨_, rules, rfl, ⟨_, _, rfl, ⟨_, _, rfl, ⟨_, _, rfl, ⟨_, _, rfl,
    ⟨stories, capabilities, rfl, hst, hca⟩, rfl⟩, rfl⟩, rfl⟩, rfl⟩, hru⟩, hpe⟩ := hns
  exact ⟨stories, capabilities, rules, personas, by simp only [List.append_assoc], hst, hca, hru, hpe⟩

theorem offers_makes (s : Sources α) :
    Offers .node (fun ns => ∀ n ∈ ns, s.MakesNode n) (addAllNodes (β := β) s) :=
  (offers_makesNodes s).imp fun _ ⟨_, _, _, _, hmakes⟩ _ hn => hmakes.mem_iff.mp hn

theorem offers_drawsEdges (s : Sources α) : Offers (β := β) .edge
    (fun es => ∃ stories capabilities relationships rels rules,
      s.DrawsEdges es stories capabilities relationships rels rules) (addAllEdges s) := by
  have hstories := offers_addEdges (β := β) (Story.edges s.context.capabilities) s.context.stories
  have hcapabilities := offers_addEdges (α := α) (β := β) Capability.edges s.context.capabilities
  have hrelationships := offers_addEdges (β := β) Relationship.edges s.features.relationships
  have howned := offers_addEdges_ok (β := β) Feature.edges s.features.features
  have hrels := offers_addEdges (α := α) (β := β) JourneyRelationship.edges s.journeys.relationships
  have htraversed := offers_addEdges_ok (β := β) Journey.edges s.journeys.journeys
  have hflow := offers_addEdges_ok (β := β) (fun f : FlowEdge => [(f.edge : Edge α)])
    s.journeys.flow.edges
  have hrules := offers_addEdges (α := α) (β := β) Rule.edges s.context.rules
  have h := ((((hstories.andThen hcapabilities).andThen (hrelationships.andThen howned)).andThen
    (hrels.andThen htraversed)).andThen hflow).andThen hrules
  refine h.imp fun es hes => ?_
  obtain ⟨_, rules, rfl, ⟨_, _, rfl, ⟨_, _, rfl, ⟨_, _, rfl, ⟨stories, capabilities, rfl, hst, hca⟩,
    relationships, _, rfl, hre, rfl⟩, rels, _, rfl, hrels, rfl⟩, rfl⟩, hru⟩ := hes
  refine ⟨stories, capabilities, relationships, rels, rules, ?_,
    mem_flatten_of_mapM hst fun _ _ => Story.mem_edges,
    mem_flatten_of_mapM hca fun _ _ => Capability.mem_edges,
    mem_flatten_of_mapM hre fun _ _ => Relationship.mem_edges, hrels,
    mem_flatten_of_mapM hru fun _ _ => Rule.mem_edges⟩
  simp only [List.append_assoc, List.map_eq_flatMap]

theorem offers_draws (s : Sources α) :
    Offers (β := β) .edge (fun es => ∀ e, e ∈ es ↔ s.DrawsEdge e) (addAllEdges s) :=
  (offers_drawsEdges s).imp fun _ ⟨_, _, _, _, _, hdraws⟩ _ => hdraws.mem_iff

theorem confined_addAllNodes (s : Sources α) (g : Graph α β) :
    Progress.Keeps g.Confined (addAllNodes s) :=
  (((((((confined_addNodes _ _ g).andThen (confined_addNodes _ _ g)).andThen
    (confined_addNodes _ _ g)).andThen (confined_addNodes _ _ g)).andThen
    (confined_addNodes _ _ g)).andThen (confined_addNodes _ _ g)).andThen
    (confined_addNodes _ _ g)).andThen (confined_addNodes _ _ g)

theorem confined_addAllEdges (s : Sources α) (g : Graph α β) :
    Progress.Keeps g.Confined (addAllEdges s) :=
  (((((confined_addEdges _ _ g).andThen (confined_addEdges _ _ g)).andThen
    ((confined_addEdges _ _ g).andThen (confined_addEdges _ _ g))).andThen
    ((confined_addEdges _ _ g).andThen (confined_addEdges _ _ g))).andThen
    (confined_addEdges _ _ g)).andThen (confined_addEdges _ _ g)

end Graph

end BusinessAtlas
