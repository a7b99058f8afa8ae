import BusinessAtlas.Proofs.Graph.Drawn

/-!
# Links between what the stages of a run found

The features, the journeys and the flow of data of a project are found one after the other, and the
graph joins what they found. No such link is lost: no edge before it has its key, and both its ends
are in the graph. The ids of the requirements may be what they like.
-/

namespace BusinessAtlas

variable {α β : Type}

variable [Scalar α]

namespace Graph

variable {s : Sources α}

private theorem mem_owned {e : Edge α} (h : e ∈ s.features.features.flatMap Feature.edges) :
    ∃ f ∈ s.features.features, ∃ name ∈ f.componentNames, e.kind = .uses ∧ e.label = "contains" ∧
      e.key = ⟨.text f.id, componentKey name, .uses⟩ := by
  obtain ⟨f, hf, h⟩ := List.mem_flatMap.mp h
  obtain ⟨name, hn, rfl⟩ := List.mem_map.mp h
  exact ⟨f, hf, name, hn, rfl, rfl, rfl⟩

private theorem mem_traversed {e : Edge α} (h : e ∈ s.journeys.journeys.flatMap Journey.edges) :
    ∃ j ∈ s.journeys.journeys, ∃ name ∈ j.components, e.kind = .uses ∧ e.label = "traverses" ∧
      e.key = ⟨.text j.id, componentKey name, .uses⟩ := by
  obtain ⟨j, hj, h⟩ := List.mem_flatMap.mp h
  obtain ⟨name, hn, rfl⟩ := List.mem_map.mp h
  exact ⟨j, hj, name, hn, rfl, rfl, rfl⟩

/-- The key of the edge that is drawn for a relationship of journeys. -/
private def drawnKey (r : JourneyRelationship) : EdgeKey :=
  ⟨.text r.source, .text r.target, if r.kind = .leadsTo then .navigatesTo else .requires⟩

private theorem map_rels {rels : List (Edge α)}
    (h : List.flatten <$> s.journeys.relationships.mapM JourneyRelationship.edges = .ok rels)
    (hkinds : ∀ r ∈ s.journeys.relationships, r.kind = .leadsTo ∨ r.kind = .requires) :
    rels.map (fun e => (e.key, e.label)) =
      s.journeys.relationships.map fun r => (drawnKey r, r.kind.name) := by
  obtain ⟨ess, hess, rfl⟩ := map_eq_ok.mp h
  have heach : ess.map (List.map fun e => (e.key, e.label)) =
      s.journeys.relationships.map fun r => [(drawnKey r, r.kind.name)] := by
    refine map_of_mapM hess fun r hr es hes => ?_
    obtain ⟨kind, hk, hes⟩ := bind_eq_ok.mp hes
    cases hes
    rcases hkinds r hr with hkind | hkind
    · rw [hkind] at hk
      cases hk
      simp [drawnKey, hkind, Edge.key, Edge.plain, Ident.key]
    · rw [hkind] at hk
      cases hk
      simp [drawnKey, hkind, Edge.key, Edge.plain, Ident.key]
  rw [List.map_flatten, heach, ← List.flatMap_def, ← List.map_eq_flatMap]

private theorem mem_flow {e : Edge α} (h : e ∈ s.journeys.flow.edges.map FlowEdge.edge) :
    ∃ f ∈ s.journeys.flow.edges, e.kind = .transforms ∧ e.label = f.operation ∧
      e.key = ⟨componentKey f.source, componentKey f.target, .transforms⟩ := by
  obtain ⟨f, hf, rfl⟩ := List.mem_map.mp h
  exact ⟨f, hf, rfl, rfl, rfl⟩

omit [Scalar α] in
private theorem declares_step (hs : s.Found) {j : Journey α} (hj : j ∈ s.journeys.journeys)
    {step : Step α} (hstep : step ∈ j.steps) : s.DeclaresNode (componentKey step.component) := by
  obtain ⟨m, hm, hname⟩ := hs.mapped_of_step hj hstep
  exact hname ▸ .component hm

private theorem declares_owned (hs : s.Found) {e : Edge α}
    (he : e ∈ s.features.features.flatMap Feature.edges) :
    s.DeclaresNode e.key.source ∧ s.DeclaresNode e.key.target := by
  obtain ⟨f, hf, name, hn, -, -, hkey⟩ := mem_owned he
  rw [hkey]
  obtain ⟨m, hm, rfl⟩ := List.mem_map.mp
    (hs.owned.perm.mem_iff.mp (List.mem_flatMap.mpr ⟨f, hf, hn⟩))
  exact ⟨.feature hf, .component hm⟩

private theorem declares_traversed (hs : s.Found) {e : Edge α}
    (he : e ∈ s.journeys.journeys.flatMap Journey.edges) :
    s.DeclaresNode e.key.source ∧ s.DeclaresNode e.key.target := by
  obtain ⟨j, hj, name, hn, -, -, hkey⟩ := mem_traversed he
  rw [hkey]
  obtain ⟨step, hstep, rfl⟩ := List.mem_map.mp (mem_distinctItems.mp hn)
  exact ⟨.journey hj, declares_step hs hj hstep⟩

private theorem declares_flow (hs : s.Found) {e : Edge α}
    (he : e ∈ s.journeys.flow.edges.map FlowEdge.edge) :
    s.DeclaresNode e.key.source ∧ s.DeclaresNode e.key.target := by
  obtain ⟨f, hf, -, -, hkey⟩ := mem_flow he
  obtain ⟨t, -, htraced⟩ := hs.traced
  rw [htraced.edges_eq] at hf
  obtain ⟨j, hj, first, hfirst, second, hsecond, hsource, htarget, -⟩ :=
    FlowEdge.ends_of_ofJourneys hf
  rw [hkey, hsource, htarget]
  exact ⟨declares_step hs hj hfirst, declares_step hs hj hsecond⟩

private theorem label_flow (hs : s.Found) {e : Edge α}
    (he : e ∈ s.journeys.flow.edges.map FlowEdge.edge) : e.label ∉ linkLabels := by
  obtain ⟨f, hf, -, hlabel, -⟩ := mem_flow he
  obtain ⟨t, -, htraced⟩ := hs.traced
  rw [htraced.edges_eq] at hf
  obtain ⟨j, hj, first, hfirst, _, _, _, _, hoperation⟩ := FlowEdge.ends_of_ofJourneys hf
  obtain ⟨k, hk⟩ := (htraced.journeys j hj).kinds first hfirst
  rw [hlabel, hoperation, hk]
  cases k <;> simp [PatternKind.stepKind, StepKind.name, linkLabels]

variable {es before rels after : List (Edge α)}

private theorem mem_rels (hs : s.Found) (hd : Drawn s es before rels after) {e : Edge α}
    (he : e ∈ rels) :
    ∃ r ∈ s.journeys.relationships, e.key = drawnKey r ∧ e.label = r.kind.name := by
  have hmem := List.mem_map_of_mem (f := fun e : Edge α => (e.key, e.label)) he
  rw [map_rels hd.rels fun r hr => (hs.joins_journeys hr).2.2] at hmem
  obtain ⟨r, hr, hkey⟩ := List.mem_map.mp hmem
  exact ⟨r, hr, (congrArg Prod.fst hkey).symm, (congrArg Prod.snd hkey).symm⟩

private theorem kind_rels (hs : s.Found) (hd : Drawn s es before rels after) {e : Edge α}
    (he : e ∈ rels) : e.kind ∈ linkKinds ∧ e.kind ≠ .transforms := by
  obtain ⟨r, -, hkey, -⟩ := mem_rels hs hd he
  have hkind : e.kind = if r.kind = .leadsTo then .navigatesTo else .requires :=
    congrArg EdgeKey.kind hkey
  rw [hkind]
  split <;> decide

private theorem label_rels (hs : s.Found) (hd : Drawn s es before rels after) {e : Edge α}
    (he : e ∈ rels) : e.label ∉ linkLabels := by
  obtain ⟨r, hr, -, hlabel⟩ := mem_rels hs hd he
  rw [hlabel]
  rcases (hs.joins_journeys hr).2.2 with hkind | hkind <;> rw [hkind] <;> decide

private theorem declares_rels (hs : s.Found) (hd : Drawn s es before rels after) {e : Edge α}
    (he : e ∈ rels) : s.DeclaresNode e.key.source ∧ s.DeclaresNode e.key.target := by
  obtain ⟨r, hr, hkey, -⟩ := mem_rels hs hd he
  obtain ⟨⟨j, hj, hsource⟩, ⟨k, hk, htarget⟩, -⟩ := hs.joins_journeys hr
  rw [hkey, drawnKey, hsource, htarget]
  exact ⟨.journey hj, .journey hk⟩

private theorem targets_owned (fs : List (Feature α)) :
    (fs.flatMap Feature.edges).map (·.key.target) =
      (fs.flatMap Feature.componentNames).map componentKey := by
  rw [List.map_flatMap, List.map_flatMap]
  congr 1
  funext f
  rw [Feature.edges, List.map_map]
  rfl

private theorem nodup_owned (hs : s.Found) :
    ((s.features.features.flatMap Feature.edges).map Edge.key).Nodup := by
  have htargets := targets_owned s.features.features
  refine .of_map EdgeKey.target ?_
  rw [List.map_map]
  exact htargets ▸ hs.owned.nodup.map componentKey_injective

private theorem keys_traversed (j : Journey α) : j.edges.map Edge.key =
    j.components.map fun name => ⟨.text j.id, componentKey name, .uses⟩ := by
  rw [Journey.edges, List.map_map]
  rfl

private theorem nodup_traversed (hs : s.Found) :
    ((s.journeys.journeys.flatMap Journey.edges).map Edge.key).Nodup := by
  obtain ⟨t, -, htraced⟩ := hs.traced
  have hids : s.journeys.journeys.Pairwise fun j k => j.id ≠ k.id :=
    List.pairwise_map.mp htraced.ids
  rw [List.map_flatMap, List.nodup_flatMap]
  constructor
  · intro j _
    rw [keys_traversed]
    refine (nodup_distinctItems _).map fun first second h => ?_
    exact componentKey_injective (congrArg EdgeKey.target h)
  · refine hids.imp ?_
    intro j k hne key hj hk
    simp only [keys_traversed] at hj hk
    obtain ⟨first, -, rfl⟩ := List.mem_map.mp hj
    obtain ⟨second, -, h⟩ := List.mem_map.mp hk
    exact hne (Key.text.inj (congrArg EdgeKey.source h)).symm

private theorem nodup_flow (hs : s.Found) :
    ((s.journeys.flow.edges.map (FlowEdge.edge : FlowEdge → Edge α)).map Edge.key).Nodup := by
  obtain ⟨t, -, htraced⟩ := hs.traced
  have hends := nodup_map_firstPer FlowEdge.ends
    (s.journeys.journeys.flatMap fun j => j.transitions.map (FlowEdge.ofTransition j))
  have hkeys : (s.journeys.flow.edges.map (FlowEdge.edge : FlowEdge → Edge α)).map Edge.key =
      (s.journeys.flow.edges.map FlowEdge.ends).map fun ends =>
        ⟨componentKey ends.1, componentKey ends.2, .transforms⟩ := by
    rw [List.map_map, List.map_map]
    rfl
  rw [hkeys, htraced.edges_eq]
  refine hends.map fun first second h => ?_
  exact Prod.ext (componentKey_injective (congrArg EdgeKey.source h))
    (componentKey_injective (congrArg EdgeKey.target h))

private theorem keys_rels (hs : s.Found) (hd : Drawn s es before rels after) :
    rels.map Edge.key = s.journeys.relationships.map drawnKey := by
  have hmap := congrArg (List.map Prod.fst)
    (map_rels hd.rels fun r hr => (hs.joins_journeys hr).2.2)
  rwa [List.map_map, List.map_map] at hmap

private theorem nodup_rels (hs : s.Found) (hd : Drawn s es before rels after) :
    (rels.map Edge.key).Nodup := by
  obtain ⟨t, -, htraced⟩ := hs.traced
  have hdistinct : s.journeys.relationships.Pairwise fun r q =>
      (r.source, r.target, r.kind) ≠ (q.source, q.target, q.kind) := by
    have hnodup := Journey.nodup_relationships htraced.ids
    rw [← htraced.relationships_eq] at hnodup
    exact List.pairwise_map.mp hnodup
  rw [keys_rels hs hd, List.Nodup, List.pairwise_map]
  refine hdistinct.imp_of_mem fun {r q} hr hq hne h => hne ?_
  have hsource : r.source = q.source := Key.text.inj (congrArg EdgeKey.source h)
  have htarget : r.target = q.target := Key.text.inj (congrArg EdgeKey.target h)
  have hkind := congrArg EdgeKey.kind h
  rw [hsource, htarget]
  rcases (hs.joins_journeys hr).2.2 with hrk | hrk <;>
    rcases (hs.joins_journeys hq).2.2 with hqk | hqk <;> simp_all [drawnKey]

/-- The graph has every link between the stages once, in the order in which they were found. -/
structure Links (s : Sources α) (g : Graph α β) : Prop where
  flow : g.arena.edges.filter (·.kind == .transforms) = s.journeys.flow.edges.map FlowEdge.edge
  traverses : (g.arena.edges.filter (·.label == "traverses")).map Edge.key =
    s.journeys.journeys.flatMap fun j =>
      j.components.map fun name => ⟨.text j.id, componentKey name, .uses⟩
  /-- What a journey comes to, it traverses once. -/
  traversed : ∀ j ∈ s.journeys.journeys, ∀ step ∈ j.steps,
    (g.arena.edges.filter (·.label == "traverses")).countP
      (·.key == ⟨.text j.id, componentKey step.component, .uses⟩) = 1
  contains : (g.arena.edges.filter (·.label == "contains")).map Edge.key =
    s.features.features.flatMap fun f =>
      f.componentNames.map fun name => ⟨.text f.id, componentKey name, .uses⟩
  /-- Every component with a mapping is contained once. -/
  contained : ∀ m ∈ s.features.mappings, (g.arena.edges.filter (·.label == "contains")).countP
    (·.target.key == componentKey m.name) = 1
  navigates : (g.arena.edges.filter (·.kind == .navigatesTo)).map Edge.key =
    (s.journeys.relationships.filter (·.kind == .leadsTo)).map fun r =>
      ⟨.text r.source, .text r.target, .navigatesTo⟩
  requires : (g.arena.edges.filter (·.kind == .requires)).map Edge.key =
    (s.journeys.relationships.filter (·.kind == .requires)).map fun r =>
      ⟨.text r.source, .text r.target, .requires⟩

omit [Scalar α] in
private theorem key_ne_of_kind {x y : Edge α} (h : x.kind ≠ y.kind) : x.key ≠ y.key :=
  fun he => h (congrArg EdgeKey.kind he)

private theorem kind_flow {e : Edge α} (he : e ∈ s.journeys.flow.edges.map FlowEdge.edge) :
    e.kind = .transforms := by
  obtain ⟨_, _, hkind, -⟩ := mem_flow he
  exact hkind

private theorem look_owned {e : Edge α} (he : e ∈ s.features.features.flatMap Feature.edges) :
    e.kind = .uses ∧ e.label = "contains" := by
  obtain ⟨_, _, _, _, hkind, hlabel, -⟩ := mem_owned he
  exact ⟨hkind, hlabel⟩

private theorem look_traversed {e : Edge α} (he : e ∈ s.journeys.journeys.flatMap Journey.edges) :
    e.kind = .uses ∧ e.label = "traverses" := by
  obtain ⟨_, _, _, _, hkind, hlabel, -⟩ := mem_traversed he
  exact ⟨hkind, hlabel⟩

omit [Scalar α] in
private theorem Aside.key_ne {x y : Edge α} {source : Key} {name : String} (hx : x.Aside)
    (hy : y.key = ⟨source, componentKey name, .uses⟩) : x.key ≠ y.key := by
  intro h
  rw [hy] at h
  exact hx.target (congrArg EdgeKey.kind h) name (congrArg EdgeKey.target h)

private theorem key_ne_of_owned (hs : s.Found) {x y : Edge α}
    (hx : x ∈ s.features.features.flatMap Feature.edges)
    (hy : y ∈ s.journeys.journeys.flatMap Journey.edges) : x.key ≠ y.key := by
  obtain ⟨f, hf, _, _, -, -, hxkey⟩ := mem_owned hx
  obtain ⟨j, hj, _, _, -, -, hykey⟩ := mem_traversed hy
  obtain ⟨t, -, htraced⟩ := hs.traced
  obtain ⟨feature, hfeature⟩ := hs.owned.exists_id hf
  obtain ⟨journey, hjourney⟩ := (htraced.journeys j hj).named
  intro h
  rw [hxkey, hykey, hfeature, hjourney] at h
  have hids := Key.text.inj (congrArg EdgeKey.source h)
  exact append_ne_of_stems (by decide) (by decide) (by decide) _ _ hids

/-- The second edge is no link between the stages, or it has a key of its own. -/
private def LinkApart (x y : Edge α) : Prop :=
  y.kind ∈ linkKinds ∨ y.label ∈ linkLabels → x.key ≠ y.key

omit [Scalar α] in
private theorem linkApart_of_aside (x : Edge α) {y : Edge α} (hy : y.Aside) : LinkApart x y := by
  rintro (hkind | hlabel)
  · exact absurd hkind hy.kind
  · exact absurd hlabel hy.label

omit [Scalar α] in
private theorem pairwise_of_nodup {part : List (Edge α)} (h : (part.map Edge.key).Nodup) :
    part.Pairwise LinkApart := by
  have hdistinct : part.Pairwise fun x y => x.key ≠ y.key := List.pairwise_map.mp h
  exact hdistinct.imp fun {x y} hne => show LinkApart x y from fun _ => hne

omit [Scalar α] in
private theorem kind_notMem_of_look {e : Edge α} {label : String}
    (h : e.kind = .uses ∧ e.label = label) : e.kind ∉ linkKinds := by
  rw [h.1]
  decide

private theorem pairwise_drawn (hs : s.Found) (hd : Drawn s es before rels after) :
    es.Pairwise LinkApart := by
  have hbefore := List.pairwise_of_forall_mem_list fun x _ y hy =>
    linkApart_of_aside x (hd.before y hy)
  have hafter := List.pairwise_of_forall_mem_list fun x _ y hy =>
    linkApart_of_aside x (hd.after y hy)
  have hfirst : ∀ e ∈ before ++ s.features.features.flatMap Feature.edges, e.kind ∉ linkKinds :=
    List.forall_mem_append.mpr ⟨fun e he => (hd.before e he).kind,
      fun e he => kind_notMem_of_look (look_owned he)⟩
  have hearlier : ∀ e ∈ before ++ s.features.features.flatMap Feature.edges ++ rels ++
      s.journeys.journeys.flatMap Journey.edges, e.kind ≠ .transforms := by
    have htransforms : EdgeKind.transforms ∈ linkKinds := by decide
    refine List.forall_mem_append.mpr ⟨List.forall_mem_append.mpr ⟨fun e he => ?_, fun e he => ?_⟩,
      fun e he => ?_⟩
    · exact fun h => hfirst e he (h ▸ htransforms)
    · exact (kind_rels hs hd he).2
    · exact fun h => kind_notMem_of_look (look_traversed he) (h ▸ htransforms)
  rw [hd.eq]
  simp only [List.pairwise_append]
  refine ⟨⟨⟨⟨⟨hbefore, pairwise_of_nodup (nodup_owned hs), ?_⟩, pairwise_of_nodup (nodup_rels hs hd),
    ?_⟩, pairwise_of_nodup (nodup_traversed hs), ?_⟩, pairwise_of_nodup (nodup_flow hs), ?_⟩,
    hafter, fun x _ y hy => linkApart_of_aside x (hd.after y hy)⟩
  · intro x hx y hy _
    obtain ⟨_, _, _, _, -, -, hkey⟩ := mem_owned hy
    exact Aside.key_ne (hd.before x hx) hkey
  · intro x hx y hy _
    exact key_ne_of_kind fun h => hfirst x hx (h ▸ (kind_rels hs hd hy).1)
  · intro x hx y hy _
    rcases List.mem_append.mp hx with hx | hx
    · rcases List.mem_append.mp hx with hx | hx
      · obtain ⟨_, _, _, _, -, -, hkey⟩ := mem_traversed hy
        exact Aside.key_ne (hd.before x hx) hkey
      · exact key_ne_of_owned hs hx hy
    · exact key_ne_of_kind fun h =>
        kind_notMem_of_look (look_traversed hy) (h ▸ (kind_rels hs hd hx).1)
  · intro x hx y hy _
    exact key_ne_of_kind fun h => hearlier x hx (h.trans (kind_flow hy))

private theorem declares_drawn (hs : s.Found) (hd : Drawn s es before rels after) {e : Edge α}
    (he : e ∈ es) (hlink : e.kind ∈ linkKinds ∨ e.label ∈ linkLabels) :
    s.DeclaresNode e.key.source ∧ s.DeclaresNode e.key.target := by
  rw [hd.eq] at he
  simp only [List.mem_append] at he
  rcases he with ((((he | he) | he) | he) | he) | he
  · exact absurd hlink (not_or.mpr ⟨(hd.before e he).kind, (hd.before e he).label⟩)
  · exact declares_owned hs he
  · exact declares_rels hs hd he
  · exact declares_traversed hs he
  · exact declares_flow hs he
  · exact absurd hlink (not_or.mpr ⟨(hd.after e he).kind, (hd.after e he).label⟩)

private theorem exists_drawn [Coordinate β] (hs : s.Found) {settings : GraphSettings β}
    {now : Moment} {g : Graph α β} (h : build settings now s = .done g) :
    ∃ es before rels after, Drawn s es before rels after ∧ ∀ p : Edge α → Bool,
      (∀ e, p e = true → e.kind ∈ linkKinds ∨ e.label ∈ linkLabels) →
        g.arena.edges.filter p = es.filter p := by
  obtain ⟨es, ⟨before, rels, after, hd⟩, hedges⟩ := edges_of_build (offers_drawn hs) h
  refine ⟨es, before, rels, after, hd, fun p hp => ?_⟩
  have hnodes := (shows_of_build h).nodes
  have hpairwise := (pairwise_drawn hs hd).imp (S := fun x y => p y = true → x.key ≠ y.key)
    fun {x y} hne hy => hne (hp y hy)
  rw [hedges, filter_firstPer (hpairwise.filter _), List.filter_filter]
  refine List.filter_congr fun e he => ?_
  cases hpe : p e with
  | false => rfl
  | true =>
    obtain ⟨hsource, htarget⟩ := declares_drawn hs hd he (hp e hpe)
    exact decide_eq_true ⟨(hnodes _).mpr hsource, (hnodes _).mpr htarget⟩

private theorem filter_kind (hd : Drawn s es before rels after) {kind : EdgeKind}
    (hkind : kind ∈ linkKinds) : es.filter (·.kind == kind) = rels.filter (·.kind == kind) ++
      (s.journeys.flow.edges.map FlowEdge.edge).filter (·.kind == kind) := by
  have huses : EdgeKind.uses ∉ linkKinds := by decide
  have hnone (part : List (Edge α)) (h : ∀ e ∈ part, e.kind ∉ linkKinds) :
      part.filter (·.kind == kind) = [] := by
    refine List.filter_eq_nil_iff.mpr fun e he hek => h e he ?_
    rw [eq_of_beq hek]
    exact hkind
  rw [hd.eq]
  simp only [List.filter_append]
  rw [hnone before fun e he => (hd.before e he).kind, hnone after fun e he => (hd.after e he).kind,
    hnone (s.features.features.flatMap _) fun e he => (look_owned he).1.symm ▸ huses,
    hnone (s.journeys.journeys.flatMap _) fun e he => (look_traversed he).1.symm ▸ huses]
  simp only [List.nil_append, List.append_nil]

private theorem filter_label (hs : s.Found) (hd : Drawn s es before rels after) {label : String}
    (hlabel : label ∈ linkLabels) : es.filter (·.label == label) =
      (s.features.features.flatMap Feature.edges).filter (·.label == label) ++
        (s.journeys.journeys.flatMap Journey.edges).filter (·.label == label) := by
  have hnone (part : List (Edge α)) (h : ∀ e ∈ part, e.label ∉ linkLabels) :
      part.filter (·.label == label) = [] := by
    refine List.filter_eq_nil_iff.mpr fun e he hel => h e he ?_
    rw [eq_of_beq hel]
    exact hlabel
  rw [hd.eq]
  simp only [List.filter_append]
  rw [hnone before fun e he => (hd.before e he).label,
    hnone after fun e he => (hd.after e he).label,
    hnone rels fun e he => label_rels hs hd he,
    hnone (s.journeys.flow.edges.map _) fun e he => label_flow hs he]
  simp only [List.nil_append, List.append_nil]

private theorem keys_of_kind (hs : s.Found) (hd : Drawn s es before rels after)
    {kind : JourneyRelationshipKind} {drawn : EdgeKind}
    (hk : ∀ r ∈ s.journeys.relationships, ((drawnKey r).kind = drawn ↔ r.kind = kind)) :
    (rels.filter (·.kind == drawn)).map Edge.key = (s.journeys.relationships.filter
      (·.kind == kind)).map fun r => ⟨.text r.source, .text r.target, drawn⟩ := by
  have hrels : (rels.filter (·.kind == drawn)).map Edge.key =
      (s.journeys.relationships.map drawnKey).filter (·.kind == drawn) := by
    rw [← keys_rels hs hd, List.filter_map]
    rfl
  have hkinds : s.journeys.relationships.filter ((·.kind == drawn) ∘ drawnKey) =
      s.journeys.relationships.filter (·.kind == kind) :=
    List.filter_congr fun r hr => by simp [hk r hr]
  rw [hrels, List.filter_map, hkinds]
  refine List.map_congr_left fun r hr => ?_
  have hdrawn := (hk r (List.mem_of_mem_filter hr)).mpr (eq_of_beq (List.mem_filter.mp hr).2)
  rw [← hdrawn]
  rfl

private theorem filter_flow (hs : s.Found) (hd : Drawn s es before rels after) :
    es.filter (·.kind == .transforms) = s.journeys.flow.edges.map FlowEdge.edge := by
  have hrels : rels.filter (·.kind == .transforms) = [] :=
    List.filter_eq_nil_iff.mpr fun e he => by simp [(kind_rels hs hd he).2]
  rw [filter_kind hd (by decide), hrels, List.nil_append]
  exact List.filter_eq_self.mpr fun e he => beq_iff_eq.mpr (kind_flow he)

private theorem filter_rels (hd : Drawn s es before rels after) {kind : EdgeKind}
    (hkind : kind ∈ linkKinds) (hne : kind ≠ .transforms) :
    es.filter (·.kind == kind) = rels.filter (·.kind == kind) := by
  have hflow : (s.journeys.flow.edges.map (FlowEdge.edge : FlowEdge → Edge α)).filter
      (·.kind == kind) = [] :=
    List.filter_eq_nil_iff.mpr fun e he => by simp [kind_flow he, hne.symm]
  rw [filter_kind hd hkind, hflow, List.append_nil]

private theorem filter_contains (hs : s.Found) (hd : Drawn s es before rels after) :
    es.filter (·.label == "contains") = s.features.features.flatMap Feature.edges := by
  have htraversed : (s.journeys.journeys.flatMap Journey.edges).filter
      (·.label == "contains") = [] :=
    List.filter_eq_nil_iff.mpr fun e he => by simp [(look_traversed he).2]
  rw [filter_label hs hd (by decide), htraversed, List.append_nil]
  exact List.filter_eq_self.mpr fun e he => beq_iff_eq.mpr (look_owned he).2

private theorem filter_traverses (hs : s.Found) (hd : Drawn s es before rels after) :
    es.filter (·.label == "traverses") = s.journeys.journeys.flatMap Journey.edges := by
  have howned : (s.features.features.flatMap Feature.edges).filter
      (·.label == "traverses") = [] :=
    List.filter_eq_nil_iff.mpr fun e he => by simp [(look_owned he).2]
  rw [filter_label hs hd (by decide), howned, List.nil_append]
  exact List.filter_eq_self.mpr fun e he => beq_iff_eq.mpr (look_traversed he).2

private theorem count_traversed (hs : s.Found) {j : Journey α} (hj : j ∈ s.journeys.journeys)
    {step : Step α} (hstep : step ∈ j.steps) :
    (s.journeys.journeys.flatMap Journey.edges).countP
      (·.key == ⟨.text j.id, componentKey step.component, .uses⟩) = 1 := by
  have hcomponent : step.component ∈ j.components :=
    mem_distinctItems.mpr (List.mem_map_of_mem hstep)
  have hmem : (⟨.text j.id, componentKey step.component, .uses⟩ : EdgeKey) ∈
      (s.journeys.journeys.flatMap Journey.edges).map Edge.key :=
    List.mem_map.mpr ⟨_, List.mem_flatMap.mpr ⟨j, hj, List.mem_map_of_mem hcomponent⟩, rfl⟩
  have hcount := List.count_eq_one_of_mem (nodup_traversed hs) hmem
  rwa [List.count, List.countP_map] at hcount

private theorem count_owned (hs : s.Found) {m : Mapping} (hm : m ∈ s.features.mappings) :
    (s.features.features.flatMap Feature.edges).countP
      (·.target.key == componentKey m.name) = 1 := by
  have hname : m.name ∈ s.features.features.flatMap Feature.componentNames :=
    hs.owned.perm.mem_iff.mpr (List.mem_map_of_mem hm)
  have hcount := List.count_eq_one_of_mem (hs.owned.nodup.map componentKey_injective)
    (List.mem_map_of_mem hname)
  rwa [← targets_owned, List.count, List.countP_map] at hcount

theorem links_of_build [Coordinate β] (hs : s.Found) {settings : GraphSettings β}
    {now : Moment} {g : Graph α β} (h : build settings now s = .done g) : Links s g := by
  obtain ⟨es, before, rels, after, hd, hkept⟩ := exists_drawn hs h
  have hkind {kind : EdgeKind} (hk : kind ∈ linkKinds) :
      g.arena.edges.filter (·.kind == kind) = es.filter (·.kind == kind) :=
    hkept (·.kind == kind) fun e he => .inl (eq_of_beq he ▸ hk)
  have hlabel {label : String} (hl : label ∈ linkLabels) :
      g.arena.edges.filter (·.label == label) = es.filter (·.label == label) :=
    hkept (·.label == label) fun e he => .inr (eq_of_beq he ▸ hl)
  have hcontains := (hlabel (by decide)).trans (filter_contains hs hd)
  have htraverses := (hlabel (by decide)).trans (filter_traverses hs hd)
  refine ⟨(hkind (by decide)).trans (filter_flow hs hd), ?_, fun j hj step hstep => ?_, ?_,
    fun m hm => ?_, ?_, ?_⟩
  · rw [htraverses, List.map_flatMap]
    simp only [keys_traversed]
  · rw [htraverses]
    exact count_traversed hs hj hstep
  · rw [hcontains, List.map_flatMap]
    simp only [Feature.edges, List.map_map]
    rfl
  · rw [hcontains]
    exact count_owned hs hm
  · rw [hkind (by decide), filter_rels hd (by decide) (by decide)]
    refine keys_of_kind hs hd fun r hr => ?_
    rcases (hs.joins_journeys hr).2.2 with hk | hk <;> simp [drawnKey, hk]
  · rw [hkind (by decide), filter_rels hd (by decide) (by decide)]
    refine keys_of_kind hs hd fun r hr => ?_
    rcases (hs.joins_journeys hr).2.2 with hk | hk <;> simp [drawnKey, hk]

end Graph

namespace Atlas

/-- A run loses no link between what its stages found, whatever the ids of the requirements are. -/
theorem links_make (config : Config) (now : Moment) (analyse : Bool) (p : Project)
    (c : Context Number) (a : Atlas) (h : make config now analyse p c = .ok a) :
    Graph.Links a.sources a.graph := by
  obtain ⟨-, hfound, hbuilt, -⟩ := stages_of_make h
  exact Graph.links_of_build hfound hbuilt

/-- The cart stands below the home page, and a component that is not known stands below the cart. -/
private def shopProject : Project :=
  ⟨[⟨.text "HomePage", .text "", .text "function", [⟨.text "onClick", .text "unknown", false⟩], [],
      [.text "Cart"], []⟩,
    ⟨.text "Cart", .text "", .text "function", [⟨.text "onClick", .text "unknown", false⟩], [],
      [.text "Ghost"], []⟩], [], []⟩

/-- A story that has the id of the cart's node, and a rule that has the id of the story. -/
private def shopContext : Context Number where
  stories := [⟨.text "component-Cart", .text "Pay", .text "", .text "buyer", .text "high", .int 1,
    .text "", .text "", .text "simple", [.text "Cart"], [], .null⟩]
  capabilities := [⟨.text "sales", .text "Sales", .text "", [.text "component-Cart"],
    [.text "Cart"], [.text "Order"], [], .text "core", .record []⟩]
  entities := [⟨.text "Order", [], [], [], .text "", .null⟩]
  rules := [⟨.text "component-Cart", .text "", .text "workflow", [.text "Cart"], [.text "Order"],
    [], [], .null⟩]
  personas := []

theorem links_make_shop : ∃ a,
    make .default ⟨2024, 1, 2, 3, 4, 5, 0⟩ false shopProject shopContext = .ok a ∧
      Graph.Links a.sources a.graph := by
  have hmade : (make .default ⟨2024, 1, 2, 3, 4, 5, 0⟩ false shopProject
    shopContext).toOption.isSome = true := by decide +kernel
  obtain ⟨a, ha⟩ := Option.isSome_iff_exists.mp hmade
  have h := toOption_eq_some.mp ha
  exact ⟨a, h, links_make .default _ false shopProject shopContext a h⟩

end Atlas

end BusinessAtlas
