import BusinessAtlas.Proofs.Graph.Found
import BusinessAtlas.Proofs.Network.Gaps

/-!
# Coverage is exact

Where every requirement has an id of its own that begins as none does that a run makes, an id tells
which kind of thing has it. Then the gaps of coverage are found exactly where the requirements and
the project leave something open, although the network only knows ids and kinds.
-/

namespace BusinessAtlas

variable {α β : Type}

/-- Every requirement has an id of its own, which begins as none does that a run makes. -/
structure Context.Separate (c : Context α) : Prop where
  distinct : (c.ids.map Json.key?).Nodup
  apart : ∀ stem ∈ stems, ∀ name, .text (stem ++ name) ∉ c.ids

/-- An id that begins with another letter than the stems begins as none does that a run makes. -/
theorem Context.apart_of_heads {c : Context α} (texts : List String) (hids : c.ids = texts.map .text)
    (h : ∀ stem ∈ stems, ∀ t ∈ texts, stem.toList.head? ≠ t.toList.head?) :
    ∀ stem ∈ stems, ∀ name, .text (stem ++ name) ∉ c.ids := by
  have hstems : ∀ stem ∈ stems, stem.toList ≠ [] := by decide
  intro stem hstem name hid
  rw [hids] at hid
  obtain ⟨t, ht, heq⟩ := List.mem_map.mp hid
  exact append_ne_of_head (hstems stem hstem) (h stem hstem t ht) name (Json.text.inj heq).symm

/-- How the ids begin of the things of a kind, if a run makes them. -/
def NodeKind.stem? : NodeKind → Option String
  | .component => some "component-"
  | .entity => some "entity-"
  | .feature => some "feature-"
  | .journey => some "journey-"
  | _ => none

/-- The ids of the requirements with their kinds. -/
def Context.kindedIds (c : Context α) : List (Json × NodeKind) :=
  c.stories.map (fun x => (x.id, .story)) ++ c.capabilities.map (fun x => (x.id, .capability)) ++
    c.rules.map (fun x => (x.id, .rule)) ++ c.personas.map (fun x => (x.id, .persona))

theorem Context.ids_eq (c : Context α) : c.ids = c.kindedIds.map Prod.fst := by
  simp [ids, kindedIds, Function.comp_def]

theorem Context.mem_ids_of_kindedIds {c : Context α} {id : Json} {kind : NodeKind}
    (h : (id, kind) ∈ c.kindedIds) : id ∈ c.ids := c.ids_eq ▸ List.mem_map_of_mem h

namespace NodeKind

theorem stem?_mem {kind : NodeKind} {stem : String} (h : kind.stem? = some stem) :
    stem ∈ stems := by
  cases kind <;> cases h <;> decide

theorem stem?_injective {a b : NodeKind} {stem : String} (ha : a.stem? = some stem)
    (hb : b.stem? = some stem) : a = b := by
  cases a <;> cases ha <;> cases b <;> simp [stem?] at hb ⊢

end NodeKind

theorem Context.Separate.story_unique {c : Context α} (hc : c.Separate) {x y : Story α}
    (hx : x ∈ c.stories) (hy : y ∈ c.stories) (h : x.id.key? = y.id.key?) : x = y := by
  have hdistinct := hc.distinct
  simp only [Context.ids, List.map_append, List.map_map] at hdistinct
  have hstories := hdistinct.of_append_left.of_append_left.of_append_left
  exact List.inj_on_of_nodup_map hstories hx hy h

/-- The sources declare the edge and both its ends. -/
def Graph.Sources.Draws (s : Sources α) (k : EdgeKey) : Prop :=
  s.DeclaresEdge k ∧ s.DeclaresNode k.source ∧ s.DeclaresNode k.target

namespace Graph.Sources.Found

variable {s : Sources α}

private theorem origin (hs : s.Found) {k : Key} {kind : NodeKind} (h : s.DeclaresAs (k, kind)) :
    (∃ stem name, kind.stem? = some stem ∧ k = .text (stem ++ name)) ∨
      kind.stem? = none ∧ ∃ id, (id, kind) ∈ s.context.kindedIds ∧ id.key? = some k := by
  have hmem {ι : Type} {items : List ι} {id : ι → Json} {x : ι} (hx : x ∈ items) :
      ∃ y ∈ items, id y = id x := ⟨x, hx, rfl⟩
  cases kind with
  | story =>
    obtain ⟨x, hx, hk⟩ := h
    exact .inr ⟨rfl, x.id, by simp [Context.kindedIds, hmem hx], hk⟩
  | capability =>
    obtain ⟨x, hx, hk⟩ := h
    exact .inr ⟨rfl, x.id, by simp [Context.kindedIds, hmem hx], hk⟩
  | rule =>
    obtain ⟨x, hx, hk⟩ := h
    exact .inr ⟨rfl, x.id, by simp [Context.kindedIds, hmem hx], hk⟩
  | persona =>
    obtain ⟨x, hx, hk⟩ := h
    exact .inr ⟨rfl, x.id, by simp [Context.kindedIds, hmem hx], hk⟩
  | feature =>
    obtain ⟨x, hx, rfl⟩ := h
    obtain ⟨name, hname⟩ := hs.owned.exists_id hx
    exact .inl ⟨_, name, rfl, by rw [hname]⟩
  | component =>
    obtain ⟨x, -, rfl⟩ := h
    exact .inl ⟨_, x.name, rfl, rfl⟩
  | entity =>
    obtain ⟨x, -, rfl⟩ := h
    exact .inl ⟨_, x.name.shown, rfl, rfl⟩
  | journey =>
    obtain ⟨x, hx, rfl⟩ := h
    obtain ⟨t, -, htraced⟩ := hs.traced
    obtain ⟨name, hname⟩ := (htraced.journeys x hx).named
    exact .inl ⟨_, name, rfl, by rw [hname]⟩
  | endpoint => exact h.elim
  | integration => exact h.elim

private theorem kind_of_stem (hs : s.Found) (hc : s.context.Separate) {a b : NodeKind}
    {stem name : String} (h : s.DeclaresAs (.text (stem ++ name), a)) (hb : b.stem? = some stem) :
    a = b := by
  rcases hs.origin h with ⟨other, rest, ha, hk⟩ | ⟨-, id, hid, hk⟩
  · by_cases hne : stem = other
    · exact NodeKind.stem?_injective ha (hne ▸ hb)
    · exact absurd (Key.text.inj hk)
        (append_ne_of_stems (NodeKind.stem?_mem hb) (NodeKind.stem?_mem ha) hne name rest)
  · have hmem := Context.mem_ids_of_kindedIds hid
    rw [Json.key?_eq_some_text.mp hk] at hmem
    exact absurd hmem (hc.apart stem (NodeKind.stem?_mem hb) name)

/-- An id tells which kind of thing has it. -/
theorem kind_unique (hs : s.Found) (hc : s.context.Separate) {k : Key} {a b : NodeKind}
    (ha : s.DeclaresAs (k, a)) (hb : s.DeclaresAs (k, b)) : a = b := by
  rcases hs.origin ha with ⟨stem, name, hstem, rfl⟩ | ⟨-, id, hid, hk⟩
  · exact (hs.kind_of_stem hc hb hstem).symm
  · rcases hs.origin hb with ⟨stem, name, hstem, rfl⟩ | ⟨-, other, hother, hl⟩
    · exact hs.kind_of_stem hc ha hstem
    · have hdistinct := hc.distinct
      rw [Context.ids_eq, List.map_map] at hdistinct
      exact congrArg Prod.snd (List.inj_on_of_nodup_map hdistinct hid hother (hk.trans hl.symm))

private theorem declares_feature (hs : s.Found) {r : Relationship α}
    (hr : r ∈ s.features.relationships) : s.DeclaresAs (.text r.source, .feature) ∧
      s.DeclaresAs (.text r.target, .feature) := by
  obtain ⟨⟨f, hf, hsource⟩, ⟨k, hk, htarget⟩, -⟩ := hs.related r hr
  rw [hsource, htarget]
  exact ⟨⟨f, hf, rfl⟩, ⟨k, hk, rfl⟩⟩

private theorem declares_journey (hs : s.Found) {r : JourneyRelationship}
    (hr : r ∈ s.journeys.relationships) : s.DeclaresAs (.text r.source, .journey) ∧
      s.DeclaresAs (.text r.target, .journey) := by
  obtain ⟨⟨j, hj, hsource⟩, ⟨k, hk, htarget⟩, -⟩ := hs.joins_journeys hr
  rw [hsource, htarget]
  exact ⟨⟨j, hj, rfl⟩, ⟨k, hk, rfl⟩⟩

private theorem declares_component (hs : s.Found) (hc : s.context.Separate) {name : String}
    (h : s.DeclaresNode (componentKey name)) : name ∈ s.features.mappings.map (·.name) := by
  obtain ⟨kind, hkind⟩ := declaresNode_iff.mp h
  have hcomponent : kind = .component := hs.kind_of_stem hc hkind rfl
  rw [hcomponent] at hkind
  obtain ⟨m, hm, hname⟩ := hkind
  exact List.mem_map.mpr ⟨m, hm, componentKey_injective hname⟩

theorem implemented_iff (hs : s.Found) (hc : s.context.Separate) {x : Story α}
    (hx : x ∈ s.context.stories) {k : Key} (hk : x.id.key? = some k) :
    (∃ t, s.Draws ⟨k, t, .implements⟩) ↔
      ∃ name ∈ x.components, name.shown ∈ s.features.mappings.map (·.name) := by
  have hstory : s.DeclaresAs (k, .story) := ⟨x, hx, hk⟩
  have hkind (kind : NodeKind) (h : s.DeclaresAs (k, kind)) : kind = .story :=
    hs.kind_unique hc h hstory
  constructor
  · rintro ⟨t, hedge, -, htarget⟩
    cases hedge with
    | implements hy hname hl =>
      cases hc.story_unique hx hy (hk.trans hl.symm)
      exact ⟨_, hname, hs.declares_component hc htarget⟩
    | featuresRelate hr _ => exact absurd (hkind _ (hs.declares_feature hr).1) (by decide)
    | journeysRelate hr _ => exact absurd (hkind _ (hs.declares_journey hr).1) (by decide)
    | enforces hy _ hl => exact absurd (hkind .rule ⟨_, hy, hl⟩) (by decide)
  · rintro ⟨name, hname, hmapped⟩
    obtain ⟨m, hm, hshown⟩ := List.mem_map.mp hmapped
    exact ⟨_, .implements hx hname hk, .story hx hk, hshown ▸ .component hm⟩

theorem traversed_iff (hs : s.Found) (hc : s.context.Separate) {m : Mapping}
    (hm : m ∈ s.features.mappings) :
    (∃ k kind, s.Draws ⟨k, componentKey m.name, kind⟩ ∧ s.DeclaresAs (k, .journey)) ↔
      ∃ j ∈ s.journeys.journeys, ∃ step ∈ j.steps, step.component = m.name := by
  have hcomponent {l : Key} {kind : NodeKind} (hl : componentKey m.name = l)
      (h : s.DeclaresAs (l, kind)) : kind = .component := by
    subst hl
    exact hs.kind_of_stem hc h rfl
  constructor
  · rintro ⟨k, kind, ⟨hedge, hsource, -⟩, hjourney⟩
    have hkind (kind : NodeKind) (h : s.DeclaresAs (k, kind)) : kind = .journey :=
      hs.kind_unique hc h hjourney
    generalize ht : componentKey m.name = t at hedge
    cases hedge with
    | belongsTo hx _ hk _ => exact absurd (hkind .story ⟨_, hx, hk⟩) (by decide)
    | implements hx _ hk => exact absurd (hkind .story ⟨_, hx, hk⟩) (by decide)
    | usesEntity hx _ hk => exact absurd (hkind .capability ⟨_, hx, hk⟩) (by decide)
    | featuresRelate hr _ => exact absurd (hkind _ (hs.declares_feature hr).1) (by decide)
    | owns hx _ => exact absurd (hkind .feature ⟨_, hx, rfl⟩) (by decide)
    | journeysRelate hr _ => exact absurd (hcomponent ht (hs.declares_journey hr).2) (by decide)
    | traverses hx hstep => exact ⟨_, hx, _, hstep, (componentKey_injective ht).symm⟩
    | flows hf => exact absurd (hs.kind_of_stem hc (b := .component) hjourney rfl) (by decide)
    | validates hx _ hk => exact absurd (hkind .rule ⟨_, hx, hk⟩) (by decide)
    | enforces hx _ hk => exact absurd (hkind .rule ⟨_, hx, hk⟩) (by decide)
  · rintro ⟨j, hj, step, hstep, hname⟩
    exact ⟨_, .uses, ⟨hname ▸ .traverses hj hstep, .journey hj, .component hm⟩, ⟨j, hj, rfl⟩⟩

theorem used_iff (hs : s.Found) (hc : s.context.Separate)
    (hids : ∀ id ∈ s.context.ids, ∃ k, id.key? = some k) {e : Entity}
    (he : e ∈ s.context.entities) :
    (∃ k kind, s.Draws ⟨k, entityKey e.name.shown, kind⟩) ↔
      (∃ x ∈ s.context.capabilities, ∃ name ∈ x.entities, name.shown = e.name.shown) ∨
        ∃ x ∈ s.context.rules, ∃ name ∈ x.entities, name.shown = e.name.shown := by
  have hkind (kind : NodeKind) {l : Key} (hl : entityKey e.name.shown = l)
      (h : s.DeclaresAs (l, kind)) : kind = .entity := by
    subst hl
    exact hs.kind_of_stem hc h rfl
  have hstem {name : String} : entityKey e.name.shown ≠ componentKey name := fun h =>
    append_ne_of_stems (by decide) (by decide) (by decide) _ _ (Key.text.inj h)
  constructor
  · rintro ⟨k, kind, hedge, -, -⟩
    generalize ht : entityKey e.name.shown = t at hedge
    cases hedge with
    | belongsTo _ hfound _ hl =>
      have hcapability := List.mem_of_find?_eq_some hfound
      exact absurd (hkind .capability ht ⟨_, hcapability, hl⟩) (by decide)
    | implements => exact absurd ht hstem
    | usesEntity hx hname _ => exact .inl ⟨_, hx, _, hname, (entityKey_injective ht).symm⟩
    | featuresRelate hr _ => exact absurd (hkind _ ht (hs.declares_feature hr).2) (by decide)
    | owns => exact absurd ht hstem
    | journeysRelate hr _ => exact absurd (hkind _ ht (hs.declares_journey hr).2) (by decide)
    | traverses => exact absurd ht hstem
    | flows => exact absurd ht hstem
    | validates hx hname _ => exact .inr ⟨_, hx, _, hname, (entityKey_injective ht).symm⟩
    | enforces => exact absurd ht hstem
  · rintro (⟨x, hx, name, hname, hshown⟩ | ⟨x, hx, name, hname, hshown⟩)
    · have hid : x.id ∈ s.context.ids := List.mem_append_left _ (List.mem_append_left _
        (List.mem_append_right _ (List.mem_map_of_mem hx)))
      obtain ⟨k, hk⟩ := hids x.id hid
      exact ⟨k, .uses, hshown ▸ .usesEntity hx hname hk, .capability hx hk, .entity he⟩
    · have hid : x.id ∈ s.context.ids :=
        List.mem_append_left _ (List.mem_append_right _ (List.mem_map_of_mem hx))
      obtain ⟨k, hk⟩ := hids x.id hid
      exact ⟨k, .validates, hshown ▸ .validates hx hname hk, .rule hx hk, .entity he⟩

end Graph.Sources.Found

namespace Graph

section

variable [Scalar α] [Coordinate β] {s : Sources α} {settings : GraphSettings β} {now : Moment}
  {g : Graph α β}

theorem collapses_of_build (h : build settings now s = .done g) {n : Network α}
    (hn : Network.ofGraph g = .ok n) : n.Collapses g.arena.nodes g.arena.edges := by
  have hshows := shows_of_build h
  refine Network.collapses_ofLists hn (nodup_of_build h) fun e he => ?_
  obtain ⟨-, hsource, htarget⟩ := (hshows.edges e.key).mp (List.mem_map_of_mem he)
  exact ⟨(hshows.nodes _).mpr hsource, (hshows.nodes _).mpr htarget⟩

theorem mem_typedKeys_of_build (hs : s.Found) (hc : s.context.Separate)
    (h : build settings now s = .done g) (k : Key) (kind : NodeKind) :
    (k, kind) ∈ g.arena.nodes.map Node.typedKey ↔ s.DeclaresAs (k, kind) := by
  have htypes := types_of_build h
  refine ⟨htypes _, fun hdeclared => ?_⟩
  have hnode := ((shows_of_build h).nodes k).mpr (Sources.declaresNode_iff.mpr ⟨kind, hdeclared⟩)
  obtain ⟨n, hn, rfl⟩ := List.mem_map.mp hnode
  have htyped : (n.id.key, n.kind) ∈ g.arena.typedKeys := List.mem_map_of_mem hn
  exact hs.kind_unique hc (htypes _ htyped) hdeclared ▸ htyped

end

/-- The gaps of coverage that are reported are those that the sources leave, and no others. -/
structure Sources.Reports (s : Sources α) (gs : List Gap) : Prop where
  unimplemented : ∀ k, k ∈ (gapsOf .unimplemented gs).map (·.node.key) ↔
    ∃ x ∈ s.context.stories, x.id.key? = some k ∧
      ∀ name ∈ x.components, name.shown ∉ s.features.mappings.map (·.name)
  untraversed : ∀ k, k ∈ (gapsOf .untraversed gs).map (·.node.key) ↔
    ∃ m ∈ s.features.mappings, componentKey m.name = k ∧
      ∀ j ∈ s.journeys.journeys, ∀ step ∈ j.steps, step.component ≠ m.name
  unused : ∀ k, k ∈ (gapsOf .unused gs).map (·.node.key) ↔
    ∃ e ∈ s.context.entities, entityKey e.name.shown = k ∧
      (∀ x ∈ s.context.capabilities, ∀ name ∈ x.entities, name.shown ≠ e.name.shown) ∧
      ∀ x ∈ s.context.rules, ∀ name ∈ x.entities, name.shown ≠ e.name.shown

private theorem keys_of_nodes {gs : List Gap} {vs : List (NetworkNode α)}
    (h : gs.map (·.node) = vs.map (·.id)) : gs.map (·.node.key) = vs.map (·.id.key) := by
  have hkeys := congrArg (List.map Ident.key) h
  rwa [List.map_map, List.map_map] at hkeys

variable [Coordinate β] {s : Sources Number} {settings : GraphSettings β} {now : Moment}
  {g : Graph Number β} {n : Network Number}

theorem reports_of_build (hs : s.Found) (hc : s.context.Separate)
    (h : build settings now s = .done g) (hn : Network.ofGraph g = .ok n) {gs : List Gap}
    (hgs : n.gaps = .ok gs) : s.Reports gs := by
  have hcollapses := collapses_of_build h hn
  have hkinds := mem_typedKeys_of_build hs hc h
  have hdraws (k : EdgeKey) : k ∈ g.arena.edges.map Edge.key ↔ s.Draws k :=
    (shows_of_build h).edges k
  obtain ⟨hstories, hcomponents, hentities⟩ := Network.nodes_of_gaps hgs
  refine ⟨fun k => ?_, fun k => ?_, fun k => ?_⟩
  · rw [keys_of_nodes hstories, hcollapses.mem_unimplemented, hkinds]
    simp only [hdraws]
    constructor
    · rintro ⟨⟨x, hx, hk⟩, hnone⟩
      rw [hs.implemented_iff hc hx hk] at hnone
      exact ⟨x, hx, hk, fun name hname hmapped => hnone ⟨name, hname, hmapped⟩⟩
    · rintro ⟨x, hx, hk, hnone⟩
      rw [hs.implemented_iff hc hx hk]
      exact ⟨⟨x, hx, hk⟩, fun ⟨name, hname, hmapped⟩ => hnone name hname hmapped⟩
  · rw [keys_of_nodes hcomponents, hcollapses.mem_untraversed (nodup_of_build h), hkinds]
    simp only [hdraws, hkinds]
    constructor
    · rintro ⟨⟨m, hm, rfl⟩, hnone⟩
      rw [← componentKey, hs.traversed_iff hc hm] at hnone
      exact ⟨m, hm, rfl, fun j hj step hstep hname => hnone ⟨j, hj, step, hstep, hname⟩⟩
    · rintro ⟨m, hm, rfl, hnone⟩
      rw [hs.traversed_iff hc hm]
      exact ⟨⟨m, hm, rfl⟩, fun ⟨j, hj, step, hstep, hname⟩ => hnone j hj step hstep hname⟩
  · have hids := identified_of_build h
    rw [keys_of_nodes hentities, hcollapses.mem_unused, hkinds]
    simp only [hdraws]
    constructor
    · rintro ⟨⟨e, he, rfl⟩, hnone⟩
      rw [← entityKey, hs.used_iff hc hids he, not_or] at hnone
      exact ⟨e, he, rfl, fun x hx name hname hshown => hnone.1 ⟨x, hx, name, hname, hshown⟩,
        fun x hx name hname hshown => hnone.2 ⟨x, hx, name, hname, hshown⟩⟩
    · rintro ⟨e, he, rfl, hcapabilities, hrules⟩
      rw [hs.used_iff hc hids he, not_or]
      exact ⟨⟨e, he, rfl⟩, fun ⟨x, hx, name, hname, hshown⟩ => hcapabilities x hx name hname hshown,
        fun ⟨x, hx, name, hname, hshown⟩ => hrules x hx name hname hshown⟩

theorem text_of_key {i : Ident} {t : String} (h : i.key = .text t) : i = .text t := by
  have hkey : i.toJson.key? = some (.text t) := by
    rw [Json.key?, Ident.ident?_toJson, Option.map_some, h]
  have htext := Json.key?_eq_some_text.mp hkey
  cases i <;> cases htext
  rfl

theorem text_of_declares (hs : s.Found) (hids : ∀ id ∈ s.context.ids, id.isText = true)
    {k : Key} (h : s.DeclaresNode k) : ∃ t, k = .text t := by
  obtain ⟨kind, hkind⟩ := Sources.declaresNode_iff.mp h
  rcases hs.origin hkind with ⟨stem, name, -, rfl⟩ | ⟨-, id, hid, hk⟩
  · exact ⟨_, rfl⟩
  · have htext := hids id (Context.mem_ids_of_kindedIds hid)
    cases id <;> cases htext
    exact ⟨_, (Option.some.inj hk).symm⟩

theorem exists_network_of_build (hs : s.Found) (hids : ∀ id ∈ s.context.ids, id.isText = true)
    (h : build settings now s = .done g) : ∃ n, Network.ofGraph g = .ok n := by
  have hshows := shows_of_build h
  have hnull {i : Ident} (hi : s.DeclaresNode i.key) : i ≠ .null := by
    obtain ⟨t, ht⟩ := text_of_declares hs hids hi
    rw [text_of_key ht]
    exact nofun
  refine Network.exists_ofLists (fun v hv => ?_) fun e he => ?_
  · exact hnull ((hshows.nodes _).mp (List.mem_map_of_mem hv))
  · obtain ⟨-, hsource, htarget⟩ := (hshows.edges e.key).mp (List.mem_map_of_mem he)
    exact ⟨hnull hsource, hnull htarget⟩

/-- All nodes of the network have texts for ids where the requirements do. -/
theorem text_of_network (hs : s.Found) (hids : ∀ id ∈ s.context.ids, id.isText = true)
    (h : build settings now s = .done g) (hn : Network.ofGraph g = .ok n) :
    ∀ v ∈ n.nodes, ∃ t, v.id = .text t := by
  intro v hv
  rw [(collapses_of_build h hn).nodes_eq] at hv
  obtain ⟨node, hnode, rfl⟩ := List.mem_map.mp hv
  have hdeclared := ((shows_of_build h).nodes node.id.key).mp (List.mem_map_of_mem hnode)
  obtain ⟨t, ht⟩ := text_of_declares hs hids hdeclared
  exact ⟨t, text_of_key ht⟩

theorem exists_gaps_of_build (hs : s.Found) (hids : ∀ id ∈ s.context.ids, id.isText = true)
    (h : build settings now s = .done g) (hn : Network.ofGraph g = .ok n) :
    ∃ gs, n.gaps = .ok gs := by
  refine Network.exists_gaps (fun v hv => ?_) (text_of_network hs hids h hn)
  rw [(collapses_of_build h hn).nodes_eq] at hv
  obtain ⟨node, -, rfl⟩ := List.mem_map.mp hv
  rfl

end Graph

namespace Atlas

/-- The gaps of coverage of a run are exact where an id tells what it is the id of, and they are all
found where the ids of the requirements are texts. -/
theorem reports_make (config : Config) (now : Moment) (analyse : Bool) (p : Project)
    (c : Context Number) (a : Atlas) (h : make config now analyse p c = .ok a) (hc : c.Separate) :
    a.sources.context = c ∧ (∀ gs, a.network.gaps = .ok gs → a.sources.Reports gs) ∧
      ((∀ id ∈ c.ids, id.isText = true) → ∃ gs, a.network.gaps = .ok gs) := by
  obtain ⟨hcontext, hfound, hbuilt, hnetwork⟩ := stages_of_make h
  rw [← hcontext] at hc ⊢
  exact ⟨rfl, fun gs hgs => Graph.reports_of_build hfound hc hbuilt hnetwork hgs,
    fun hids => Graph.exists_gaps_of_build hfound hids hbuilt hnetwork⟩

/-- The home page contains the cart, and nothing contains the badge. -/
private def stallProject : Project :=
  ⟨[⟨.text "HomePage", .text "", .text "function", [⟨.text "onClick", .text "unknown", false⟩], [],
      [.text "Cart"], []⟩,
    ⟨.text "Cart", .text "", .text "function", [⟨.text "onClick", .text "unknown", false⟩], [], [],
      []⟩,
    ⟨.text "Badge", .text "", .text "function", [], [], [], []⟩], [], []⟩

/-- One story is implemented by the cart and one by nothing that is known. -/
private def stallContext : Context Number where
  stories := [("pay", "Cart"), ("wish", "Ghost")].map fun (id, name) =>
    ⟨.text id, .text "", .text "", .text "buyer", .text "high", .int 1, .text "", .text "",
      .text "simple", [.text name], [], .null⟩
  capabilities := [⟨.text "sales", .text "Sales", .text "", [], [.text "Cart"], [.text "Order"], [],
    .text "core", .record []⟩]
  entities := ["Order", "Coupon"].map fun name => ⟨.text name, [], [], [], .text "", .null⟩
  rules := [⟨.text "limit", .text "", .text "workflow", [.text "Cart"], [.text "Order"], [], [],
    .null⟩]
  personas := [⟨.text "buyer", .text "Buyer", .text "", [], [], .null⟩]

private def stallIds : List String := ["pay", "wish", "sales", "limit", "buyer"]

private theorem separate_stall : stallContext.Separate where
  distinct := by decide +kernel
  apart := Context.apart_of_heads stallIds rfl (by decide)

theorem reports_make_stall : ∃ a gs,
    make .default ⟨2024, 1, 2, 3, 4, 5, 0⟩ false stallProject stallContext = .ok a ∧
      stallContext.Separate ∧ a.network.gaps = .ok gs ∧ a.sources.Reports gs := by
  have hmade : (make .default ⟨2024, 1, 2, 3, 4, 5, 0⟩ false stallProject
    stallContext).toOption.isSome = true := by decide +kernel
  obtain ⟨a, ha⟩ := Option.isSome_iff_exists.mp hmade
  have h := toOption_eq_some.mp ha
  obtain ⟨-, hreports, hfound⟩ :=
    reports_make .default _ false stallProject stallContext a h separate_stall
  obtain ⟨gs, hgs⟩ := hfound (by decide +kernel)
  exact ⟨a, gs, h, separate_stall, hgs, hreports gs hgs⟩

end Atlas

end BusinessAtlas
