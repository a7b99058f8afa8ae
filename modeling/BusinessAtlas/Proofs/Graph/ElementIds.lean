import BusinessAtlas.Graph.Builder
import BusinessAtlas.Proofs.Graph.Drawn
import BusinessAtlas.Proofs.Text.Joined

/-!
# The ids of exported elements

An edge has no id of its own. It is drawn under one that joins the ids of its ends and its kind with
hyphens, or, in the flow of data, the ids of two steps. Ids and names may hold hyphens themselves, so
two edges may be drawn under one id. What can be relied on is that the kind of an edge can be read
off its id; the ends cannot, unless no id goes on where another one stops.
-/

namespace BusinessAtlas

theorem EdgeKind.hyphen_notMem_name (k : EdgeKind) : '-' ∉ k.name.toList := by
  cases k <;> decide

theorem EdgeKind.name_injective : Function.Injective EdgeKind.name := by
  intro k l h
  have := congrArg EdgeKind.ofName? h
  simpa using this

theorem EdgeKind.name_ne_toString (k : EdgeKind) (n : Nat) : k.name ≠ toString n := by
  have hletter : ∃ c ∈ k.name.toList, c.isDigit = false := by
    cases k <;> exact ⟨_, List.mem_cons_self, rfl⟩
  obtain ⟨c, hc, hdigit⟩ := hletter
  intro h
  rw [h] at hc
  rw [isDigit_of_mem_toString hc] at hdigit
  cases hdigit

variable {α β : Type}

namespace Edge

/-- The ends of an edge as they stand in its id. -/
def joined (e : Edge α) : String := e.source.toJson.shown ++ "-" ++ e.target.toJson.shown

/-- The edge is drawn under the id that joins its ends and its kind. -/
private structure Labelled (e : Edge α) : Prop where
  kind : e.kind ≠ .transforms
  id : e.id = "edge-" ++ e.joined ++ "-" ++ e.kind.name

private theorem labelled_of {e : Edge α} (kind : EdgeKind) (hk : e.kind = kind)
    (hkind : kind ≠ .transforms)
    (hid : e.id = "edge-" ++ e.source.toJson.shown ++ "-" ++ e.target.toJson.shown ++ "-" ++
      e.kind.name) : e.Labelled := by
  refine ⟨hk ▸ hkind, hid.trans ?_⟩
  simp only [joined, String.append_assoc]

end Edge

theorem RelationshipKind.edge_ne_transforms {k : RelationshipKind} {kind : EdgeKind}
    (h : k.edge = .ok kind) : kind ≠ .transforms := by
  rintro rfl
  cases k <;> cases h

theorem JourneyRelationshipKind.edge_ne_transforms {k : JourneyRelationshipKind} {kind : EdgeKind}
    (h : k.edge = .ok kind) : kind ≠ .transforms := by
  rintro rfl
  cases k <;> cases h

namespace Graph

variable [Scalar α] {s : Sources α}

/-- The edge is drawn under its default id, or it belongs to the flow of data. -/
private def Drawable (s : Sources α) (e : Edge α) : Prop :=
  e.Labelled ∨ ∃ f ∈ s.journeys.flow.edges, e = f.edge

private theorem Sources.DrawsEdge.drawable {e : Edge α} (h : s.DrawsEdge e) : Drawable s e := by
  cases h with
  | story _ h =>
    cases h with
    | belongsTo => exact .inl (Edge.labelled_of .belongsTo rfl (by decide) rfl)
    | implements => exact .inl (Edge.labelled_of .implements rfl (by decide) rfl)
  | capability _ h =>
    obtain ⟨-, -⟩ := h
    exact .inl (Edge.labelled_of .uses rfl (by decide) rfl)
  | relationship _ h =>
    obtain ⟨hkind⟩ := h
    exact .inl (Edge.labelled_of _ rfl (RelationshipKind.edge_ne_transforms hkind) rfl)
  | feature _ h =>
    obtain ⟨name, -, rfl⟩ := List.mem_map.mp h
    exact .inl (Edge.labelled_of .uses rfl (by decide) rfl)
  | journeyRelationship _ h =>
    obtain ⟨hkind⟩ := h
    exact .inl (Edge.labelled_of _ rfl (JourneyRelationshipKind.edge_ne_transforms hkind) rfl)
  | journey _ h =>
    obtain ⟨name, -, rfl⟩ := List.mem_map.mp h
    exact .inl (Edge.labelled_of .uses rfl (by decide) rfl)
  | flow hf => exact .inr ⟨_, hf, rfl⟩
  | rule _ h =>
    cases h with
    | validates => exact .inl (Edge.labelled_of .validates rfl (by decide) rfl)
    | enforces => exact .inl (Edge.labelled_of .implements rfl (by decide) rfl)

private theorem offers_drawable (s : Sources α) :
    Offers (β := β) .edge (fun es => ∀ e ∈ es, Drawable s e) (addAllEdges s) :=
  (offers_draws s).imp fun _ hes e he => ((hes e).mp he).drawable

/-- An edge of the flow is drawn under the ids of two steps of journeys, which are at its ends. -/
private def Stepped (s : Sources α) (e : Edge α) : Prop :=
  e.kind = .transforms ∧ ∃ first ∈ s.journeys.journeys.flatMap (·.steps),
    ∃ second ∈ s.journeys.journeys.flatMap (·.steps),
      e.id = "edge-" ++ first.id ++ "-" ++ second.id ∧
      e.key = ⟨componentKey first.component, componentKey second.component, .transforms⟩

/-- Ids tell the edges of one kind apart, and nodes from edges. -/
structure Legible (g : Graph α β) : Prop where
  drawn : ∀ e ∈ g.arena.edges, ∀ f ∈ g.arena.edges, e.kind = f.kind → e.kind ≠ .transforms →
    e.joined = f.joined → e.key = f.key
  flow : ∀ e ∈ g.arena.edges, ∀ f ∈ g.arena.edges, e.kind = .transforms → f.kind = .transforms →
    e.id = f.id → e.key = f.key
  nodes : ∀ n ∈ g.arena.nodes, ∀ e ∈ g.arena.edges, n.id ≠ .text e.id

/-- The ids that stand at the ends of edges. -/
def ends (g : Graph α β) : List Ident := g.arena.edges.flatMap fun e => [e.source, e.target]

end Graph

/-- Where a text goes on after another one and a hyphen, no text begins with what comes there. -/
def Separate (texts : List String) : Prop :=
  ∀ s ∈ texts, ∀ t ∈ texts, ∀ u ∈ texts, (s ++ "-").toList <+: t.toList →
    ¬t.toList.drop (s ++ "-").length ++ ['-'] <+: u.toList

instance (texts : List String) : Decidable (Separate texts) := by
  unfold Separate
  infer_instance

private theorem Separate.eq_of_joined {texts : List String} (h : Separate texts) {a b c d : String}
    (ha : a ∈ texts) (hb : b ∈ texts) (hc : c ∈ texts) (hd : d ∈ texts)
    (hjoined : a ++ "-" ++ b = c ++ "-" ++ d) : a = c ∧ b = d := by
  have hnone {s t u x y : String} (hs : s ∈ texts) (ht : t ∈ texts) (hu : u ∈ texts)
      (htx : t = s ++ "-" ++ x) (huy : u = x ++ "-" ++ y) : False := by
    have hdrop : t.toList.drop (s ++ "-").length = x.toList := by
      rw [htx, String.toList_append, ← String.length_toList, List.drop_left]
    refine h s hs t ht u hu ⟨x.toList, htx ▸ String.toList_append.symm⟩ ?_
    rw [hdrop, huy]
    exact ⟨y.toList, by simp⟩
  rcases joined_eq_joined hjoined with h | ⟨x, hx, hy⟩ | ⟨x, hx, hy⟩
  · exact h
  · exact (hnone ha hc hb hx hy).elim
  · exact (hnone hc ha hd hx hy).elim

namespace Json

/-- What identifies the elements of a drawing, in their order. -/
def elementKeys (drawing : Json) : List (Option Key) :=
  match drawing.field? "elements" with
  | some (.list elements) =>
    elements.map fun e => ((e.field? "data").bind (·.field? "id")).bind Json.key?
  | _ => []

end Json

private theorem Ident.key_toJson (i : Ident) : i.toJson.key? = some i.key := by
  rw [Json.key?, Ident.ident?_toJson]
  rfl

private theorem Ident.eq_text_of_key {i : Ident} {s : String} (h : i.key = .text s) :
    i = .text s := by
  have hjson : i.toJson = .text s := Json.key?_eq_some_text.mp (h ▸ i.key_toJson)
  cases i <;> cases hjson
  rfl

theorem Graph.elementKeys_toElements (metadata positions : Bool) (g : Graph Number Json) :
    (g.toElements metadata positions).elementKeys =
      g.arena.nodes.map (fun n => some n.id.key) ++
        g.arena.edges.map fun e => some (.text e.id) := by
  have hnode (n : Node Number Json) : (((n.toElement metadata positions).field? "data").bind
      (·.field? "id")).bind Json.key? = some n.id.key := n.id.key_toJson
  have helements : (g.toElements metadata positions).elementKeys =
      (g.arena.nodes.map (Node.toElement metadata positions) ++
        g.arena.edges.map Edge.toElement).map fun e =>
          ((e.field? "data").bind (·.field? "id")).bind Json.key? := rfl
  rw [helements, List.map_append, List.map_map, List.map_map]
  congr 1
  exact List.map_congr_left fun n _ => hnode n

namespace Atlas

variable {config : Config} {now : Moment} {analyse : Bool} {p : Project} {c : Context Number}
  {a : Atlas}

private theorem stepId_of_make (h : make config now analyse p c = .ok a) :
    ∀ s ∈ a.sources.journeys.journeys.flatMap (·.steps), ∃ i, s.id = stepId s.component i := by
  intro s hs
  obtain ⟨-, -, hjourneys⟩ := Graph.Sources.stages_of_project (parts_of_make h).1
  obtain ⟨j, hj, hs⟩ := List.mem_flatMap.mp hs
  obtain ⟨taken, entry, k, htrace, rfl⟩ := JourneyMap.origin_of_build hjourneys hj
  exact Terrain.stepId_of_trace htrace hs

private theorem drawn_of_make (h : make config now analyse p c = .ok a) :
    ∀ e ∈ a.graph.arena.edges, e.Labelled ∨ Graph.Stepped a.sources e := by
  obtain ⟨-, hfound, hbuilt, -⟩ := stages_of_make h
  obtain ⟨t, -, htraced⟩ := hfound.traced
  intro e he
  rcases Graph.edges_forall_of_build (Graph.offers_drawable a.sources) hbuilt e he with
    hlabelled | ⟨f, hf, rfl⟩
  · exact .inl hlabelled
  · rw [htraced.edges_eq] at hf
    obtain ⟨j, hj, hf⟩ := List.mem_flatMap.mp (mem_of_mem_firstPer hf)
    obtain ⟨⟨first, second⟩, hpair, rfl⟩ := List.mem_map.mp hf
    obtain ⟨hfirst, hsecond⟩ := List.of_mem_zip hpair
    have hnonempty : (FlowEdge.ofTransition j (first, second)).id.isEmpty = false := by
      simp [FlowEdge.ofTransition, String.isEmpty_eq_false_iff]
    refine .inr ⟨rfl, first, List.mem_flatMap.mpr ⟨j, hj, hfirst⟩, second,
      List.mem_flatMap.mpr ⟨j, hj, List.mem_of_mem_tail hsecond⟩, ?_, rfl⟩
    simp only [FlowEdge.edge, hnonempty]
    rfl

private theorem kind_of_id (h : make config now analyse p c = .ok a) {e f : Edge Number}
    (he : e ∈ a.graph.arena.edges) (hf : f ∈ a.graph.arena.edges) (hid : e.id = f.id) :
    e.kind = f.kind ∧ (e.kind ≠ .transforms → e.joined = f.joined) := by
  have hmixed {e f : Edge Number} (he : e.Labelled) (hf : Graph.Stepped a.sources f)
      (hid : e.id = f.id) : False := by
    obtain ⟨-, first, -, second, hsecond, hfid, -⟩ := hf
    obtain ⟨i, hi⟩ := stepId_of_make h second hsecond
    have hlast : "edge-" ++ e.joined ++ "-" ++ e.kind.name =
        "edge-" ++ first.id ++ "-" ++ ("step-" ++ second.component) ++ "-" ++ toString i := by
      rw [← he.id, hid, hfid, hi, stepId]
      simp only [String.append_assoc]
    have hname := (last_eq_last e.kind.hyphen_notMem_name (hyphen_notMem_toString i) hlast).2
    exact e.kind.name_ne_toString i hname
  rcases drawn_of_make h e he with hel | hes
  · rcases drawn_of_make h f hf with hfl | hfs
    · rw [hel.id, hfl.id] at hid
      obtain ⟨hjoined, hname⟩ :=
        last_eq_last e.kind.hyphen_notMem_name f.kind.hyphen_notMem_name hid
      exact ⟨EdgeKind.name_injective hname, fun _ => (String.append_right_inj _).mp hjoined⟩
    · exact (hmixed hel hfs hid).elim
  · rcases drawn_of_make h f hf with hfl | hfs
    · exact (hmixed hfl hes hid.symm).elim
    · exact ⟨hes.1.trans hfs.1.symm, fun hkind => absurd hes.1 hkind⟩

/-- No id of a node or step goes on where another one stops with what a third one begins with, ids
that are shown alike are one, and no node has an id that begins like that of an edge. -/
structure Apart (a : Atlas) : Prop where
  shown : ∀ i ∈ a.graph.ends, ∀ j ∈ a.graph.ends, i.toJson.shown = j.toJson.shown → i.key = j.key
  ends : Separate (a.graph.ends.map (·.toJson.shown))
  steps : Separate ((a.sources.journeys.journeys.flatMap (·.steps)).map (·.id))
  nodes : ∀ n ∈ a.graph.arena.nodes, ¬"edge-".toList <+: n.id.toJson.shown.toList

instance (a : Atlas) : Decidable a.Apart :=
  decidable_of_iff
    ((∀ i ∈ a.graph.ends, ∀ j ∈ a.graph.ends, i.toJson.shown = j.toJson.shown → i.key = j.key) ∧
      Separate (a.graph.ends.map (·.toJson.shown)) ∧
      Separate ((a.sources.journeys.journeys.flatMap (·.steps)).map (·.id)) ∧
      ∀ n ∈ a.graph.arena.nodes, ¬"edge-".toList <+: n.id.toJson.shown.toList)
    ⟨fun ⟨h₁, h₂, h₃, h₄⟩ => ⟨h₁, h₂, h₃, h₄⟩, fun ⟨h₁, h₂, h₃, h₄⟩ => ⟨h₁, h₂, h₃, h₄⟩⟩

private theorem edge_stem {e : Edge Number} (h : e.Labelled ∨ Graph.Stepped a.sources e) :
    "edge-".toList <+: e.id.toList := by
  rcases h with hlabelled | ⟨-, first, -, second, -, hid, -⟩
  · rw [hlabelled.id]
    simp only [String.append_assoc, String.toList_append]
    exact List.prefix_append _ _
  · rw [hid]
    simp only [String.append_assoc, String.toList_append]
    exact List.prefix_append _ _

private theorem legible_of_apart (h : make config now analyse p c = .ok a) (ha : a.Apart) :
    a.graph.Legible := by
  refine ⟨fun e he f hf hkind _ hjoined => ?_, fun e he f hf hek hfk hid => ?_, fun n hn e he hid => ?_⟩
  · have hmem {e : Edge Number} (he : e ∈ a.graph.arena.edges) :
        e.source ∈ a.graph.ends ∧ e.target ∈ a.graph.ends :=
      ⟨List.mem_flatMap.mpr ⟨e, he, by simp⟩, List.mem_flatMap.mpr ⟨e, he, by simp⟩⟩
    have hshown {i : Ident} (hi : i ∈ a.graph.ends) :
        i.toJson.shown ∈ a.graph.ends.map (·.toJson.shown) := List.mem_map_of_mem hi
    obtain ⟨hsource, htarget⟩ := ha.ends.eq_of_joined (hshown (hmem he).1) (hshown (hmem he).2)
      (hshown (hmem hf).1) (hshown (hmem hf).2) hjoined
    rw [Edge.key, Edge.key, hkind, ha.shown _ (hmem he).1 _ (hmem hf).1 hsource,
      ha.shown _ (hmem he).2 _ (hmem hf).2 htarget]
  · have hstepped {e : Edge Number} (he : e ∈ a.graph.arena.edges) (hk : e.kind = .transforms) :
        Graph.Stepped a.sources e := (drawn_of_make h e he).resolve_left fun hl => hl.kind hk
    obtain ⟨-, first, hfirst, second, hsecond, heid, hekey⟩ := hstepped he hek
    obtain ⟨-, third, hthird, fourth, hfourth, hfid, hfkey⟩ := hstepped hf hfk
    rw [heid, hfid, String.append_assoc, String.append_assoc, String.append_assoc,
      String.append_assoc, String.append_right_inj, ← String.append_assoc, ← String.append_assoc] at hid
    obtain ⟨hone, htwo⟩ := ha.steps.eq_of_joined (List.mem_map_of_mem hfirst)
      (List.mem_map_of_mem hsecond) (List.mem_map_of_mem hthird) (List.mem_map_of_mem hfourth) hid
    have hcomponent {s u : Step Number} (hs : s ∈ a.sources.journeys.journeys.flatMap (·.steps))
        (hu : u ∈ a.sources.journeys.journeys.flatMap (·.steps)) (hid : s.id = u.id) :
        s.component = u.component := by
      obtain ⟨i, hi⟩ := stepId_of_make h s hs
      obtain ⟨j, hj⟩ := stepId_of_make h u hu
      exact (stepId_inj.mp (hi.symm.trans (hid.trans hj))).1
    rw [hekey, hfkey, hcomponent hfirst hthird hone, hcomponent hsecond hfourth htwo]
  · refine ha.nodes n hn ?_
    rw [hid]
    exact edge_stem (drawn_of_make h e he)

private theorem legible_of_nodup (h : make config now analyse p c = .ok a) {metadata positions : Bool}
    (hkeys : (a.graph.toElements metadata positions).elementKeys.Nodup) : a.graph.Legible := by
  rw [Graph.elementKeys_toElements, List.nodup_append] at hkeys
  obtain ⟨-, hids, hapart⟩ := hkeys
  have hsame : ∀ e ∈ a.graph.arena.edges, ∀ f ∈ a.graph.arena.edges, e.id = f.id → e = f :=
    fun e he f hf hid => List.inj_on_of_nodup_map hids he hf (by rw [hid])
  constructor
  · intro e he f hf hkind hflow hjoined
    have hel := (drawn_of_make h e he).resolve_right fun hs => hflow hs.1
    have hfl := (drawn_of_make h f hf).resolve_right fun hs => hflow (hkind.trans hs.1)
    rw [hsame e he f hf (by rw [hel.id, hfl.id, hkind, hjoined])]
  · intro e he f hf _ _ hid
    rw [hsame e he f hf hid]
  · intro n hn e he hid
    refine hapart _ (List.mem_map_of_mem hn) _ (List.mem_map_of_mem he) ?_
    rw [hid, Ident.key_text]

private theorem nodup_of_legible (h : make config now analyse p c = .ok a) (hl : a.graph.Legible)
    (metadata positions : Bool) : (a.graph.toElements metadata positions).elementKeys.Nodup := by
  obtain ⟨-, -, hbuilt, -⟩ := stages_of_make h
  have hkeys := Graph.nodup_edgeKeys_of_build hbuilt
  rw [Graph.elementKeys_toElements, List.nodup_append]
  refine ⟨?_, ?_, ?_⟩
  · have hnodes := (Graph.nodup_of_build hbuilt).map fun _ _ => Option.some.inj
    rwa [Arena.nodeKeys, List.map_map] at hnodes
  · have hids : ∀ e ∈ a.graph.arena.edges, ∀ f ∈ a.graph.arena.edges,
        some (Key.text e.id) = some (Key.text f.id) → e = f := by
      intro e he f hf hid
      have hid : e.id = f.id := Key.text.inj (Option.some.inj hid)
      obtain ⟨hkind, hjoined⟩ := kind_of_id h he hf hid
      refine List.inj_on_of_nodup_map hkeys he hf ?_
      by_cases hflow : e.kind = .transforms
      · exact hl.flow e he f hf hflow (hkind ▸ hflow) hid
      · exact hl.drawn e he f hf hkind hflow (hjoined hflow)
    exact List.Nodup.map_on hids (.of_map Edge.key hkeys)
  · intro x hx y hy hxy
    obtain ⟨n, hn, rfl⟩ := List.mem_map.mp hx
    obtain ⟨e, he, rfl⟩ := List.mem_map.mp hy
    exact hl.nodes n hn e he (Ident.eq_text_of_key (Option.some.inj hxy))

/-- The elements of a drawing have ids of their own just when edges of one kind join ends that can
be told apart in an id, transitions have ids of their own, and no node is called like an edge. This
is so where ids stand apart. -/
theorem nodup_elementKeys (config : Config) (now : Moment) (analyse : Bool) (p : Project)
    (c : Context Number) (a : Atlas) (h : make config now analyse p c = .ok a)
    (metadata positions : Bool) :
    ((a.graph.toElements metadata positions).elementKeys.Nodup ↔ a.graph.Legible) ∧
      (a.Apart → a.graph.Legible) := by
  refine ⟨⟨fun hkeys => ?_, fun hlegible => ?_⟩, legible_of_apart h⟩
  · exact legible_of_nodup h hkeys
  · exact nodup_of_legible h hlegible metadata positions

private def component (name : String) (children : List String) : Component :=
  ⟨.text name, .text "", .text "function", [⟨.text "onClick", .text "unknown", false⟩], [],
    children.map .text, []⟩

private def story (id : String) (components : List String) : Story Number :=
  ⟨.text id, .text id, .text "", .text "buyer", .text "high", .int 1, .text "", .text "",
    .text "simple", components.map .text, [], .null⟩

private def counterProject : Project := ⟨[component "HomePage" ["Till"], component "Till" []], [], []⟩

/-- Two stories; the id of the second goes on where that of the first one stops. -/
private def counterContext : Context Number where
  stories := [story "us-1" ["Till"], story "us-1-a" ["Till"]]
  capabilities := []
  entities := []
  rules := []
  personas := []

theorem nodup_elementKeys_counter : ∃ a,
    make .default ⟨2024, 1, 2, 3, 4, 5, 0⟩ false counterProject counterContext = .ok a ∧
      (a.graph.toElements true false).elementKeys.Nodup := by
  have hapart : ((make .default ⟨2024, 1, 2, 3, 4, 5, 0⟩ false counterProject
    counterContext).toOption.any fun a => decide a.Apart) = true := by decide +kernel
  obtain ⟨a, h, hapart⟩ := exists_of_any hapart
  obtain ⟨hiff, hlegible⟩ := nodup_elementKeys .default _ false counterProject counterContext a h
    true false
  exact ⟨a, h, hiff.mpr (hlegible (of_decide_eq_true hapart))⟩

private def mazeProject : Project := ⟨[component "y" [], component "x-component-y" []], [], []⟩

private def mazeContext : Context Number where
  stories := [story "s" ["x-component-y"], story "s-component-x" ["y"]]
  capabilities := []
  entities := []
  rules := []
  personas := []

/-- Two stories with ids of their own may be joined to their components under one id. -/
theorem not_nodup_elementKeys_maze :
    (mazeContext.stories.map (·.id)).Nodup ∧ (mazeContext.capabilities.map (·.id)).Nodup ∧
      ∃ a, make .default ⟨2024, 1, 2, 3, 4, 5, 0⟩ false mazeProject mazeContext = .ok a ∧
        ¬(a.graph.toElements true false).elementKeys.Nodup := by
  have hkeys : ((make .default ⟨2024, 1, 2, 3, 4, 5, 0⟩ false mazeProject
    mazeContext).toOption.any fun a =>
      !decide (a.graph.toElements true false).elementKeys.Nodup) = true := by decide +kernel
  obtain ⟨a, h, hkeys⟩ := exists_of_any hkeys
  refine ⟨by simp [mazeContext, story], List.nodup_nil, a, h, ?_⟩
  simpa using hkeys

end Atlas

end BusinessAtlas
