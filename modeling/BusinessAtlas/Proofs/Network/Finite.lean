import BusinessAtlas.Network.Basic
import BusinessAtlas.Proofs.Graph.Finite

/-!
# Finite networks

The network of a finite graph is finite: its nodes keep the labels and scores of the graph, and the
weight of a link is that of one of its edges.
-/

namespace BusinessAtlas

/-- The values that are shown of the node are finite. -/
structure NetworkNode.Finite (n : NetworkNode Number) : Prop where
  id : n.id.toJson.Finite
  attributes : ∀ a, n.attributes = some a → a.label.Finite ∧ a.importance.Finite

/-- The values that are shown of the link are finite. -/
structure Link.Finite (l : Link Number) : Prop where
  source : l.source.toJson.Finite
  target : l.target.toJson.Finite
  weight : l.weight.Finite

/-- The values that are shown of the network are finite. -/
structure Network.Finite (n : Network Number) : Prop where
  nodes : ∀ v ∈ n.nodes, v.Finite
  links : ∀ l ∈ n.links, l.Finite

namespace Network

variable {n : Network Number}

private theorem finite_putNode {id : Ident} {a : NodeAttributes Number}
    {vs : List (NetworkNode Number)} (hid : id.toJson.Finite)
    (ha : a.label.Finite ∧ a.importance.Finite) (h : ∀ v ∈ vs, v.Finite) :
    ∀ v ∈ putNode id a vs, v.Finite := by
  have hnew (i : Ident) (hi : i.toJson.Finite) : NetworkNode.Finite ⟨i, some a⟩ :=
    ⟨hi, fun _ hb => Option.some.inj hb ▸ ha⟩
  induction vs with
  | nil => exact List.forall_mem_singleton.mpr (hnew id hid)
  | cons v rest ih =>
    obtain ⟨hv, hrest⟩ := List.forall_mem_cons.mp h
    unfold putNode
    split
    · exact List.forall_mem_cons.mpr ⟨hnew v.id hv.id, hrest⟩
    · exact List.forall_mem_cons.mpr ⟨hv, ih hrest⟩

private theorem finite_putLink {e : Edge Number} {ls : List (Link Number)} (he : e.Finite)
    (h : ∀ l ∈ ls, l.Finite) : ∀ l ∈ putLink e ls, l.Finite := by
  induction ls with
  | nil => exact List.forall_mem_singleton.mpr ⟨he.source, he.target, he.weight⟩
  | cons l rest ih =>
    obtain ⟨hl, hrest⟩ := List.forall_mem_cons.mp h
    unfold putLink
    split
    · have hweight : (Scalar.larger l.weight e.weight).Finite := by
        unfold Scalar.larger
        split
        · exact he.weight
        · exact hl.weight
      exact List.forall_mem_cons.mpr ⟨⟨hl.source, hl.target, hweight⟩, hrest⟩
    · exact List.forall_mem_cons.mpr ⟨hl, ih hrest⟩

private theorem Finite.mention {id : Ident} (hn : n.Finite) (hid : id.toJson.Finite) :
    (n.mention id).Finite := by
  unfold Network.mention
  split
  · exact hn
  · exact ⟨List.forall_mem_append.mpr ⟨hn.nodes, List.forall_mem_singleton.mpr ⟨hid, nofun⟩⟩, hn.links⟩

theorem finite_ofGraph {g : Graph Number Json} {k : Nat} (h : g.Bounded k) :
    Yields (ofGraph g) Network.Finite := by
  have hempty : (⟨[], []⟩ : Network Number).Finite :=
    ⟨List.forall_mem_nil _, List.forall_mem_nil _⟩
  have hnodes : Yields (g.arena.nodes.foldlM addNode ⟨[], []⟩) Network.Finite := by
    refine yields_foldlM hempty fun m hm n hn => ?_
    have hfinite := h.nodes m hm
    refine Yields.bind (yields_true _) fun _ _ => yields_ok ⟨?_, hn.links⟩
    exact finite_putNode hfinite.id ⟨hfinite.label, hfinite.importance.finite⟩ hn.nodes
  refine Yields.bind hnodes fun n hn => yields_foldlM hn fun e he n hn => ?_
  have hfinite := h.edges e he
  refine Yields.bind (yields_true _) fun _ _ => ?_
  refine Yields.bind (yields_true _) fun _ _ => yields_ok ?_
  have hmentioned := (hn.mention hfinite.source).mention hfinite.target
  exact ⟨hmentioned.nodes, finite_putLink hfinite hmentioned.links⟩

theorem Finite.toJson (h : n.Finite) : n.toJson.Finite := by
  have hnode : ∀ v ∈ n.nodes, v.toJson.Finite := by
    intro v hv
    have hfinite := h.nodes v hv
    unfold NetworkNode.toJson
    split
    · next a ha =>
      obtain ⟨hlabel, himportance⟩ := hfinite.attributes a ha
      simpa using ⟨hlabel, himportance, hfinite.id⟩
    · simpa using hfinite.id
  have hlink : ∀ l ∈ n.links, l.toJson.Finite := by
    intro l hl
    have hfinite := h.links l hl
    simpa [Link.toJson] using ⟨hfinite.weight, hfinite.source, hfinite.target⟩
  have hlinks : ∀ l ∈ n.nodes.flatMap fun v => n.linksFrom v.id, l.toJson.Finite := by
    intro l hl
    obtain ⟨v, -, hl⟩ := List.mem_flatMap.mp hl
    exact hlink l (List.mem_of_mem_filter hl)
  refine Json.finite_record.mpr ?_
  simp only [List.forall_mem_cons]
  exact ⟨Json.finite_bool _, Json.finite_bool _, Json.finite_record.mpr (List.forall_mem_nil _),
    Json.finite_list.mpr (List.forall_mem_map.mpr hnode),
    Json.finite_list.mpr (List.forall_mem_map.mpr hlinks), List.forall_mem_nil _⟩

end Network

end BusinessAtlas
