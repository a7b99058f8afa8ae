import BusinessAtlas.Graph.Basic
import BusinessAtlas.Grouping
import Mathlib.Data.List.Nodup
import Mathlib.Data.List.Perm.Basic

/-!
# What an arena holds

An arena that took any offers in any order holds the first node for every id and the first edge for
every key among those that came when both their ends were there. An edge that came too early leaves
no trace, so it may be offered again, and the order of consecutive edges does not decide which keys
the arena holds.
-/

namespace BusinessAtlas

variable {α β : Type}

/-- A node or an edge that is offered to an arena. -/
inductive Offer (α β : Type) where
  | node (n : Node α β)
  | edge (e : Edge α)

namespace Offer

def node? : Offer α β → Option (Node α β)
  | node n => some n
  | edge _ => none

def edge? : Offer α β → Option (Edge α)
  | node _ => none
  | edge e => some e

/-- The keys of the nodes among some offers. -/
def nodeKeys (offers : List (Offer α β)) : List Key := (offers.filterMap node?).map (·.id.key)

/-- The edges among some offers that come when both their ends are there, given the keys of the nodes
that are there at first. -/
def timely (stored : List Key) : List (Offer α β) → List (Edge α)
  | [] => []
  | node n :: rest => timely (n.id.key :: stored) rest
  | edge e :: rest =>
    if e.source.key ∈ stored ∧ e.target.key ∈ stored then e :: timely stored rest
    else timely stored rest

theorem timely_congr {stored stored' : List Key} (h : ∀ k, k ∈ stored ↔ k ∈ stored')
    (offers : List (Offer α β)) : timely stored offers = timely stored' offers := by
  induction offers generalizing stored stored' with
  | nil => rfl
  | cons o rest ih =>
    cases o with
    | node n => exact ih fun k => by simp [h k]
    | edge e => simp only [timely, h, ih h]

theorem timely_append (stored : List Key) (offers later : List (Offer α β)) :
    timely stored (offers ++ later) =
      timely stored offers ++ timely (nodeKeys offers ++ stored) later := by
  induction offers generalizing stored with
  | nil => rfl
  | cons o rest ih =>
    cases o with
    | node n =>
      have hk (k : Key) : k ∈ nodeKeys rest ++ n.id.key :: stored ↔
          k ∈ nodeKeys (node n :: rest) ++ stored := by
        simp only [nodeKeys, List.filterMap_cons, node?, List.map_cons, List.mem_append,
          List.mem_cons]
        tauto
      simp only [List.cons_append, timely, ih, timely_congr hk]
    | edge e =>
      have hk : nodeKeys (edge e :: rest) = nodeKeys rest := rfl
      by_cases h : e.source.key ∈ stored ∧ e.target.key ∈ stored
      · simp only [List.cons_append, timely, if_pos h, ih, hk]
      · simp only [List.cons_append, timely, if_neg h, ih, hk]

theorem nodeKeys_append (offers later : List (Offer α β)) :
    nodeKeys (offers ++ later) = nodeKeys offers ++ nodeKeys later := by
  rw [nodeKeys, List.filterMap_append, List.map_append]
  rfl

@[simp] theorem nodeKeys_nodes (ns : List (Node α β)) :
    nodeKeys (ns.map .node) = ns.map (·.id.key) := by
  simp [nodeKeys, node?, List.filterMap_map, Function.comp_def]

@[simp] theorem nodeKeys_edges (es : List (Edge α)) :
    nodeKeys (es.map (edge : Edge α → Offer α β)) = [] := by
  simp [nodeKeys, node?]

@[simp] theorem timely_nodes (stored : List Key) (ns : List (Node α β)) :
    timely stored (ns.map .node) = [] := by
  induction ns generalizing stored with
  | nil => rfl
  | cons n rest ih => exact ih _

/-- Of consecutive edges those come in time whose ends are there before. -/
theorem timely_edges (stored : List Key) (es : List (Edge α)) :
    timely stored (es.map (edge : Edge α → Offer α β)) =
      es.filter fun e => decide (e.source.key ∈ stored ∧ e.target.key ∈ stored) := by
  induction es with
  | nil => rfl
  | cons e rest ih =>
    by_cases h : e.source.key ∈ stored ∧ e.target.key ∈ stored
    · rw [List.map_cons, timely, if_pos h, ih, List.filter_cons_of_pos (by simpa using h)]
    · rw [List.map_cons, timely, if_neg h, ih, List.filter_cons_of_neg (by simpa using h)]

theorem ends_of_timely {stored : List Key} {offers : List (Offer α β)} {e : Edge α}
    (h : e ∈ timely stored offers) :
    e.source.key ∈ nodeKeys offers ++ stored ∧ e.target.key ∈ nodeKeys offers ++ stored := by
  induction offers generalizing stored with
  | nil => cases h
  | cons o rest ih =>
    cases o with
    | node n =>
      have hrest := ih h
      simp only [nodeKeys, List.filterMap_cons, node?, List.map_cons, List.mem_append,
        List.mem_cons] at hrest ⊢
      tauto
    | edge f =>
      by_cases hf : f.source.key ∈ stored ∧ f.target.key ∈ stored
      · rw [timely, if_pos hf] at h
        rcases List.mem_cons.mp h with rfl | h
        · exact ⟨List.mem_append_right _ hf.1, List.mem_append_right _ hf.2⟩
        · exact ih h
      · rw [timely, if_neg hf] at h
        exact ih h

end Offer

namespace Arena

/-- Takes an offer: whether something was added, and the arena after it. -/
def take (a : Arena α β) : Offer α β → Bool × Arena α β
  | .node n => (a.admitsNode n, a.addNode n)
  | .edge e => (a.admitsEdge e, a.addEdge e)

/-- The arena after some offers. -/
def takeAll (a : Arena α β) (offers : List (Offer α β)) : Arena α β :=
  offers.foldl (fun a o => (a.take o).2) a

theorem takeAll_append (a : Arena α β) (offers later : List (Offer α β)) :
    a.takeAll (offers ++ later) = (a.takeAll offers).takeAll later := List.foldl_append

/-- The keys of the nodes. -/
def nodeKeys (a : Arena α β) : List Key := a.nodes.map (·.id.key)

/-- The keys of the edges. -/
def edgeKeys (a : Arena α β) : List EdgeKey := a.edges.map Edge.key

/-- The lists hold the first offer of each kind, and the maps say where each one stands. -/
structure Holds (offers : List (Offer α β)) (a : Arena α β) : Prop where
  nodes_eq : a.nodes = firstPer (·.id.key) (offers.filterMap Offer.node?)
  edges_eq : a.edges = firstPer Edge.key (Offer.timely [] offers)
  nodeSlots_eq : a.nodeSlots = a.nodeKeys.zipIdx.reverse
  edgeSlots_eq : a.edgeSlots = a.edgeKeys.zipIdx.reverse

private theorem lookup_slots_isSome {κ : Type} [DecidableEq κ] (keys : List κ) (k : κ) :
    (keys.zipIdx.reverse.lookup k).isSome = true ↔ k ∈ keys := by
  rw [List.lookup_isSome_iff]
  constructor
  · rintro ⟨p, hp, hk⟩
    have hm := List.mem_zipIdx_iff_getElem?.mp (List.mem_reverse.mp hp)
    rw [eq_of_beq hk]
    exact List.mem_of_getElem? hm
  · intro hk
    obtain ⟨i, hi⟩ := List.mem_iff_getElem?.mp hk
    exact ⟨(k, i), List.mem_reverse.mpr (List.mem_zipIdx_iff_getElem?.mpr hi), beq_self_eq_true k⟩

namespace Holds

variable {offers : List (Offer α β)} {a : Arena α β}

theorem hasKey_iff (h : Holds offers a) (k : Key) : a.hasKey k = true ↔ k ∈ a.nodeKeys := by
  rw [hasKey, h.nodeSlots_eq, lookup_slots_isSome]

theorem hasEdge_iff (h : Holds offers a) (k : EdgeKey) : a.hasEdge k = true ↔ k ∈ a.edgeKeys := by
  rw [hasEdge, h.edgeSlots_eq, lookup_slots_isSome]

theorem mem_nodeKeys (h : Holds offers a) (k : Key) : k ∈ a.nodeKeys ↔ k ∈ Offer.nodeKeys offers := by
  rw [nodeKeys, h.nodes_eq]
  exact mem_map_firstPer _ _

theorem mem_edgeKeys (h : Holds offers a) (k : EdgeKey) :
    k ∈ a.edgeKeys ↔ k ∈ (Offer.timely [] offers).map Edge.key := by
  rw [edgeKeys, h.edges_eq]
  exact mem_map_firstPer _ _

theorem nodup_nodeKeys (h : Holds offers a) : a.nodeKeys.Nodup := by
  rw [nodeKeys, h.nodes_eq]
  exact nodup_map_firstPer _ _

theorem nodup_edgeKeys (h : Holds offers a) : a.edgeKeys.Nodup := by
  rw [edgeKeys, h.edges_eq]
  exact nodup_map_firstPer _ _

private theorem slots_concat {κ : Type} (keys : List κ) (k : κ) :
    (keys ++ [k]).zipIdx.reverse = (k, keys.length) :: keys.zipIdx.reverse := by
  simp [List.zipIdx_append]

theorem addNode (h : Holds offers a) (n : Node α β) :
    Holds (offers ++ [.node n]) (a.addNode n) := by
  have htimely : Offer.timely [] (offers ++ [.node n]) = Offer.timely [] offers := by
    simp [Offer.timely_append, Offer.timely]
  have hoffered : (offers ++ [Offer.node n]).filterMap Offer.node? =
      offers.filterMap Offer.node? ++ [n] := by
    simp [Offer.node?]
  have hfirst : firstPer (·.id.key) (offers.filterMap Offer.node? ++ [n]) =
      firstPer (·.id.key) (offers.filterMap Offer.node?) ++
        if n.id.key ∈ Offer.nodeKeys offers then [] else [n] := firstPer_concat _ _ _
  have hhas : a.has n.id = true ↔ n.id.key ∈ Offer.nodeKeys offers := by
    rw [has, h.hasKey_iff, h.mem_nodeKeys]
  rw [Arena.addNode, admitsNode]
  by_cases hn : n.id.key ∈ Offer.nodeKeys offers
  · rw [hhas.mpr hn, if_neg (by simp)]
    rw [if_pos hn, List.append_nil] at hfirst
    exact ⟨by rw [hoffered, hfirst, h.nodes_eq], by rw [htimely, h.edges_eq], h.nodeSlots_eq,
      h.edgeSlots_eq⟩
  · rw [Bool.eq_false_iff.mpr (mt hhas.mp hn), if_pos (by simp)]
    rw [if_neg hn] at hfirst
    have hlen : a.nodeKeys.length = a.nodes.length := List.length_map _
    refine ⟨?_, by rw [htimely]; exact h.edges_eq, ?_, h.edgeSlots_eq⟩
    · rw [hoffered, hfirst, ← h.nodes_eq]
      rfl
    · have hkeys : (a.putNode n).nodeKeys = a.nodeKeys ++ [n.id.key] := List.map_append
      rw [hkeys, slots_concat, ← h.nodeSlots_eq, hlen]
      rfl

theorem addEdge (h : Holds offers a) (e : Edge α) :
    Holds (offers ++ [.edge e]) (a.addEdge e) := by
  have hoffered : (offers ++ [Offer.edge e]).filterMap Offer.node? =
      offers.filterMap Offer.node? := by
    simp [Offer.node?]
  have htimely : Offer.timely [] (offers ++ [.edge e]) = Offer.timely [] offers ++
      if e.source.key ∈ Offer.nodeKeys offers ∧ e.target.key ∈ Offer.nodeKeys offers then [e]
      else [] := by
    simp [Offer.timely_append, Offer.timely]
  have hfirst := firstPer_concat Edge.key (Offer.timely [] offers) e
  have hhas (i : Ident) : a.has i = true ↔ i.key ∈ Offer.nodeKeys offers := by
    rw [has, h.hasKey_iff, h.mem_nodeKeys]
  have hedge : a.hasEdge e.key = true ↔ e.key ∈ (Offer.timely [] offers).map Edge.key := by
    rw [h.hasEdge_iff, h.mem_edgeKeys]
  rw [Arena.addEdge, admitsEdge]
  by_cases hends : e.source.key ∈ Offer.nodeKeys offers ∧ e.target.key ∈ Offer.nodeKeys offers
  · rw [if_pos hends] at htimely
    rw [(hhas _).mpr hends.1, (hhas _).mpr hends.2]
    by_cases hk : e.key ∈ (Offer.timely [] offers).map Edge.key
    · rw [hedge.mpr hk, if_neg (by simp)]
      rw [if_pos hk, List.append_nil] at hfirst
      exact ⟨by rw [hoffered]; exact h.nodes_eq, by rw [htimely, hfirst, h.edges_eq],
        h.nodeSlots_eq, h.edgeSlots_eq⟩
    · rw [Bool.eq_false_iff.mpr (mt hedge.mp hk), if_pos (by simp)]
      rw [if_neg hk] at hfirst
      have hlen : a.edgeKeys.length = a.edges.length := List.length_map _
      refine ⟨by rw [hoffered]; exact h.nodes_eq, ?_, h.nodeSlots_eq, ?_⟩
      · rw [htimely, hfirst, ← h.edges_eq]
        rfl
      · have hkeys : (a.putEdge e).edgeKeys = a.edgeKeys ++ [e.key] := List.map_append
        rw [hkeys, slots_concat, ← h.edgeSlots_eq, hlen]
        rfl
  · rw [if_neg hends, List.append_nil] at htimely
    have hnot : ¬(a.has e.source = true ∧ a.has e.target = true) := by
      rw [hhas, hhas]
      exact hends
    rw [if_neg (by
      rw [Bool.and_eq_true, Bool.and_eq_true]
      exact fun hh => hnot hh.1)]
    exact ⟨by rw [hoffered]; exact h.nodes_eq, by rw [htimely]; exact h.edges_eq, h.nodeSlots_eq,
      h.edgeSlots_eq⟩

theorem take (h : Holds offers a) (o : Offer α β) : Holds (offers ++ [o]) (a.take o).2 := by
  cases o with
  | node n => exact h.addNode n
  | edge e => exact h.addEdge e

theorem takeAll (h : Holds offers a) (later : List (Offer α β)) :
    Holds (offers ++ later) (a.takeAll later) := by
  induction later generalizing offers a with
  | nil => simpa [Arena.takeAll] using h
  | cons o rest ih =>
    have hrest := ih (h.take o)
    rwa [List.append_assoc, List.singleton_append] at hrest

theorem ends_mem (h : Holds offers a) {e : Edge α} (he : e ∈ a.edges) :
    e.source.key ∈ a.nodeKeys ∧ e.target.key ∈ a.nodeKeys := by
  rw [h.edges_eq] at he
  obtain ⟨hs, ht⟩ := Offer.ends_of_timely (mem_of_mem_firstPer he)
  rw [List.append_nil] at hs ht
  exact ⟨(h.mem_nodeKeys _).mpr hs, (h.mem_nodeKeys _).mpr ht⟩

theorem node?_eq (h : Holds offers a) (i : Ident) :
    a.node? i = a.nodes.find? fun n => n.id.key == i.key := by
  have hn : a.nodeKeys.Nodup := h.nodup_nodeKeys
  rw [Arena.node?, h.nodeSlots_eq]
  cases hs : a.nodeKeys.zipIdx.reverse.lookup i.key with
  | none =>
    have hout : i.key ∉ a.nodeKeys := by
      rw [← lookup_slots_isSome, hs]
      simp
    refine (List.find?_eq_none.mpr fun n hm hk => hout ?_).symm
    exact List.mem_map.mpr ⟨n, hm, eq_of_beq hk⟩
  | some j =>
    obtain ⟨l₁, l₂, hl, _⟩ := List.lookup_eq_some_iff.mp hs
    have hmem : (i.key, j) ∈ a.nodeKeys.zipIdx := by
      rw [← List.mem_reverse, hl]
      simp
    have hj := List.mem_zipIdx_iff_getElem?.mp hmem
    rw [nodeKeys, List.getElem?_map] at hj
    obtain ⟨n, hat, hk⟩ := Option.map_eq_some_iff.mp hj
    have hin : n ∈ a.nodes := List.mem_of_getElem? hat
    cases hf : a.nodes.find? fun n => n.id.key == i.key with
    | none => exact absurd (beq_iff_eq.mpr hk) (List.find?_eq_none.mp hf n hin)
    | some m =>
      have hmk := List.find?_some hf
      have hmn := List.inj_on_of_nodup_map hn (List.mem_of_find?_eq_some hf) hin
        ((eq_of_beq hmk).trans hk.symm)
      rw [hmn]
      exact hat

end Holds

theorem holds_takeAll (offers : List (Offer α β)) :
    Holds offers ((empty : Arena α β).takeAll offers) := by
  have hempty : Holds [] (empty : Arena α β) := ⟨rfl, rfl, rfl, rfl⟩
  exact hempty.takeAll offers

theorem take_answer (a : Arena α β) (o : Offer α β) :
    (a.take o).1 = true ∧ (a.take o).2.nodes = a.nodes ++ o.node?.toList ∧
        (a.take o).2.edges = a.edges ++ o.edge?.toList ∨
      (a.take o).1 = false ∧ (a.take o).2 = a := by
  cases o with
  | node n =>
    cases hn : a.admitsNode n <;> simp [take, Arena.addNode, putNode, hn, Offer.node?, Offer.edge?]
  | edge e =>
    cases he : a.admitsEdge e <;> simp [take, Arena.addEdge, putEdge, he, Offer.node?, Offer.edge?]

private theorem mem_take (a : Arena α β) (o : Offer α β) :
    (∀ n ∈ (a.take o).2.nodes, n ∈ a.nodes ∨ .node n = o) ∧
      ∀ e ∈ (a.take o).2.edges, e ∈ a.edges ∨ .edge e = o := by
  rcases a.take_answer o with ⟨-, hnodes, hedges⟩ | ⟨-, hsame⟩
  · rw [hnodes, hedges]
    cases o <;> simp [Offer.node?, Offer.edge?]
  · rw [hsame]
    exact ⟨fun _ => .inl, fun _ => .inl⟩

/-- What an arena has after some offers it had before, or it was offered it. -/
theorem mem_takeAll (a : Arena α β) (offers : List (Offer α β)) :
    (∀ n ∈ (a.takeAll offers).nodes, n ∈ a.nodes ∨ .node n ∈ offers) ∧
      ∀ e ∈ (a.takeAll offers).edges, e ∈ a.edges ∨ .edge e ∈ offers := by
  induction offers generalizing a with
  | nil => exact ⟨fun _ => .inl, fun _ => .inl⟩
  | cons o rest ih =>
    obtain ⟨hnodes, hedges⟩ := ih (a.take o).2
    obtain ⟨hnode, hedge⟩ := a.mem_take o
    simp only [List.mem_cons, ← or_assoc]
    exact ⟨fun n hn => (hnodes n hn).imp_left (hnode n), fun e he => (hedges e he).imp_left (hedge e)⟩

theorem timely_reorder (before after : List (Offer α β)) {es es' : List (Edge α)}
    (h : es.Perm es') :
    (Offer.timely [] (before ++ es.map .edge ++ after)).Perm
      (Offer.timely [] (before ++ es'.map .edge ++ after)) := by
  have hkeys (es : List (Edge α)) :
      Offer.nodeKeys (before ++ es.map .edge) = Offer.nodeKeys before := by
    rw [Offer.nodeKeys_append, Offer.nodeKeys_edges, List.append_nil]
  simp only [Offer.timely_append, Offer.timely_edges, hkeys]
  exact ((List.Perm.refl _).append (h.filter _)).append (List.Perm.refl _)

/-- What is known of an arena that took some offers. -/
structure Follows (offers : List (Offer α β)) (a : Arena α β) : Prop where
  /-- No two nodes have one id. -/
  ids_nodup : (a.nodes.map (·.id.key)).Nodup
  /-- No two edges have one key. -/
  keys_nodup : (a.edges.map Edge.key).Nodup
  /-- Every edge has both its ends there. -/
  ends : ∀ e ∈ a.edges, a.has e.source = true ∧ a.has e.target = true
  /-- The map knows the ids of the nodes. -/
  has_iff : ∀ i, a.has i = true ↔ ∃ n ∈ a.nodes, n.id.key = i.key
  /-- The map finds what a search finds. -/
  node?_eq : ∀ i, a.node? i = a.nodes.find? fun n => n.id.key == i.key
  /-- The map knows the keys of the edges. -/
  hasEdge_iff : ∀ k, a.hasEdge k = true ↔ ∃ e ∈ a.edges, e.key = k
  /-- The nodes are the first ones offered for each id. -/
  nodes_eq : a.nodes = firstPer (·.id.key) (offers.filterMap Offer.node?)
  /-- The edges are the first ones for each key among those offered when both ends were there. -/
  edges_eq : a.edges = firstPer Edge.key (Offer.timely [] offers)
  /-- A further offer is answered with yes if it is put at the end, and else changes nothing. -/
  answer : ∀ o, (a.take o).1 = true ∧ (a.take o).2.nodes = a.nodes ++ o.node?.toList ∧
      (a.take o).2.edges = a.edges ++ o.edge?.toList ∨
    (a.take o).1 = false ∧ (a.take o).2 = a
  /-- The keys stay the same when consecutive edges are offered in another order. -/
  reorder : ∀ before (es es' : List (Edge α)) after,
    offers = before ++ es.map .edge ++ after → es.Perm es' → ∀ k, k ∈ a.edges.map Edge.key ↔
      k ∈ ((empty.takeAll (before ++ es'.map .edge ++ after)).edges.map Edge.key)

/-- Whatever is offered to an empty arena, in whatever order, the arena follows the offers. -/
theorem follows_takeAll (offers : List (Offer α β)) :
    Follows offers ((empty : Arena α β).takeAll offers) := by
  have h := holds_takeAll offers
  refine ⟨h.nodup_nodeKeys, h.nodup_edgeKeys, ?_, ?_, h.node?_eq, ?_, h.nodes_eq, h.edges_eq,
    take_answer _, ?_⟩
  · intro e he
    rw [has, has, h.hasKey_iff, h.hasKey_iff]
    exact h.ends_mem he
  · intro i
    rw [has, h.hasKey_iff, nodeKeys, List.mem_map]
  · intro k
    rw [h.hasEdge_iff, edgeKeys, List.mem_map]
  · rintro before es es' after rfl hp k
    have h' := holds_takeAll (before ++ es'.map .edge ++ after)
    have hperm := (timely_reorder before after hp).map Edge.key
    exact ((h.mem_edgeKeys k).trans hperm.mem_iff).trans (h'.mem_edgeKeys k).symm

end Arena

end BusinessAtlas
