import BusinessAtlas.Proofs.Graph.Statistics
import BusinessAtlas.Proofs.Network.Elementary
import BusinessAtlas.Proofs.Network.Merged
import Mathlib.Data.Set.Card

/-!
# What is told about cycles

The report on a network counts its simple cycles as long as there are no more than the limit, and the
limit if there are more. It says that the search stopped as soon as the limit is reached, also if no
cycle was left out.
-/

namespace BusinessAtlas

variable {α β : Type}

namespace Network

def keys (n : Network α) : List Key := n.nodes.map (·.id.key)

/-- A link leads from one node to the other. -/
def Adjacent (n : Network α) (k l : Key) : Prop := (k, l) ∈ n.links.map Link.ends

/-- No two nodes have one id, and no two links lead from the same node to the same node. -/
structure Simple (n : Network α) : Prop where
  nodes : n.keys.Nodup
  links : (n.links.map Link.ends).Nodup
  ends : ∀ k l, n.Adjacent k l → k ∈ n.keys ∧ l ∈ n.keys

section

variable {n : Network α}

theorem number_eq (n : Network α) (i : Ident) : n.number i = n.keys.idxOf i.key := by
  rw [number, keys, List.idxOf, List.findIdx_map]
  rfl

theorem map_ends (n : Network α) : n.links.map n.ends =
    (n.links.map Link.ends).map (Prod.map n.keys.idxOf n.keys.idxOf) := by
  rw [List.map_map]
  refine List.map_congr_left fun l _ => ?_
  rw [ends, number_eq, number_eq]
  rfl

theorem key_idAt {v : Nat} (h : v < n.keys.length) : (n.idAt v).key = n.keys[v] := by
  rw [keys, List.length_map] at h
  simp [idAt, keys, h]

end

end Network

namespace Digraph

private theorem getD_attach {lists : Array (List Nat)} {u v w : Nat} :
    (attach lists v w).getD u [] =
      lists.getD u [] ++ if v = u ∧ u < lists.size then [w] else [] := by
  unfold attach
  by_cases hu : u < lists.size
  · by_cases huv : v = u <;> simp [Array.getD, hu, huv, Array.getElem_modify]
  · simp [Array.getD, hu]

private theorem getD_foldl_attach {lists : Array (List Nat)} (edges : List (Nat × Nat)) {v : Nat} :
    (edges.foldl (fun lists e => attach lists e.1 e.2) lists).getD v [] = lists.getD v [] ++
      if v < lists.size then (edges.filter (·.1 = v)).map Prod.snd else [] := by
  induction edges generalizing lists with
  | nil => simp
  | cons e rest ih =>
    rw [List.foldl_cons, ih, getD_attach, List.append_assoc]
    have hsize : (attach lists e.1 e.2).size = lists.size := Array.size_modify
    rw [hsize]
    by_cases hv : v < lists.size
    · by_cases he : e.1 = v <;> simp [hv, he]
    · simp [hv]

theorem next_ofEdges (size : Nat) (edges : List (Nat × Nat)) (v : Nat) :
    (ofEdges size edges).next v =
      if v < size then (edges.filter (·.1 = v)).map Prod.snd else [] := by
  rw [next, ofEdges, getD_foldl_attach, Array.size_replicate]
  by_cases hv : v < size <;> simp [Array.getD, hv]

end Digraph

namespace SimpleCycle

variable {κ ι : Type} {r : κ → κ → Prop} {s : ι → ι → Prop}

/-- What goes round in one relation goes round in another that follows it. -/
protected theorem map {f : κ → ι} {c : Cycle κ} (h : SimpleCycle r c)
    (hf : ∀ a ∈ c, ∀ b ∈ c, f a = f b → a = b) (hr : ∀ a b, r a b → s (f a) (f b)) :
    SimpleCycle s (c.map f) := by
  refine ⟨?_, ?_, (Cycle.chain_map f).mpr (h.chain.imp hr)⟩
  · rw [Ne, Cycle.map_eq_nil]
    exact h.ne_nil
  · have hnodup := h.nodup
    induction c using Quotient.inductionOn' with
    | h l =>
      rw [Cycle.mk''_eq_coe, Cycle.nodup_coe_iff] at hnodup
      rw [Cycle.mk''_eq_coe, Cycle.map_coe, Cycle.nodup_coe_iff]
      exact List.Nodup.map_on hf hnodup

end SimpleCycle

private theorem map_map_eq_self {κ ι : Type} {f : κ → ι} {g : ι → κ} {c : Cycle κ}
    (h : ∀ a ∈ c, g (f a) = a) : (c.map f).map g = c := by
  induction c using Quotient.inductionOn' with
  | h l =>
    have hl : (l.map f).map g = l := by
      rw [List.map_map]
      exact (List.map_congr_left h).trans (List.map_id l)
    exact congrArg (fun l : List κ => (l : Cycle κ)) hl

/-- The cycle along a list of nodes, which is the same from wherever the list starts. -/
def Ident.round (c : List Ident) : Cycle Key := (c.map Ident.key : List Key)

/-- The lists go round every simple cycle of a relation, each once. -/
structure Enumerates (adjacent : Key → Key → Prop) (found : List (List Ident)) : Prop where
  nodup : (found.map Ident.round).Nodup
  mem_iff : ∀ c, c ∈ found.map Ident.round ↔ SimpleCycle adjacent c

namespace Enumerates

variable {adjacent : Key → Key → Prop} {found : List (List Ident)}

theorem finite (h : Enumerates adjacent found) : {c | SimpleCycle adjacent c}.Finite :=
  (found.map Ident.round).finite_toSet.subset fun c hc => (h.mem_iff c).mpr hc

theorem ncard (h : Enumerates adjacent found) :
    {c | SimpleCycle adjacent c}.ncard = found.length := by
  have hset : {c | SimpleCycle adjacent c} = ↑(found.map Ident.round).toFinset := by
    ext c
    rw [List.coe_toFinset]
    exact (h.mem_iff c).symm
  rw [hset, Set.ncard_coe_finset, List.toFinset_card_of_nodup h.nodup, List.length_map]

end Enumerates

namespace Network

variable {n : Network α}

def keyAt (n : Network α) (v : Nat) : Key := (n.idAt v).key

theorem idxOf_keyAt (h : n.keys.Nodup) {v : Nat} (hv : v < n.keys.length) :
    n.keys.idxOf (n.keyAt v) = v := by
  rw [keyAt, key_idAt hv]
  exact h.idxOf_getElem v hv

theorem keyAt_idxOf {k : Key} (h : k ∈ n.keys) : n.keyAt (n.keys.idxOf k) = k := by
  rw [keyAt, key_idAt (List.idxOf_lt_length_of_mem h), List.getElem_idxOf]

/-- The numbered graph has the links of the network between the numbers of their ends. -/
theorem leads_iff (h : n.Simple) {v w : Nat} : n.digraph.Leads v w ↔
    ∃ k l, n.Adjacent k l ∧ n.keys.idxOf k = v ∧ n.keys.idxOf l = w := by
  have hlength : n.nodes.length = n.keys.length := (List.length_map _).symm
  rw [Digraph.Leads, digraph, Digraph.next_ofEdges, map_ends]
  constructor
  · intro hw
    split at hw
    · obtain ⟨⟨v', w'⟩, he, rfl⟩ := List.mem_map.mp hw
      obtain ⟨hmem, hv⟩ := List.mem_filter.mp he
      obtain ⟨⟨k, l⟩, hkl, hpair⟩ := List.mem_map.mp hmem
      cases hpair
      exact ⟨k, l, hkl, of_decide_eq_true hv, rfl⟩
    · cases hw
  · rintro ⟨k, l, hkl, rfl, rfl⟩
    have hk := List.idxOf_lt_length_of_mem (h.ends k l hkl).1
    rw [if_pos (hlength ▸ hk)]
    refine List.mem_map.mpr ⟨(n.keys.idxOf k, n.keys.idxOf l), ?_, rfl⟩
    exact List.mem_filter.mpr ⟨List.mem_map.mpr ⟨(k, l), hkl, rfl⟩, decide_eq_true rfl⟩

theorem leads_lt (h : n.Simple) {v w : Nat} (hvw : n.digraph.Leads v w) :
    v < n.keys.length ∧ w < n.keys.length := by
  obtain ⟨k, l, hkl, rfl, rfl⟩ := (leads_iff h).mp hvw
  obtain ⟨hk, hl⟩ := h.ends k l hkl
  exact ⟨List.idxOf_lt_length_of_mem hk, List.idxOf_lt_length_of_mem hl⟩

private theorem lt_size (h : n.Simple) (v w : Nat) (hvw : n.digraph.Leads v w) :
    w < n.digraph.size := by
  have hlt := (leads_lt h hvw).2
  rwa [keys, List.length_map] at hlt

theorem nodup_next (h : n.Simple) (v : Nat) : (n.digraph.next v).Nodup := by
  rw [digraph, Digraph.next_ofEdges]
  split
  · have hnodup : (n.links.map n.ends).Nodup := by
      rw [map_ends]
      refine List.Nodup.map_on ?_ h.links
      rintro ⟨k, l⟩ hkl ⟨k', l'⟩ hkl' he
      obtain ⟨hk, hl⟩ := h.ends k l hkl
      obtain ⟨hk', hl'⟩ := h.ends k' l' hkl'
      obtain ⟨hek, hel⟩ := Prod.mk.inj he
      rw [(List.idxOf_inj hk).mp hek, (List.idxOf_inj hl).mp hel]
    refine List.Nodup.map_on ?_ (hnodup.filter _)
    rintro ⟨a, b⟩ hab ⟨c, d⟩ hcd he
    have ha : a = v := by simpa using (List.mem_filter.mp hab).2
    have hc : c = v := by simpa using (List.mem_filter.mp hcd).2
    rw [ha, hc]
    exact congrArg (Prod.mk v) he
  · exact List.nodup_nil

/-- All simple cycles of the network in the order of the search, each from its first node on. -/
def elementary (n : Network α) : List (List Ident) := n.digraph.elementary.map fun c => c.map n.idAt

theorem map_round_elementary (n : Network α) : n.elementary.map Ident.round =
    (n.digraph.elementary.map fun c : List Nat => (c : Cycle Nat)).map (Cycle.map n.keyAt) := by
  rw [elementary, List.map_map, List.map_map]
  refine List.map_congr_left fun c _ => ?_
  change ((c.map n.idAt).map Ident.key : Cycle Key) = (c.map n.keyAt : List Key)
  rw [List.map_map]
  rfl

private theorem lt_of_mem (h : n.Simple) {c : Cycle Nat} (hc : SimpleCycle n.digraph.Leads c) :
    ∀ v ∈ c, v < n.keys.length := by
  intro v hv
  obtain ⟨u, hu⟩ := hc.exists_before hv
  exact (leads_lt h hu).2

private theorem mem_map_round (h : n.Simple) (c : Cycle Key) :
    c ∈ n.elementary.map Ident.round ↔ SimpleCycle n.Adjacent c := by
  rw [map_round_elementary, List.mem_map]
  simp only [Digraph.mem_map_elementary (lt_size h)]
  constructor
  · rintro ⟨d, hd, rfl⟩
    have hlt := lt_of_mem h hd
    refine hd.map (fun a ha b hb he => ?_) fun a b hab => ?_
    · rw [← idxOf_keyAt h.nodes (hlt a ha), he, idxOf_keyAt h.nodes (hlt b hb)]
    · obtain ⟨k, l, hkl, rfl, rfl⟩ := (leads_iff h).mp hab
      obtain ⟨hk, hl⟩ := h.ends k l hkl
      rwa [keyAt_idxOf hk, keyAt_idxOf hl]
  · intro hc
    have hin : ∀ k ∈ c, k ∈ n.keys := by
      intro k hk
      obtain ⟨j, hj⟩ := hc.exists_before hk
      exact (h.ends j k hj).2
    refine ⟨c.map n.keys.idxOf, ?_, map_map_eq_self fun k hk => keyAt_idxOf (hin k hk)⟩
    refine hc.map (fun k hk l _ he => (List.idxOf_inj (hin k hk)).mp he) fun k l hkl => ?_
    exact (leads_iff h).mpr ⟨k, l, hkl, rfl, rfl⟩

private theorem nodup_map_round (h : n.Simple) : (n.elementary.map Ident.round).Nodup := by
  rw [map_round_elementary]
  refine List.Nodup.map_on ?_ (Digraph.nodup_map_elementary (nodup_next h))
  intro c hc d hd he
  have hlt := lt_of_mem h ((Digraph.mem_map_elementary (lt_size h) c).mp hc)
  have hlt' := lt_of_mem h ((Digraph.mem_map_elementary (lt_size h) d).mp hd)
  have hback := congrArg (Cycle.map n.keys.idxOf) he
  rwa [map_map_eq_self fun v hv => idxOf_keyAt h.nodes (hlt v hv),
    map_map_eq_self fun v hv => idxOf_keyAt h.nodes (hlt' v hv)] at hback

/-- The search goes round every simple cycle of a simple directed graph once. -/
theorem enumerates_elementary (h : n.Simple) : Enumerates n.Adjacent n.elementary :=
  ⟨nodup_map_round h, mem_map_round h⟩

end Network

namespace CycleReport

/-- The report on cycles that are taken, one after another, from an enumeration. -/
def ofFound (found basis : List (List Ident)) : CycleReport := ⟨found.take limit, basis⟩

/-- The cycles of the report, as those of the keys of their nodes. -/
def rounds (r : CycleReport) : List (Cycle Key) := r.cycles.map Ident.round

theorem rounds_ofFound (found basis : List (List Ident)) :
    (ofFound found basis).rounds = (found.map Ident.round).take limit := List.map_take

end CycleReport

/-- A search that ends with its budget finds what is taken from all that it would find. -/
theorem Network.cycleReport_eq (n : Network Number) :
    n.cycleReport = .ofFound n.elementary n.cycleReport.basis := by
  rw [CycleReport.ofFound, elementary, ← List.map_take, ← Digraph.cycles_eq]
  rfl

namespace CycleReport

variable {r : CycleReport}

/-- What the report says, with the simple cycles of a relation. -/
structure Accounts (r : CycleReport) (adjacent : Key → Key → Prop) : Prop where
  finite : {c | SimpleCycle adjacent c}.Finite
  nodup : r.rounds.Nodup
  simple : ∀ c ∈ r.rounds, SimpleCycle adjacent c
  complete : (∀ c, SimpleCycle adjacent c → c ∈ r.rounds) ↔
    {c | SimpleCycle adjacent c}.ncard ≤ limit
  count : r.toJson.get "cycle_count" =
    .ok (some (.nat (min limit {c | SimpleCycle adjacent c}.ncard)))
  note : r.toJson.get "note" =
    .ok (if limit ≤ {c | SimpleCycle adjacent c}.ncard then some (.text "Stopped after 100 cycles")
      else none)
  lengths : r.toJson.get "cycle_length_distribution" =
      .ok (some (.record (r.lengths.map fun l => (toString l.1, .nat l.2)))) ∧
    (∀ length n, (length, n) ∈ r.lengths ↔ r.rounds.countP (·.length = length) = n ∧ n ≠ 0) ∧
    totalOf (r.lengths.map Prod.snd) = min limit {c | SimpleCycle adjacent c}.ncard
  has : r.toJson.get "has_cycles" = .ok (some (.bool true)) ↔ ∃ k, Relation.TransGen adjacent k k

end CycleReport

namespace Network

section

variable {n n' : Network α}

private theorem nodup_concat_new {κ : Type} {k : κ} {ks : List κ} [Decidable (k ∈ ks)]
    (h : ks.Nodup) : (ks ++ if k ∈ ks then [] else [k]).Nodup := by
  split
  · rwa [List.append_nil]
  · next hk => exact List.nodup_append_comm.mp (List.nodup_cons.mpr ⟨hk, h⟩)

private theorem keys_putNode (i : Ident) (a : NodeAttributes α) (vs : List (NetworkNode α)) :
    (putNode i a vs).map (·.id.key) =
      vs.map (·.id.key) ++ if i.key ∈ vs.map (·.id.key) then [] else [i.key] := by
  induction vs with
  | nil => rfl
  | cons v rest ih =>
    rw [putNode]
    by_cases hv : v.id.key = i.key
    · simp [Ident.same, hv]
    · have hne : ¬i.key = v.id.key := fun he => hv he.symm
      rw [if_neg (by simpa [Ident.same] using hv), List.map_cons, ih]
      simp [hne]

private theorem keys_mention (n : Network α) (i : Ident) :
    (n.mention i).keys = n.keys ++ if i.key ∈ n.keys then [] else [i.key] := by
  have hhas : n.has i.key = true ↔ i.key ∈ n.keys := by simp [has, keys]
  rw [mention]
  split
  · next h => rw [if_pos (hhas.mp h), List.append_nil]
  · next h => rw [if_neg fun hmem => h (hhas.mpr hmem), keys, List.map_append, keys]; rfl

private theorem mem_keys_mention (n : Network α) (i : Ident) {k : Key} :
    k ∈ (n.mention i).keys ↔ k ∈ n.keys ∨ k = i.key := by
  rw [keys_mention]
  by_cases hi : i.key ∈ n.keys
  · simp only [hi, if_true, List.append_nil]
    exact ⟨.inl, fun h => h.elim id fun he => he ▸ hi⟩
  · simp [hi]

private theorem Simple.addNode (h : n.Simple) (v : Node α β) : Yields (n.addNode v) Simple := by
  refine Yields.bind (yields_true _) fun _ _ => yields_ok ⟨?_, h.links, fun k l hkl => ?_⟩
  · rw [keys, keys_putNode]
    exact nodup_concat_new h.nodes
  · obtain ⟨hk, hl⟩ := h.ends k l hkl
    rw [keys, keys_putNode]
    exact ⟨List.mem_append_left _ hk, List.mem_append_left _ hl⟩

variable [Scalar α]

private theorem ends_putLink (e : Edge α) (ls : List (Link α)) : (putLink e ls).map Link.ends =
    ls.map Link.ends ++ if e.ends ∈ ls.map Link.ends then [] else [e.ends] := by
  induction ls with
  | nil => rfl
  | cons l rest ih =>
    rw [putLink]
    by_cases hl : l.ends = e.ends
    · have hmerge : (Link.merge l e).ends = l.ends := rfl
      rw [if_pos (joins_iff.mpr hl), List.map_cons, hmerge, List.map_cons, hl]
      simp
    · have hne : ¬e.ends = l.ends := fun he => hl he.symm
      rw [if_neg fun hj => hl (joins_iff.mp hj), List.map_cons, ih]
      simp [hne]

private theorem addEdge_eq_ok {e : Edge α} (h : n.addEdge e = .ok n') :
    n' = { (n.mention e.source).mention e.target with links := putLink e n.links } := by
  obtain ⟨_, -, h⟩ := bind_eq_ok.mp h
  obtain ⟨_, -, h⟩ := bind_eq_ok.mp h
  have hlinks (m : Network α) (i : Ident) : (m.mention i).links = m.links := by
    unfold mention
    split <;> rfl
  dsimp only at h
  rw [hlinks, hlinks] at h
  exact (Except.ok.inj h).symm

private theorem adjacent_addEdge {e : Edge α} (h : n.addEdge e = .ok n') {k l : Key} :
    n'.Adjacent k l ↔ n.Adjacent k l ∨ e.ends = (k, l) := by
  rw [addEdge_eq_ok h, Adjacent, Adjacent, ends_putLink]
  by_cases he : e.ends ∈ n.links.map Link.ends
  · simp only [he, if_true, List.append_nil]
    exact ⟨.inl, fun h => h.elim id fun hkl => hkl ▸ he⟩
  · rw [if_neg he, List.mem_append, List.mem_singleton]
    exact or_congr_right eq_comm

private theorem Simple.addEdge (h : n.Simple) (e : Edge α) : Yields (n.addEdge e) Simple := by
  intro n' hn'
  have hmade := addEdge_eq_ok hn'
  have hkeys : n'.keys = ((n.mention e.source).mention e.target).keys := by rw [hmade]; rfl
  refine ⟨?_, ?_, fun k l hkl => ?_⟩
  · rw [hkeys, keys_mention, keys_mention]
    exact nodup_concat_new (nodup_concat_new h.nodes)
  · rw [hmade, ends_putLink]
    exact nodup_concat_new h.links
  · simp only [hkeys, mem_keys_mention]
    rcases (adjacent_addEdge hn').mp hkl with hkl | hkl
    · obtain ⟨hk, hl⟩ := h.ends k l hkl
      exact ⟨.inl (.inl hk), .inl (.inl hl)⟩
    · obtain ⟨rfl, rfl⟩ := Prod.mk.inj hkl
      exact ⟨.inl (.inr rfl), .inr rfl⟩

private theorem adjacent_foldlM {edges : List (Edge α)} (h : edges.foldlM Network.addEdge n = .ok n')
    {k l : Key} : n'.Adjacent k l ↔ n.Adjacent k l ∨ (k, l) ∈ edges.map Edge.ends := by
  induction edges generalizing n with
  | nil =>
    cases h
    simp
  | cons e rest ih =>
    rw [List.foldlM_cons] at h
    obtain ⟨m, hm, h⟩ := bind_eq_ok.mp h
    rw [ih h, adjacent_addEdge hm, List.map_cons, List.mem_cons, or_assoc, @eq_comm _ e.ends]

omit [Scalar α] in
private theorem links_foldlM_addNode {nodes : List (Node α β)}
    (h : nodes.foldlM Network.addNode n = .ok n') : n'.links = n.links := by
  have hlinks : Yields (nodes.foldlM Network.addNode n) (·.links = n.links) :=
    yields_foldlM rfl fun v _ t ht => Yields.bind (yields_true _) fun _ _ => yields_ok ht
  exact hlinks n' h

/-- Whatever lists a network is made of, it is a simple directed graph, and its links lead where the
edges lead. -/
theorem simple_ofLists {nodes : List (Node α β)} {edges : List (Edge α)}
    (h : ofLists nodes edges = .ok n) :
    n.Simple ∧ ∀ k l, n.Adjacent k l ↔ (k, l) ∈ edges.map Edge.ends := by
  obtain ⟨m, hm, h⟩ := bind_eq_ok.mp h
  have hstart : (⟨[], []⟩ : Network α).Simple := ⟨List.nodup_nil, List.nodup_nil, nofun⟩
  have hnodes := yields_foldlM hstart (fun v _ t ht => ht.addNode v) m hm
  refine ⟨yields_foldlM hnodes (fun e _ t ht => ht.addEdge e) n h, fun k l => ?_⟩
  have hnone : ¬m.Adjacent k l := by
    rw [Adjacent, links_foldlM_addNode hm]
    exact List.not_mem_nil
  rw [adjacent_foldlM h, or_iff_right hnone]

end

end Network

section

private theorem simpleCycle_loops {κ : Type} {r : κ → κ → Prop} {ks : List κ}
    (h : ∀ k l, r k l ↔ k = l ∧ k ∈ ks) (c : Cycle κ) :
    SimpleCycle r c ↔ ∃ k ∈ ks, (([k] : List κ) : Cycle κ) = c := by
  constructor
  · intro hc
    induction c using Cycle.induction_on with
    | nil => exact absurd rfl hc.ne_nil
    | cons a l _ =>
      have hchain := (Cycle.chain_coe_cons r a l).mp hc.chain
      cases l with
      | nil => exact ⟨a, ((h a a).mp (List.isChain_cons_cons.mp hchain).1).2, rfl⟩
      | cons b rest =>
        obtain ⟨rfl, -⟩ := (h a b).mp (List.isChain_cons_cons.mp hchain).1
        exact absurd hc.nodup (by simp)
  · rintro ⟨k, hk, rfl⟩
    exact ⟨by simp, by simp, (Cycle.chain_singleton r k).mpr ((h k k).mpr ⟨rfl, hk⟩)⟩

/-- Edges of some nodes to themselves. -/
private def loops (count : Nat) : List (Edge Number) :=
  (List.range count).map fun v =>
    .plain (.text (toString v)) (.text (toString v)) .uses "uses" (.int 1)

private theorem exists_loops (count : Nat) : ∃ n : Network Number,
    Network.ofLists ([] : List (Node Number Rat)) (loops count) = .ok n ∧ n.Simple ∧
      {c | SimpleCycle n.Adjacent c}.ncard = count := by
  have hnodes : ∀ v ∈ ([] : List (Node Number Rat)), v.id ≠ .null := by simp
  have hedges : ∀ e ∈ loops count, e.source ≠ .null ∧ e.target ≠ .null := by
    intro e he
    obtain ⟨v, -, rfl⟩ := List.mem_map.mp he
    exact ⟨nofun, nofun⟩
  obtain ⟨n, hn⟩ := Network.exists_ofLists hnodes hedges
  obtain ⟨hsimple, hadjacent⟩ := Network.simple_ofLists hn
  let ks : List Key := (List.range count).map fun v => .text (toString v)
  have hks : ks.Nodup := by
    refine List.Nodup.map (fun v w he => ?_) List.nodup_range
    exact toString_inj (Key.text.inj he)
  have hloops (k l : Key) : n.Adjacent k l ↔ k = l ∧ k ∈ ks := by
    rw [hadjacent]
    simp only [loops, ks, List.map_map, List.mem_map]
    constructor
    · rintro ⟨v, hv, he⟩
      cases he
      exact ⟨rfl, v, hv, rfl⟩
    · rintro ⟨rfl, v, hv, rfl⟩
      exact ⟨v, hv, rfl⟩
  refine ⟨n, hn, hsimple, ?_⟩
  have hset : {c | SimpleCycle n.Adjacent c} =
      (fun k : Key => (([k] : List Key) : Cycle Key)) '' ↑ks.toFinset := by
    ext c
    simpa using simpleCycle_loops hloops c
  have hone : Function.Injective fun k : Key => (([k] : List Key) : Cycle Key) := by
    intro k l he
    simpa using Cycle.coe_eq_coe.mp he
  rw [hset, Set.ncard_image_of_injective _ hone, Set.ncard_coe_finset,
    List.toFinset_card_of_nodup hks, List.length_map, List.length_range]

end

section

private theorem toJson_get (r : CycleReport) :
    r.toJson.get "has_cycles" = .ok (some (.bool !r.cycles.isEmpty)) ∧
    r.toJson.get "cycle_count" = .ok (some (.nat r.cycles.length)) ∧
    r.toJson.get "note" =
      .ok (if r.stopped then some (.text "Stopped after 100 cycles") else none) ∧
    r.toJson.get "cycle_length_distribution" =
      .ok (some (.record (r.lengths.map fun l => (toString l.1, .nat l.2)))) := by
  unfold CycleReport.toJson
  split <;> exact ⟨rfl, rfl, rfl, rfl⟩

variable {adjacent : Key → Key → Prop} {found : List (List Ident)}

private theorem complete_ofFound (h : Enumerates adjacent found) (basis : List (List Ident)) :
    (∀ c, SimpleCycle adjacent c → c ∈ (CycleReport.ofFound found basis).rounds) ↔
      {c | SimpleCycle adjacent c}.ncard ≤ CycleReport.limit := by
  rw [h.ncard, CycleReport.rounds_ofFound]
  constructor
  · intro hall
    have hsubset : found.map Ident.round ⊆ (found.map Ident.round).take CycleReport.limit :=
      fun c hc => hall c ((h.mem_iff c).mp hc)
    have hle := (h.nodup.subperm hsubset).length_le
    rw [List.length_take, List.length_map] at hle
    omega
  · intro hle c hc
    rw [List.take_of_length_le (by rwa [List.length_map])]
    exact (h.mem_iff c).mpr hc

private theorem note_ofFound (h : Enumerates adjacent found) (basis : List (List Ident)) :
    (CycleReport.ofFound found basis).toJson.get "note" =
      .ok (if CycleReport.limit ≤ {c | SimpleCycle adjacent c}.ncard then
        some (.text "Stopped after 100 cycles") else none) := by
  have hstopped : (CycleReport.ofFound found basis).stopped = true ↔
      CycleReport.limit ≤ found.length := by
    rw [CycleReport.stopped, beq_iff_eq, CycleReport.ofFound, List.length_take, min_eq_left_iff]
  rw [h.ncard, (toJson_get _).2.2.1]
  simp only [hstopped]

/-- Whatever enumerates the simple cycles, the report on what is found counts them up to the limit,
tells how many of each length it counts, and whether there is a cycle at all. The note that the search
stopped is there exactly if there are as many simple cycles as the limit, while some cycle is left out
only if there are more. -/
theorem CycleReport.accounts_ofFound (h : Enumerates adjacent found) (basis : List (List Ident)) :
    (ofFound found basis).Accounts adjacent := by
  have hlength : (ofFound found basis).cycles.length = min limit found.length := List.length_take
  have hkinds : (ofFound found basis).cycles.map (·.length) =
      (ofFound found basis).rounds.map Cycle.length := by
    rw [rounds, List.map_map]
    exact List.map_congr_left fun c _ => (List.length_map _).symm
  have hcounts := countsAll_countsOf ((ofFound found basis).cycles.map (·.length))
  obtain ⟨hhas, hcount, -, hlengths⟩ := toJson_get (ofFound found basis)
  constructor
  · exact h.finite
  · rw [rounds_ofFound]
    exact h.nodup.sublist (List.take_sublist _ _)
  · intro c hc
    rw [rounds_ofFound] at hc
    exact (h.mem_iff c).mp (List.mem_of_mem_take hc)
  · exact complete_ofFound h basis
  · rw [h.ncard, hcount, hlength]
  · exact note_ofFound h basis
  · refine ⟨hlengths, fun length m => ?_, ?_⟩
    · rw [lengths, hcounts.mem_iff, hkinds, List.count, List.countP_map]
      rfl
    · rw [h.ncard, lengths, hcounts.total, List.length_map, hlength]
  · have hempty : (ofFound found basis).cycles.isEmpty = false ↔ found.map Ident.round ≠ [] := by
      rw [List.isEmpty_eq_false_iff, ← List.length_pos_iff, hlength, ← List.length_pos_iff,
        List.length_map]
      exact lt_min_iff.trans (and_iff_right (by decide))
    have hsome : found.map Ident.round ≠ [] ↔ ∃ c, c ∈ found.map Ident.round :=
      ⟨List.exists_mem_of_ne_nil _, fun ⟨_, hc⟩ => List.ne_nil_of_mem hc⟩
    rw [hhas, ← exists_simpleCycle_iff]
    simp only [← h.mem_iff, ← hsome, ← hempty]
    simp

variable {n : Network Number}

/-- The report on a simple directed graph accounts for its simple cycles, and so does a report on any
other enumeration of them. -/
theorem Network.accounts_of_simple (h : n.Simple) : n.cycleReport.Accounts n.Adjacent ∧
    ∀ found, Enumerates n.Adjacent found →
      ∀ basis, (CycleReport.ofFound found basis).Accounts n.Adjacent := by
  refine ⟨?_, fun found hfound => CycleReport.accounts_ofFound hfound⟩
  rw [cycleReport_eq]
  exact CycleReport.accounts_ofFound (enumerates_elementary h) _

theorem Network.accounts_of_simple_loops : ∃ n : Network Number,
    ofLists ([] : List (Node Number Rat)) (loops 3) = .ok n ∧ n.Simple ∧
      n.cycleReport.Accounts n.Adjacent ∧
      n.cycleReport.toJson.get "cycle_count" = .ok (some (.nat 3)) ∧
      n.cycleReport.toJson.get "note" = .ok none := by
  obtain ⟨n, hn, hsimple, hcard⟩ := exists_loops 3
  have haccounts := (accounts_of_simple hsimple).1
  refine ⟨n, hn, hsimple, haccounts, ?_, ?_⟩
  · rw [haccounts.count, hcard]
    rfl
  · rw [haccounts.note, hcard]
    rfl

/-- As many simple cycles as the limit: the report has all of them, and says that the search
stopped. -/
theorem Network.not_truncated_loops : ∃ n : Network Number,
    ofLists ([] : List (Node Number Rat)) (loops 100) = .ok n ∧ n.Simple ∧
      {c | SimpleCycle n.Adjacent c}.ncard = CycleReport.limit ∧
      (∀ c, SimpleCycle n.Adjacent c → c ∈ n.cycleReport.rounds) ∧
      n.cycleReport.toJson.get "note" = .ok (some (.text "Stopped after 100 cycles")) := by
  obtain ⟨n, hn, hsimple, hcard⟩ := exists_loops 100
  have hfound := Network.enumerates_elementary hsimple
  refine ⟨n, hn, hsimple, hcard, ?_, ?_⟩ <;> rw [cycleReport_eq]
  · exact (complete_ofFound hfound _).mpr hcard.le
  · rw [note_ofFound hfound, hcard]
    rfl

end

end BusinessAtlas
