import BusinessAtlas.Network.Coverage
import BusinessAtlas.Proofs.Graph.Passes

/-!
# What a network keeps of a graph

Edges between the same two nodes become one link, which keeps their kinds: nothing that tells one
edge from another is lost. So what a network is asked about the links of a node is a question about
the edges of its graph.
-/

namespace BusinessAtlas

variable {α β : Type}

/-- A node as a network has it. -/
def NetworkNode.ofNode (n : Node α β) : NetworkNode α :=
  ⟨n.id, some ⟨n.kind, n.label, n.metrics.importance, n.metrics.connectivity⟩⟩

/-- The keys of the edges that a link stands for. -/
def Link.keys (l : Link α) : List EdgeKey :=
  l.kinds.map fun kind => ⟨l.source.key, l.target.key, kind⟩

namespace Network

/-- The network has the nodes, and its links stand for the edges, each edge once. -/
structure Collapses (nodes : List (Node α β)) (edges : List (Edge α)) (n : Network α) : Prop where
  nodes_eq : n.nodes = nodes.map .ofNode
  perm : (n.links.flatMap Link.keys).Perm (edges.map Edge.key)
  kinds : ∀ l ∈ n.links, l.kinds ≠ []

private theorem putNode_of_new {i : Ident} {a : NodeAttributes α} {vs : List (NetworkNode α)}
    (h : i.key ∉ vs.map (·.id.key)) : putNode i a vs = vs ++ [⟨i, some a⟩] := by
  induction vs with
  | nil => rfl
  | cons v rest ih =>
    rw [List.map_cons, List.mem_cons, not_or] at h
    have hne : v.id.same i = false := beq_false_of_ne fun he => h.1 he.symm
    rw [putNode, if_neg (by simp [hne]), ih h.2]
    rfl

variable {n n' : Network α}

private theorem addNode_of_new {node : Node α β} (h : n.addNode node = .ok n')
    (hnew : node.id.key ∉ n.nodes.map (·.id.key)) :
    n' = { n with nodes := n.nodes ++ [.ofNode node] } := by
  obtain ⟨_, -, h⟩ := bind_eq_ok.mp h
  cases h
  rw [putNode_of_new hnew]
  rfl

private theorem foldlM_addNode {nodes : List (Node α β)} (h : nodes.foldlM addNode n = .ok n')
    (hnew : (n.nodes.map (·.id.key) ++ nodes.map (·.id.key)).Nodup) :
    n' = { n with nodes := n.nodes ++ nodes.map .ofNode } := by
  induction nodes generalizing n with
  | nil =>
    cases h
    rw [List.map_nil, List.append_nil]
  | cons node rest ih =>
    rw [List.foldlM_cons] at h
    obtain ⟨m, hm, h⟩ := bind_eq_ok.mp h
    have hfresh : node.id.key ∉ n.nodes.map (·.id.key) := fun hmem =>
      List.disjoint_of_nodup_append hnew hmem List.mem_cons_self
    have hmade := addNode_of_new hm hfresh
    subst hmade
    have hrest : ((n.nodes ++ [NetworkNode.ofNode node]).map (·.id.key) ++
        rest.map (·.id.key)).Nodup := by
      simpa [NetworkNode.ofNode] using hnew
    rw [ih h hrest, List.append_assoc]
    rfl

private theorem mention_of_mem {i : Ident} (h : i.key ∈ n.nodes.map (·.id.key)) :
    n.mention i = n := by
  obtain ⟨v, hv, hk⟩ := List.mem_map.mp h
  have hhas : n.has i.key = true := List.any_eq_true.mpr ⟨v, hv, beq_iff_eq.mpr hk⟩
  rw [mention, if_pos hhas]

variable [Scalar α]

private theorem keys_merge {l : Link α} {e : Edge α} (h : Link.joins l e = true) :
    (Link.merge l e).keys = l.keys ++ [e.key] := by
  obtain ⟨hsource, htarget⟩ := (Bool.and_eq_true _ _).mp h
  have hends : (⟨l.source.key, l.target.key, e.kind⟩ : EdgeKey) = e.key := by
    rw [eq_of_beq hsource, eq_of_beq htarget]
    rfl
  rw [Link.keys, Link.merge, List.map_append, List.map_singleton, hends]
  rfl

private theorem keys_putLink (e : Edge α) (ls : List (Link α)) :
    ((putLink e ls).flatMap Link.keys).Perm (ls.flatMap Link.keys ++ [e.key]) := by
  induction ls with
  | nil => exact .refl _
  | cons l rest ih =>
    unfold putLink
    split
    · rename_i hjoins
      rw [List.flatMap_cons, List.flatMap_cons, keys_merge hjoins, List.append_assoc,
        List.append_assoc]
      exact List.perm_append_comm.append_left _
    · rw [List.flatMap_cons, List.flatMap_cons, List.append_assoc]
      exact ih.append_left _

private theorem kinds_putLink (e : Edge α) {ls : List (Link α)} (h : ∀ l ∈ ls, l.kinds ≠ []) :
    ∀ l ∈ putLink e ls, l.kinds ≠ [] := by
  induction ls with
  | nil => simp [putLink]
  | cons l rest ih =>
    obtain ⟨hl, hrest⟩ := List.forall_mem_cons.mp h
    unfold putLink
    split
    · exact List.forall_mem_cons.mpr ⟨by simp [Link.merge], hrest⟩
    · exact List.forall_mem_cons.mpr ⟨hl, ih hrest⟩

private theorem addEdge_of_ends {e : Edge α} (h : n.addEdge e = .ok n')
    (hsource : e.source.key ∈ n.nodes.map (·.id.key))
    (htarget : e.target.key ∈ n.nodes.map (·.id.key)) :
    n' = { n with links := putLink e n.links } := by
  obtain ⟨_, -, h⟩ := bind_eq_ok.mp h
  obtain ⟨_, -, h⟩ := bind_eq_ok.mp h
  cases h
  rw [mention_of_mem hsource, mention_of_mem htarget]

private theorem Collapses.addEdge {nodes : List (Node α β)} {edges : List (Edge α)} {e : Edge α}
    (hc : n.Collapses nodes edges) (h : n.addEdge e = .ok n')
    (hsource : e.source.key ∈ nodes.map (·.id.key))
    (htarget : e.target.key ∈ nodes.map (·.id.key)) : n'.Collapses nodes (edges ++ [e]) := by
  have hkeys : n.nodes.map (·.id.key) = nodes.map (·.id.key) := by
    rw [hc.nodes_eq, List.map_map]
    rfl
  have hmade := addEdge_of_ends h (hkeys ▸ hsource) (hkeys ▸ htarget)
  subst hmade
  refine ⟨hc.nodes_eq, ?_, kinds_putLink e hc.kinds⟩
  rw [List.map_append, List.map_singleton]
  exact (keys_putLink e n.links).trans (hc.perm.append_right _)

private theorem Collapses.foldlM_addEdge {nodes : List (Node α β)} {before edges : List (Edge α)}
    (hc : n.Collapses nodes before) (h : edges.foldlM Network.addEdge n = .ok n')
    (hends : ∀ e ∈ edges, e.source.key ∈ nodes.map (·.id.key) ∧
      e.target.key ∈ nodes.map (·.id.key)) : n'.Collapses nodes (before ++ edges) := by
  induction edges generalizing n before with
  | nil =>
    cases h
    rwa [List.append_nil]
  | cons e rest ih =>
    rw [List.foldlM_cons] at h
    obtain ⟨m, hm, h⟩ := bind_eq_ok.mp h
    obtain ⟨he, hrest⟩ := List.forall_mem_cons.mp hends
    rw [← List.singleton_append, ← List.append_assoc]
    exact ih (hc.addEdge hm he.1 he.2) h hrest

private theorem links_of_foldlM {edges : List (Edge α)} (h : edges.foldlM Network.addEdge n = .ok n')
    (hends : ∀ e ∈ edges, e.source.key ∈ n.nodes.map (·.id.key) ∧
      e.target.key ∈ n.nodes.map (·.id.key)) :
    n' = { n with links := edges.foldl (fun ls e => putLink e ls) n.links } := by
  induction edges generalizing n with
  | nil =>
    cases h
    rfl
  | cons e rest ih =>
    rw [List.foldlM_cons] at h
    obtain ⟨m, hm, h⟩ := bind_eq_ok.mp h
    obtain ⟨he, hrest⟩ := List.forall_mem_cons.mp hends
    have hmade := addEdge_of_ends hm he.1 he.2
    subst hmade
    exact ih h hrest

/-- No node is mentioned that was not added: the network has the nodes, and its links take in the
edges one by one. -/
theorem eq_of_ofLists {nodes : List (Node α β)} {edges : List (Edge α)}
    (h : ofLists nodes edges = .ok n) (hnodes : (nodes.map (·.id.key)).Nodup)
    (hends : ∀ e ∈ edges, e.source.key ∈ nodes.map (·.id.key) ∧
      e.target.key ∈ nodes.map (·.id.key)) :
    n = ⟨nodes.map .ofNode, edges.foldl (fun ls e => putLink e ls) []⟩ := by
  obtain ⟨m, hm, h⟩ := bind_eq_ok.mp h
  have hmade := foldlM_addNode hm hnodes
  subst hmade
  have hkeys : (nodes.map NetworkNode.ofNode).map (·.id.key) = nodes.map (·.id.key) := by
    rw [List.map_map]
    rfl
  refine links_of_foldlM h fun e he => ?_
  rw [List.nil_append, hkeys]
  exact hends e he

theorem collapses_ofLists {nodes : List (Node α β)} {edges : List (Edge α)}
    (h : ofLists nodes edges = .ok n) (hnodes : (nodes.map (·.id.key)).Nodup)
    (hends : ∀ e ∈ edges, e.source.key ∈ nodes.map (·.id.key) ∧
      e.target.key ∈ nodes.map (·.id.key)) : n.Collapses nodes edges := by
  obtain ⟨m, hm, h⟩ := bind_eq_ok.mp h
  have hmade := foldlM_addNode hm hnodes
  subst hmade
  have hstart : Network.Collapses nodes ([] : List (Edge α))
      ⟨[] ++ nodes.map .ofNode, []⟩ := ⟨rfl, .nil, nofun⟩
  exact hstart.foldlM_addEdge h hends

omit [Scalar α] in
private theorem ne_null_of_addNode {node : Node α β} (h : n.addNode node = .ok n') :
    node.id ≠ .null := by
  intro hnull
  rw [addNode, hnull] at h
  cases h

omit [Scalar α] in
private theorem ne_null_of_foldlM {nodes : List (Node α β)} (h : nodes.foldlM addNode n = .ok n') :
    ∀ v ∈ nodes, v.id ≠ .null := by
  induction nodes generalizing n with
  | nil => exact fun v hv => absurd hv List.not_mem_nil
  | cons v rest ih =>
    rw [List.foldlM_cons] at h
    obtain ⟨m, hm, h⟩ := bind_eq_ok.mp h
    exact List.forall_mem_cons.mpr ⟨ne_null_of_addNode hm, ih h⟩

theorem ne_null_of_ofLists {nodes : List (Node α β)} {edges : List (Edge α)}
    (h : ofLists nodes edges = .ok n) : ∀ v ∈ nodes, v.id ≠ .null := by
  obtain ⟨m, hm, -⟩ := bind_eq_ok.mp h
  exact ne_null_of_foldlM hm

/-- A network is made of all lists in which no id is null. -/
theorem exists_ofLists {nodes : List (Node α β)} {edges : List (Edge α)}
    (hnodes : ∀ v ∈ nodes, v.id ≠ .null)
    (hedges : ∀ e ∈ edges, e.source ≠ .null ∧ e.target ≠ .null) :
    ∃ n, ofLists nodes edges = .ok n := by
  have hcheck {i : Ident} (h : i ≠ .null) : checkNode i = .ok () := by
    cases i with
    | null => exact absurd rfl h
    | _ => rfl
  refine exists_bind (exists_foldlM (fun n v hv => ?_) _) fun n _ =>
    exists_foldlM (fun n e he => ?_) n
  · exact ⟨_, bind_eq_ok.mpr ⟨(), hcheck (hnodes v hv), rfl⟩⟩
  · obtain ⟨hsource, htarget⟩ := hedges e he
    exact ⟨_, bind_eq_ok.mpr ⟨(), hcheck hsource, bind_eq_ok.mpr ⟨(), hcheck htarget, rfl⟩⟩⟩

end Network

end BusinessAtlas
