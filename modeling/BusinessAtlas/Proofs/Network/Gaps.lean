import BusinessAtlas.Proofs.Network.Collapse

/-!
# Where gaps are found

Each kind of gap is found at the nodes that lack something, and for a network that keeps what tells
the edges of a graph apart, what a node lacks is an edge. All gaps are found where every node has
attributes and the ids have a common order.
-/

namespace BusinessAtlas

variable {α β : Type}

theorem Link.mem_keys {l : Link α} {k : EdgeKey} : k ∈ l.keys ↔
    l.source.key = k.source ∧ l.target.key = k.target ∧ k.kind ∈ l.kinds := by
  rw [keys, List.mem_map]
  constructor
  · rintro ⟨kind, hkind, rfl⟩
    exact ⟨rfl, rfl, hkind⟩
  · rintro ⟨hsource, htarget, hkind⟩
    exact ⟨k.kind, hkind, by rw [hsource, htarget]⟩

namespace Network

section

private theorem gaps_of_mapM {kind : GapKind} {before after : String} {vs : List (NetworkNode α)}
    {gs : List Gap} (h : vs.mapM (fun v => gapAt kind v before after) = .ok gs) :
    gs.map (·.node) = vs.map (·.id) ∧ ∀ g ∈ gs, g.kind = kind := by
  have hgap (v : NetworkNode α) (g : Gap) (hg : gapAt kind v before after = .ok g) :
      g.node = v.id ∧ g.kind = kind := by
    obtain ⟨label, -, hg⟩ := bind_eq_ok.mp hg
    cases hg
    exact ⟨rfl, rfl⟩
  refine ⟨map_of_mapM h fun v _ g hg => (hgap v g hg).1, fun g hg => ?_⟩
  obtain ⟨v, -, hv⟩ := (mem_of_mapM h).mp hg
  exact (hgap v g hv).2

private theorem gapsOf_self {kind : GapKind} {gs : List Gap} (h : ∀ g ∈ gs, g.kind = kind) :
    gapsOf kind gs = gs := List.filter_eq_self.mpr fun g hg => beq_iff_eq.mpr (h g hg)

private theorem gapsOf_other {kind other : GapKind} {gs : List Gap} (h : ∀ g ∈ gs, g.kind = other)
    (hne : other ≠ kind) : gapsOf kind gs = [] :=
  List.filter_eq_nil_iff.mpr fun g hg he => hne (h g hg ▸ eq_of_beq he)

private theorem kind_of_holes {holes : List (NetworkNode Number × Float)} {gs : List Gap}
    (h : holes.mapM (fun (v, score) => do
      let gap ← gapAt .structuralHole v "'"
        "' is a single point of contact between parts of the graph"
      return { gap with betweenness := some score }) = .ok gs) :
    ∀ g ∈ gs, g.kind = .structuralHole := by
  intro g hg
  obtain ⟨v, -, hv⟩ := (mem_of_mapM h).mp hg
  obtain ⟨gap, hgap, hv⟩ := bind_eq_ok.mp hv
  obtain ⟨label, -, hgap⟩ := bind_eq_ok.mp hgap
  cases hgap
  cases hv
  rfl

theorem sortedNodes_eq_ok {vs sorted : List (NetworkNode α)} (h : sortedNodes vs = .ok sorted) :
    Ident.unordered (vs.map (·.id)) = false ∧ sorted = vs.mergeSort fun a b => !b.id.less a.id := by
  rw [sortedNodes] at h
  split at h
  · cases h
  · next hordered =>
    cases h
    exact ⟨eq_false_of_ne_true hordered, rfl⟩

/-- The gaps of a network, kind by kind. -/
theorem parts_of_gaps {n : Network Number} {gs : List Gap} (h : n.gaps = .ok gs) :
    n.unimplemented.mapM (fun v => gapAt .unimplemented v "User story '"
        "' has no implementing component") = .ok (gapsOf .unimplemented gs) ∧
      n.untraversed.mapM (fun v => gapAt .untraversed v "Component '"
        "' is not part of any user journey") = .ok (gapsOf .untraversed gs) ∧
      n.unused.mapM (fun v => gapAt .unused v "Data entity '"
        "' is not used by any capability or rule") = .ok (gapsOf .unused gs) ∧
      (n.isolated.mergeSort fun a b => !b.id.less a.id).mapM (fun v => gapAt .isolated v "'"
        "' has no relationships") = .ok (gapsOf .isolated gs) := by
  obtain ⟨stories, hstories, h⟩ := bind_eq_ok.mp h
  obtain ⟨components, hcomponents, h⟩ := bind_eq_ok.mp h
  obtain ⟨entities, hentities, h⟩ := bind_eq_ok.mp h
  obtain ⟨sorted, hsorted, h⟩ := bind_eq_ok.mp h
  obtain ⟨alone, halone, h⟩ := bind_eq_ok.mp h
  obtain ⟨scored, -, h⟩ := bind_eq_ok.mp h
  obtain ⟨holes, hholes, h⟩ := bind_eq_ok.mp h
  cases h
  rw [(sortedNodes_eq_ok hsorted).2] at halone
  have hskind := (gaps_of_mapM hstories).2
  have hckind := (gaps_of_mapM hcomponents).2
  have hekind := (gaps_of_mapM hentities).2
  have hakind := (gaps_of_mapM halone).2
  have hhkind := kind_of_holes hholes
  have happend (kind : GapKind) (xs ys : List Gap) :
      gapsOf kind (xs ++ ys) = gapsOf kind xs ++ gapsOf kind ys := List.filter_append ..
  simp only [happend]
  refine ⟨?_, ?_, ?_, ?_⟩
  · rw [gapsOf_self hskind, gapsOf_other hckind (by decide), gapsOf_other hekind (by decide),
      gapsOf_other hakind (by decide), gapsOf_other hhkind (by decide)]
    simpa using hstories
  · rw [gapsOf_self hckind, gapsOf_other hskind (by decide), gapsOf_other hekind (by decide),
      gapsOf_other hakind (by decide), gapsOf_other hhkind (by decide)]
    simpa using hcomponents
  · rw [gapsOf_self hekind, gapsOf_other hskind (by decide), gapsOf_other hckind (by decide),
      gapsOf_other hakind (by decide), gapsOf_other hhkind (by decide)]
    simpa using hentities
  · rw [gapsOf_self hakind, gapsOf_other hskind (by decide), gapsOf_other hckind (by decide),
      gapsOf_other hekind (by decide), gapsOf_other hhkind (by decide)]
    simpa using halone

theorem nodes_of_gaps {n : Network Number} {gs : List Gap} (h : n.gaps = .ok gs) :
    (gapsOf .unimplemented gs).map (·.node) = n.unimplemented.map (·.id) ∧
      (gapsOf .untraversed gs).map (·.node) = n.untraversed.map (·.id) ∧
      (gapsOf .unused gs).map (·.node) = n.unused.map (·.id) := by
  obtain ⟨hstories, hcomponents, hentities, -⟩ := parts_of_gaps h
  exact ⟨(gaps_of_mapM hstories).1, (gaps_of_mapM hcomponents).1, (gaps_of_mapM hentities).1⟩

end

namespace Collapses

variable {nodes : List (Node α β)} {edges : List (Edge α)} {n : Network α}

theorem mem_keys (hc : n.Collapses nodes edges) {k : EdgeKey} :
    k ∈ edges.map Edge.key ↔ ∃ l ∈ n.links, k ∈ l.keys := by
  rw [← hc.perm.mem_iff, List.mem_flatMap]

theorem isImplemented_iff (hc : n.Collapses nodes edges) (v : NetworkNode α) :
    n.isImplemented v = true ↔ ∃ t, ⟨v.id.key, t, .implements⟩ ∈ edges.map Edge.key := by
  simp only [hc.mem_keys, Link.mem_keys]
  rw [isImplemented, List.any_eq_true]
  constructor
  · rintro ⟨l, hl, h⟩
    obtain ⟨hsource, hkind⟩ := (Bool.and_eq_true _ _).mp h
    exact ⟨l.target.key, l, hl, eq_of_beq hsource, rfl, List.contains_iff_mem.mp hkind⟩
  · rintro ⟨t, l, hl, hsource, -, hkind⟩
    exact ⟨l, hl, (Bool.and_eq_true _ _).mpr
      ⟨beq_iff_eq.mpr hsource, List.contains_iff_mem.mpr hkind⟩⟩

theorem isUsed_iff (hc : n.Collapses nodes edges) (v : NetworkNode α) :
    n.isUsed v = true ↔ ∃ s kind, ⟨s, v.id.key, kind⟩ ∈ edges.map Edge.key := by
  simp only [hc.mem_keys, Link.mem_keys]
  rw [isUsed, List.any_eq_true]
  constructor
  · rintro ⟨l, hl, htarget⟩
    obtain ⟨kind, hkind⟩ := List.exists_mem_of_ne_nil _ (hc.kinds l hl)
    exact ⟨l.source.key, kind, l, hl, rfl, eq_of_beq htarget, hkind⟩
  · rintro ⟨s, kind, l, hl, -, htarget, -⟩
    exact ⟨l, hl, beq_iff_eq.mpr htarget⟩

private theorem find?_isOfKind_iff (hc : n.Collapses nodes edges)
    (hnodes : (nodes.map (·.id.key)).Nodup) (i : Ident) (kind : NodeKind) :
    (n.nodes.find? (·.id.same i)).any (·.isOfKind kind) = true ↔
      (i.key, kind) ∈ nodes.map Node.typedKey := by
  have hsame {v : Node α β} : (NetworkNode.ofNode v).id.same i = true ↔ v.id.key = i.key :=
    beq_iff_eq
  rw [hc.nodes_eq, List.find?_map, List.mem_map, Option.any_map, Option.any_eq_true]
  constructor
  · rintro ⟨v, hv, hkind⟩
    have hfound := List.find?_some hv
    exact ⟨v, List.mem_of_find?_eq_some hv, Prod.ext (hsame.mp hfound) (eq_of_beq hkind)⟩
  · rintro ⟨v, hv, hkey⟩
    have hvkey : v.id.key = i.key := congrArg Prod.fst hkey
    have hsome : (nodes.find? ((·.id.same i) ∘ NetworkNode.ofNode)).isSome = true :=
      List.find?_isSome.mpr ⟨v, hv, hsame.mpr hvkey⟩
    obtain ⟨w, hw⟩ := Option.isSome_iff_exists.mp hsome
    have hfound := List.find?_some hw
    have heq := List.inj_on_of_nodup_map hnodes (List.mem_of_find?_eq_some hw) hv
      ((hsame.mp hfound).trans hvkey.symm)
    exact ⟨w, hw, heq ▸ beq_iff_eq.mpr (congrArg Prod.snd hkey)⟩

theorem isTraversed_iff (hc : n.Collapses nodes edges) (hnodes : (nodes.map (·.id.key)).Nodup)
    (v : NetworkNode α) : n.isTraversed v = true ↔
      ∃ s kind, ⟨s, v.id.key, kind⟩ ∈ edges.map Edge.key ∧
        (s, .journey) ∈ nodes.map Node.typedKey := by
  simp only [hc.mem_keys, Link.mem_keys]
  rw [isTraversed, List.any_eq_true]
  constructor
  · rintro ⟨l, hl, h⟩
    obtain ⟨htarget, hjourney⟩ := (Bool.and_eq_true _ _).mp h
    obtain ⟨kind, hkind⟩ := List.exists_mem_of_ne_nil _ (hc.kinds l hl)
    exact ⟨l.source.key, kind, ⟨l, hl, rfl, eq_of_beq htarget, hkind⟩,
      (hc.find?_isOfKind_iff hnodes l.source .journey).mp hjourney⟩
  · rintro ⟨s, kind, ⟨l, hl, hsource, htarget, -⟩, hjourney⟩
    rw [← hsource] at hjourney
    exact ⟨l, hl, (Bool.and_eq_true _ _).mpr ⟨beq_iff_eq.mpr htarget,
      (hc.find?_isOfKind_iff hnodes l.source .journey).mpr hjourney⟩⟩

private theorem mem_filter_ofKind (hc : n.Collapses nodes edges) (kind : NodeKind)
    {p : NetworkNode α → Bool} (P : Key → Prop) (hp : ∀ v, p v = true ↔ P v.id.key) (k : Key) :
    k ∈ ((n.ofKind kind).filter fun v => !p v).map (·.id.key) ↔
      (k, kind) ∈ nodes.map Node.typedKey ∧ ¬ P k := by
  have hnot (v : NetworkNode α) : (!p v) = true ↔ ¬ P v.id.key := by
    rw [← hp, Bool.not_eq_true', Bool.not_eq_true]
  simp only [ofKind, hc.nodes_eq, List.mem_map, List.mem_filter, hnot]
  constructor
  · rintro ⟨v, ⟨⟨⟨w, hw, rfl⟩, hkind⟩, hv⟩, rfl⟩
    exact ⟨⟨w, hw, Prod.ext rfl (eq_of_beq hkind)⟩, hv⟩
  · rintro ⟨⟨w, hw, hkey⟩, hk⟩
    cases hkey
    exact ⟨.ofNode w, ⟨⟨⟨w, hw, rfl⟩, beq_self_eq_true w.kind⟩, hk⟩, rfl⟩

theorem mem_unimplemented (hc : n.Collapses nodes edges) (k : Key) :
    k ∈ n.unimplemented.map (·.id.key) ↔ (k, .story) ∈ nodes.map Node.typedKey ∧
      ¬ ∃ t, ⟨k, t, .implements⟩ ∈ edges.map Edge.key := by
  have hgap := hc.mem_filter_ofKind .story
    (fun k => ∃ t, (⟨k, t, .implements⟩ : EdgeKey) ∈ edges.map Edge.key) hc.isImplemented_iff
  exact hgap k

theorem mem_untraversed (hc : n.Collapses nodes edges) (hnodes : (nodes.map (·.id.key)).Nodup)
    (k : Key) : k ∈ n.untraversed.map (·.id.key) ↔ (k, .component) ∈ nodes.map Node.typedKey ∧
      ¬ ∃ s kind, ⟨s, k, kind⟩ ∈ edges.map Edge.key ∧ (s, .journey) ∈ nodes.map Node.typedKey := by
  have hgap := hc.mem_filter_ofKind .component
    (fun k => ∃ s kind, (⟨s, k, kind⟩ : EdgeKey) ∈ edges.map Edge.key ∧
      (s, NodeKind.journey) ∈ nodes.map Node.typedKey) (hc.isTraversed_iff hnodes)
  exact hgap k

theorem mem_unused (hc : n.Collapses nodes edges) (k : Key) :
    k ∈ n.unused.map (·.id.key) ↔ (k, .entity) ∈ nodes.map Node.typedKey ∧
      ¬ ∃ s kind, ⟨s, k, kind⟩ ∈ edges.map Edge.key := by
  have hgap := hc.mem_filter_ofKind .entity
    (fun k => ∃ s kind, (⟨s, k, kind⟩ : EdgeKey) ∈ edges.map Edge.key) hc.isUsed_iff
  exact hgap k

end Collapses

section

private theorem unordered_texts {ids : List Ident} (h : ∀ i ∈ ids, ∃ t, i = .text t) :
    Ident.unordered ids = false := by
  induction ids with
  | nil => rfl
  | cons i rest ih =>
    obtain ⟨⟨t, rfl⟩, hrest⟩ := List.forall_mem_cons.mp h
    have hsame : rest.any (fun j => (Ident.text t).sort != j.sort) = false := by
      refine List.any_eq_false.mpr fun j hj => ?_
      obtain ⟨u, rfl⟩ := hrest j hj
      simp [Ident.sort]
    rw [Ident.unordered, hsame, ih hrest]
    rfl

private theorem exists_gapAt {v : NetworkNode α} (h : v.attributes.isSome = true) (kind : GapKind)
    (before after : String) : ∃ g, gapAt kind v before after = .ok g := by
  obtain ⟨a, ha⟩ := Option.isSome_iff_exists.mp h
  have hlabel : v.label = .ok a.label := by rw [NetworkNode.label, ha]
  exact ⟨_, by rw [gapAt, hlabel, ok_bind, pure_eq_ok]⟩

private theorem unordered_nodes {vs : List (NetworkNode α)} (h : ∀ v ∈ vs, ∃ t, v.id = .text t) :
    Ident.unordered (vs.map (·.id)) = false := by
  refine unordered_texts fun i hi => ?_
  obtain ⟨v, hv, rfl⟩ := List.mem_map.mp hi
  exact h v hv

/-- The ids that are sorted for the gaps have a common order: those of the isolated nodes, and all of
them where there are enough nodes for one to hold parts together. -/
structure Ordered (n : Network α) : Prop where
  isolated : Ident.unordered (n.isolated.map (·.id)) = false
  nodes : n.nodes.length ≤ 2 ∨ Ident.unordered (n.nodes.map (·.id)) = false

theorem ordered_of_texts {n : Network α} (h : ∀ v ∈ n.nodes, ∃ t, v.id = .text t) : n.Ordered :=
  ⟨unordered_nodes fun v hv => h v (List.mem_of_mem_filter hv), .inr (unordered_nodes h)⟩

theorem sortedNodes_of_ordered {vs : List (NetworkNode α)}
    (h : Ident.unordered (vs.map (·.id)) = false) :
    sortedNodes vs = .ok (vs.mergeSort fun a b => !b.id.less a.id) := by
  rw [sortedNodes, h]
  rfl

variable {n : Network Number}

private theorem exists_structuralHoles
    (h : n.nodes.length ≤ 2 ∨ Ident.unordered (n.nodes.map (·.id)) = false) :
    ∃ holes, n.structuralHoles = .ok holes ∧ ∀ x ∈ holes, x.1 ∈ n.nodes := by
  unfold structuralHoles
  by_cases hsize : n.digraph.size ≤ 2
  · exact ⟨[], by simp [hsize], nofun⟩
  · have hordered := h.resolve_left hsize
    refine ⟨_, by simp only [hsize, if_false, hordered]; rfl, fun x hx => ?_⟩
    obtain ⟨y, hy, rfl⟩ := List.mem_map.mp hx
    have hscored := List.mem_mergeSort.mp (List.mem_of_mem_filter hy)
    exact (List.of_mem_zip hscored).1

private theorem ordered_of_structuralHoles {holes : List (NetworkNode Number × Float)}
    (h : n.structuralHoles = .ok holes) :
    n.nodes.length ≤ 2 ∨ Ident.unordered (n.nodes.map (·.id)) = false := by
  by_contra hnot
  rw [not_or, Bool.not_eq_false] at hnot
  have hsize : ¬n.digraph.size ≤ 2 := hnot.1
  unfold structuralHoles at h
  simp [hsize, hnot.2] at h

theorem ordered_of_gaps {gs : List Gap} (h : n.gaps = .ok gs) : n.Ordered := by
  obtain ⟨stories, -, h⟩ := bind_eq_ok.mp h
  obtain ⟨components, -, h⟩ := bind_eq_ok.mp h
  obtain ⟨entities, -, h⟩ := bind_eq_ok.mp h
  obtain ⟨sorted, hsorted, h⟩ := bind_eq_ok.mp h
  obtain ⟨alone, -, h⟩ := bind_eq_ok.mp h
  obtain ⟨holes, hholes, -⟩ := bind_eq_ok.mp h
  exact ⟨(sortedNodes_eq_ok hsorted).1, ordered_of_structuralHoles hholes⟩

/-- All gaps are found where all nodes have attributes and the ids have a common order. -/
theorem exists_gaps_of_ordered (hlabelled : ∀ v ∈ n.nodes, v.attributes.isSome = true)
    (h : n.Ordered) : ∃ gs, n.gaps = .ok gs := by
  have heach {vs : List (NetworkNode Number)} (h : ∀ v ∈ vs, v ∈ n.nodes) (kind : GapKind)
      (before after : String) : ∃ gs, vs.mapM (fun v => gapAt kind v before after) = .ok gs :=
    exists_mapM fun v hv => exists_gapAt (hlabelled v (h v hv)) kind before after
  have hfilter {p q : NetworkNode Number → Bool} : ∀ v ∈ (n.nodes.filter p).filter q, v ∈ n.nodes :=
    fun v hv => List.mem_of_mem_filter (List.mem_of_mem_filter hv)
  have hisolated : ∀ v ∈ n.isolated, v ∈ n.nodes := fun v hv => List.mem_of_mem_filter hv
  refine exists_bind (heach hfilter ..) fun stories _ => ?_
  refine exists_bind (heach hfilter ..) fun components _ => ?_
  refine exists_bind (heach hfilter ..) fun entities _ => ?_
  rw [sortedNodes_of_ordered h.isolated, ok_bind]
  refine exists_bind (heach (fun v hv => hisolated v (List.mem_mergeSort.mp hv)) ..) fun alone _ => ?_
  obtain ⟨holes, hholes, hmem⟩ := exists_structuralHoles h.nodes
  rw [hholes, ok_bind]
  refine exists_bind (exists_mapM fun x hx => ?_) fun scored _ => ⟨_, rfl⟩
  exact exists_bind (exists_gapAt (hlabelled x.1 (hmem x hx)) ..) fun gap _ => ⟨_, rfl⟩

theorem exists_gaps (hlabelled : ∀ v ∈ n.nodes, v.attributes.isSome = true)
    (htexts : ∀ v ∈ n.nodes, ∃ t, v.id = .text t) : ∃ gs, n.gaps = .ok gs :=
  exists_gaps_of_ordered hlabelled (ordered_of_texts htexts)

end

end Network

end BusinessAtlas
