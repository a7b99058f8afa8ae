import BusinessAtlas.Proofs.Graph.Statistics
import BusinessAtlas.Proofs.Network.Coverage
import BusinessAtlas.Proofs.Network.Merged

/-!
# The gaps of a graph

Whatever is asked of a network about the edges at a node has the answer that the edges of its graph
give, parallel edges and edges from a node to itself included. So the gaps of coverage can be read off
the graph as well, and the nodes that are reported as isolated are those without connections, as many
as the statistics count.
-/

namespace BusinessAtlas

variable {α β : Type}

/-- What is reported where a node of a graph lacks something. -/
def Node.gap (kind : GapKind) (before after : String) (v : Node α β) : Gap :=
  ⟨kind, v.id, some v.kind, none, before ++ v.label.shown ++ after⟩

namespace Graph

/-- Whether an edge that implements leaves a node. -/
def isImplemented (g : Graph α β) (v : Node α β) : Bool :=
  g.arena.edges.any fun e => e.source.same v.id && e.kind == .implements

/-- Whether an edge from a journey enters a node. -/
def isTraversed (g : Graph α β) (v : Node α β) : Bool :=
  g.arena.edges.any fun e => e.target.same v.id &&
    g.arena.nodes.any fun w => w.id.same e.source && w.kind == .journey

def isUsed (g : Graph α β) (v : Node α β) : Bool := g.arena.edges.any (·.target.same v.id)

/-- The isolated nodes in the order of their ids. -/
def sortedAlone (g : Graph α β) : List (Node α β) :=
  (g.arena.nodes.filter g.isAlone).mergeSort fun v w => !w.id.less v.id

/-- The network has the nodes of the graph and one link for any two nodes between which there are
edges, in the order of the edges; each link stands for the edges between its ends, of which no two are
of one kind. -/
structure CollapsesTo (g : Graph Number β) (n : Network Number) : Prop where
  nodes : n.nodes = g.arena.nodes.map .ofNode
  ends : n.links.map Link.ends = distinctItems (g.arena.edges.map Edge.ends)
  exists_iff : ∀ u v, (∃ l ∈ n.links, l.ends = (u, v)) ↔
    ∃ e ∈ g.arena.edges, e.source.key = u ∧ e.target.key = v
  stands : ∀ l ∈ n.links, l.Stands (g.arena.edges.filter (·.ends = l.ends))
  kinds : ∀ l ∈ n.links, l.kinds.Nodup

/-- The gaps of coverage are those that the edges of the graph leave. The isolated nodes are those
without connections, and the statistics count them. -/
structure LeavesGaps (g : Graph α β) (gs : List Gap) : Prop where
  unimplemented : gapsOf .unimplemented gs =
    (g.arena.nodes.filter fun v => v.kind == .story && !g.isImplemented v).map
      (Node.gap .unimplemented "User story '" "' has no implementing component")
  untraversed : gapsOf .untraversed gs =
    (g.arena.nodes.filter fun v => v.kind == .component && !g.isTraversed v).map
      (Node.gap .untraversed "Component '" "' is not part of any user journey")
  unused : gapsOf .unused gs =
    (g.arena.nodes.filter fun v => v.kind == .entity && !g.isUsed v).map
      (Node.gap .unused "Data entity '" "' is not used by any capability or rule")
  isolated : gapsOf .isolated gs =
    g.sortedAlone.map (Node.gap .isolated "'" "' has no relationships")
  isolated_iff : ∀ v ∈ g.arena.nodes, g.isAlone v = true ↔ v.metrics.connectivity = 0
  count : (gapsOf .isolated gs).length = g.statistics.isolated

section Answers

variable {g : Graph α β} {n : Network α}

theorem isImplemented_eq (hc : n.Collapses g.arena.nodes g.arena.edges) (v : Node α β) :
    n.isImplemented (.ofNode v) = g.isImplemented v := by
  rw [Bool.eq_iff_iff, hc.isImplemented_iff, isImplemented, List.any_eq_true]
  simp only [Bool.and_eq_true, beq_iff_eq]
  constructor
  · rintro ⟨t, ht⟩
    obtain ⟨e, he, hkey⟩ := List.mem_map.mp ht
    exact ⟨e, he, beq_iff_eq.mpr (congrArg EdgeKey.source hkey), congrArg EdgeKey.kind hkey⟩
  · rintro ⟨e, he, hsource, hkind⟩
    refine ⟨e.target.key, List.mem_map.mpr ⟨e, he, ?_⟩⟩
    rw [Edge.key, eq_of_beq hsource, hkind]
    rfl

theorem isTraversed_eq (hc : n.Collapses g.arena.nodes g.arena.edges) (hnodup : g.arena.nodeKeys.Nodup)
    (v : Node α β) : n.isTraversed (.ofNode v) = g.isTraversed v := by
  rw [Bool.eq_iff_iff, hc.isTraversed_iff hnodup, isTraversed, List.any_eq_true]
  simp only [Bool.and_eq_true, List.any_eq_true, beq_iff_eq]
  constructor
  · rintro ⟨s, kind, hedge, hjourney⟩
    obtain ⟨e, he, hkey⟩ := List.mem_map.mp hedge
    obtain ⟨w, hw, htyped⟩ := List.mem_map.mp hjourney
    have hsource : w.id.key = e.source.key :=
      (congrArg Prod.fst htyped).trans (congrArg EdgeKey.source hkey).symm
    exact ⟨e, he, beq_iff_eq.mpr (congrArg EdgeKey.target hkey), w, hw, beq_iff_eq.mpr hsource,
      congrArg Prod.snd htyped⟩
  · rintro ⟨e, he, htarget, w, hw, hsource, hkind⟩
    refine ⟨e.source.key, e.kind, List.mem_map.mpr ⟨e, he, ?_⟩, List.mem_map.mpr ⟨w, hw, ?_⟩⟩
    · rw [Edge.key, eq_of_beq htarget]
      rfl
    · rw [Node.typedKey, eq_of_beq hsource, hkind]

theorem isUsed_eq (hc : n.Collapses g.arena.nodes g.arena.edges) (v : Node α β) :
    n.isUsed (.ofNode v) = g.isUsed v := by
  rw [Bool.eq_iff_iff, hc.isUsed_iff, isUsed, List.any_eq_true]
  constructor
  · rintro ⟨s, kind, hedge⟩
    obtain ⟨e, he, hkey⟩ := List.mem_map.mp hedge
    exact ⟨e, he, beq_iff_eq.mpr (congrArg EdgeKey.target hkey)⟩
  · rintro ⟨e, he, htarget⟩
    refine ⟨e.source.key, e.kind, List.mem_map.mpr ⟨e, he, ?_⟩⟩
    rw [Edge.key, eq_of_beq htarget]
    rfl

theorem isIsolated_eq (hc : n.Collapses g.arena.nodes g.arena.edges) (v : Node α β) :
    n.isIsolated (.ofNode v) = g.isAlone v := by
  rw [Bool.eq_iff_iff, Network.isIsolated, isAlone, List.all_eq_true, List.all_eq_true]
  constructor
  · intro hlinks e he
    obtain ⟨l, hl, hkey⟩ := hc.mem_keys.mp (List.mem_map_of_mem he)
    obtain ⟨hsource, htarget, -⟩ := Link.mem_keys.mp hkey
    change l.source.key = e.source.key at hsource
    change l.target.key = e.target.key at htarget
    have hfree := hlinks l hl
    rw [Ident.same, Ident.same, hsource, htarget] at hfree
    exact hfree
  · intro hedges l hl
    obtain ⟨kind, hkind⟩ := List.exists_mem_of_ne_nil _ (hc.kinds l hl)
    have hedge : ⟨l.source.key, l.target.key, kind⟩ ∈ g.arena.edges.map Edge.key :=
      hc.mem_keys.mpr ⟨l, hl, Link.mem_keys.mpr ⟨rfl, rfl, hkind⟩⟩
    obtain ⟨e, he, hkey⟩ := List.mem_map.mp hedge
    have hsource : e.source.key = l.source.key := congrArg EdgeKey.source hkey
    have htarget : e.target.key = l.target.key := congrArg EdgeKey.target hkey
    have hfree := hedges e he
    rw [Ident.same, Ident.same, hsource, htarget] at hfree
    exact hfree

private theorem filter_ofKind (hc : n.Collapses g.arena.nodes g.arena.edges) (kind : NodeKind)
    {p : NetworkNode α → Bool} {q : Node α β → Bool} (h : ∀ v, p (.ofNode v) = q v) :
    (n.ofKind kind).filter (fun v => !p v) =
      (g.arena.nodes.filter fun v => v.kind == kind && !q v).map .ofNode := by
  rw [Network.ofKind, hc.nodes_eq, List.filter_map, List.filter_map, List.filter_filter]
  congr 1
  refine List.filter_congr fun v _ => ?_
  rw [Function.comp_apply, Function.comp_apply, h, Bool.and_comm]
  rfl

private theorem isolated_eq (hc : n.Collapses g.arena.nodes g.arena.edges) :
    n.isolated = (g.arena.nodes.filter g.isAlone).map .ofNode := by
  rw [Network.isolated, hc.nodes_eq, List.filter_map]
  congr 1
  exact List.filter_congr fun v _ => isIsolated_eq hc v

private theorem gaps_of_nodes {kind : GapKind} {before after : String} {vs : List (Node α β)}
    {gs : List Gap}
    (h : (vs.map NetworkNode.ofNode).mapM (fun v => Network.gapAt kind v before after) = .ok gs) :
    gs = vs.map (Node.gap kind before after) := by
  rw [List.mapM_map] at h
  have hmap := map_of_mapM (g := id) h fun v _ gap hgap => (Except.ok.inj hgap).symm
  rwa [List.map_id] at hmap

end Answers

variable {settings : GraphSettings β} {now : Moment} {s : Sources Number} {g : Graph Number β}
  {n : Network Number}

section

variable [Coordinate β]

theorem collapsesTo_of_build (h : build settings now s = .done g) (hn : Network.ofGraph g = .ok n) :
    g.CollapsesTo n := by
  have hsound := sound_of_build h
  have hmade := Network.eq_of_ofLists hn hsound.nodup hsound.ends
  have hmerged := Network.merged_foldl g.arena.edges
  subst hmade
  refine ⟨rfl, hmerged.ends, fun u v => ?_, hmerged.stands, fun l hl => ?_⟩
  · have hmem : (u, v) ∈ distinctItems (g.arena.edges.map Edge.ends) ↔
        (u, v) ∈ g.arena.edges.map Edge.ends := mem_distinctItems
    rw [← hmerged.ends] at hmem
    simpa [Edge.ends] using hmem
  · rw [(hmerged.stands l hl).kinds]
    have hkeys : (g.arena.edges.filter (·.ends = l.ends)).map Edge.key =
        ((g.arena.edges.filter (·.ends = l.ends)).map (·.kind)).map fun kind =>
          ⟨l.source.key, l.target.key, kind⟩ := by
      rw [List.map_map]
      refine List.map_congr_left fun e he => ?_
      have hends : e.ends = l.ends := of_decide_eq_true (List.mem_filter.mp he).2
      have hsource : e.source.key = l.source.key := congrArg Prod.fst hends
      have htarget : e.target.key = l.target.key := congrArg Prod.snd hends
      rw [Edge.key, hsource, htarget]
      rfl
    have hnodup : ((g.arena.edges.filter (·.ends = l.ends)).map Edge.key).Nodup :=
      (List.filter_sublist.map _).nodup (nodup_edgeKeys_of_build h)
    exact (hkeys ▸ hnodup).of_map

theorem leavesGaps_of_build (h : build settings now s = .done g) (hn : Network.ofGraph g = .ok n)
    {gs : List Gap} (hgaps : n.gaps = .ok gs) : g.LeavesGaps gs := by
  have hcollapses := collapses_of_build h hn
  have hfinished := finished_of_build h
  have hnodup := nodup_of_build h
  obtain ⟨hstories, hcomponents, hentities, halone⟩ := Network.parts_of_gaps hgaps
  rw [Network.unimplemented, filter_ofKind hcollapses .story (isImplemented_eq hcollapses)] at hstories
  rw [Network.untraversed, filter_ofKind hcollapses .component (isTraversed_eq hcollapses hnodup)]
    at hcomponents
  rw [Network.unused, filter_ofKind hcollapses .entity (isUsed_eq hcollapses)] at hentities
  have hsorted : (g.sortedAlone.map NetworkNode.ofNode) =
      n.isolated.mergeSort fun a b => !b.id.less a.id := by
    rw [isolated_eq hcollapses]
    exact List.map_mergeSort fun _ _ _ _ => rfl
  rw [← hsorted] at halone
  have hisolated := gaps_of_nodes halone
  have hlone : ∀ v ∈ g.arena.nodes, g.isAlone v = true ↔ v.metrics.connectivity = 0 := by
    intro v hv
    rw [isAlone_iff, hfinished.connected v hv]
  refine ⟨gaps_of_nodes hstories, gaps_of_nodes hcomponents, gaps_of_nodes hentities, hisolated,
    hlone, ?_⟩
  rw [hisolated, List.length_map, sortedAlone, List.length_mergeSort, ← List.countP_eq_length_filter]
  exact (counts_of_build h).isolated.symm

omit [Coordinate β] in
private theorem null_of_key {i : Ident} (h : i.key = .null) : i = .null := by
  have hnumber (n : Number) : Ident.numberKey n ≠ .null := by
    rw [Ident.numberKey]
    split
    · exact nofun
    · split <;> exact nofun
  cases i with
  | null => rfl
  | bool b => exact absurd h (hnumber (.int (if b then 1 else 0)))
  | number n => exact absurd h (hnumber n)
  | text t => cases h

theorem exists_network_iff (h : build settings now s = .done g) :
    (∃ n, Network.ofGraph g = .ok n) ↔ ∀ v ∈ g.arena.nodes, v.id ≠ .null := by
  constructor
  · rintro ⟨n, hn⟩
    exact Network.ne_null_of_ofLists hn
  · intro hnodes
    have hends {i : Ident} (hi : i.key ∈ g.arena.nodeKeys) : i ≠ .null := by
      obtain ⟨v, hv, hkey⟩ := List.mem_map.mp hi
      rintro rfl
      exact hnodes v hv (null_of_key hkey)
    have hsound := sound_of_build h
    exact Network.exists_ofLists hnodes fun e he =>
      ⟨hends (hsound.ends e he).1, hends (hsound.ends e he).2⟩

theorem exists_gaps_iff (h : build settings now s = .done g) (hn : Network.ofGraph g = .ok n) :
    (∃ gs, n.gaps = .ok gs) ↔ n.Ordered := by
  constructor
  · rintro ⟨gs, hgs⟩
    exact Network.ordered_of_gaps hgs
  · refine Network.exists_gaps_of_ordered fun v hv => ?_
    rw [(collapses_of_build h hn).nodes_eq] at hv
    obtain ⟨node, -, rfl⟩ := List.mem_map.mp hv
    rfl

/-- The network of a graph that was built is a faithful picture of it, and so are the gaps of
coverage. There is a network unless the id of some node is null, and there are gaps unless ids that are
sorted have no common order. -/
theorem leavesGaps_build (settings : GraphSettings β) (now : Moment) (s : Sources Number)
    (g : Graph Number β) (h : (build settings now s).toExcept = .ok g) :
    ((∃ n, Network.ofGraph g = .ok n) ↔ ∀ v ∈ g.arena.nodes, v.id ≠ .null) ∧
      (∀ n, Network.ofGraph g = .ok n → g.CollapsesTo n ∧
        ((∃ gs, n.gaps = .ok gs) ↔ n.Ordered) ∧ ∀ gs, n.gaps = .ok gs → g.LeavesGaps gs) ∧
      ((∀ v ∈ g.arena.nodes, ∃ t, v.id = .text t) →
        ∃ n gs, Network.ofGraph g = .ok n ∧ n.gaps = .ok gs) := by
  have hbuilt := Progress.toExcept_eq_ok.mp h
  refine ⟨exists_network_iff hbuilt, fun n hn => ⟨collapsesTo_of_build hbuilt hn,
    exists_gaps_iff hbuilt hn, fun gs hgs => leavesGaps_of_build hbuilt hn hgs⟩, fun htexts => ?_⟩
  have hnull : ∀ v ∈ g.arena.nodes, v.id ≠ .null := by
    intro v hv
    obtain ⟨t, ht⟩ := htexts v hv
    rw [ht]
    exact nofun
  obtain ⟨n, hn⟩ := (exists_network_iff hbuilt).mpr hnull
  have hordered : n.Ordered := by
    refine Network.ordered_of_texts fun v hv => ?_
    rw [(collapses_of_build hbuilt hn).nodes_eq] at hv
    obtain ⟨node, hnode, rfl⟩ := List.mem_map.mp hv
    exact htexts node hnode
  obtain ⟨gs, hgs⟩ := (exists_gaps_iff hbuilt hn).mpr hordered
  exact ⟨n, gs, hn, hgs⟩

end

/-- A capability and a rule with its id that both lead to one entity, and two things that lead
nowhere. -/
private def booth : Sources Number where
  context := {
    stories := [⟨.text "pay", .text "Pay", .text "", .text "buyer", .text "high", .int 1, .text "",
      .text "", .text "simple", [], [], .null⟩]
    capabilities := [⟨.text "sales", .text "Sales", .text "", [], [], [.text "Order"], [],
      .text "core", .null⟩]
    entities := [⟨.text "Order", [], [], [], .text "", .null⟩]
    rules := [⟨.text "sales", .text "", .text "workflow", [], [.text "Order"], [], [], .null⟩]
    personas := [⟨.text "buyer", .text "Buyer", .text "", [], [], .null⟩] }
  features := ⟨[], [], [], []⟩
  journeys := .empty

private def boothSettings : GraphSettings Rat :=
  ⟨.text "Booth", .text "", ⟨1000, 150, 100, 100⟩, .int 5⟩

private def boothIds : List Ident :=
  [.text "pay", .text "sales", .text "entity-Order", .text "buyer"]

theorem leavesGaps_build_booth : ∃ g n gs,
    (build boothSettings ⟨2024, 1, 2, 3, 4, 5, 0⟩ booth).toExcept = .ok g ∧
      Network.ofGraph g = .ok n ∧ n.gaps = .ok gs ∧ g.arena.edges.length = 2 ∧
      n.links.map Link.ends = [(.text "sales", .text "entity-Order")] ∧ g.CollapsesTo n ∧
      g.LeavesGaps gs := by
  have hbuilt : (build boothSettings ⟨2024, 1, 2, 3, 4, 5, 0⟩ booth).toExcept.toOption.any (fun g =>
      g.arena.nodes.map (·.id) == boothIds &&
      g.arena.edges.map Edge.ends == List.replicate 2 (.text "sales", .text "entity-Order")) =
        true := by
    decide +kernel
  obtain ⟨g, hg, hchecks⟩ := exists_of_any hbuilt
  simp only [Bool.and_eq_true, beq_iff_eq] at hchecks
  obtain ⟨hids, hedges⟩ := hchecks
  obtain ⟨-, hall, htexts⟩ := leavesGaps_build boothSettings ⟨2024, 1, 2, 3, 4, 5, 0⟩ booth g hg
  obtain ⟨n, gs, hn, hgs⟩ := htexts fun v hv => by
    have hid : v.id ∈ boothIds := hids ▸ List.mem_map_of_mem hv
    simp only [boothIds, List.mem_cons, List.not_mem_nil, or_false] at hid
    rcases hid with hid | hid | hid | hid <;> exact ⟨_, hid⟩
  obtain ⟨hcollapses, -, hleaves⟩ := hall n hn
  have hlength := congrArg List.length hedges
  rw [List.length_map] at hlength
  refine ⟨g, n, gs, hg, hn, hgs, hlength, ?_, hcollapses, hleaves gs hgs⟩
  rw [hcollapses.ends, hedges]
  rfl

end Graph

end BusinessAtlas
