import BusinessAtlas.Graph.Builder
import BusinessAtlas.Proofs.Graph.Passes
import Mathlib.Data.List.Induction

/-!
# What a builder exports

A builder exports the graph of its last build, and every build begins with a graph of its own. So
while the last build went through, exports show a graph with all counts and places, whatever was
asked for before; and after a build that stopped they show the part that it had made, in which
nothing is counted or not every node has a place.
-/

namespace BusinessAtlas

variable {α β : Type}

section Places

variable [Coordinate β]

private theorem Layout.exists_of_placeLevel_error {l : Layout β} {level : Nat}
    {ns : List (Node α β)} {f : Fault} (h : l.placeLevel ns level = .error f) :
    ∃ n ∈ ns, n.kind.level = level := by
  by_contra hnone
  have hcount : ns.countP (·.kind.level == level) = 0 := by
    rw [List.countP_eq_zero]
    intro n hn hlevel
    exact hnone ⟨n, hn, by simpa using hlevel⟩
  rw [placeLevel, hcount] at h
  cases h

end Places

namespace Graph

variable [Scalar α]

/-- Nothing is counted, and no node has a place. -/
structure Raw (g : Graph α β) : Prop where
  statistics : g.statistics = .zero
  nodes : ∀ n ∈ g.arena.nodes, n.position = none ∧ n.metrics.connectivity = 0

/-- Every node has a place and the number of its connections, and the statistics count what is
there. -/
structure Finished (g : Graph α β) : Prop where
  placed : ∀ n ∈ g.arena.nodes, n.position.isSome = true
  connected : ∀ n ∈ g.arena.nodes, n.metrics.connectivity = g.arena.degree n.id.key
  counts : g.statistics.nodes = g.arena.nodes.length ∧ g.statistics.edges = g.arena.edges.length ∧
    g.statistics.clusters = g.clusters.length

/-- However far the pass comes, it counts nothing and puts no node into a place. -/
def Spares (pass : Graph α β → Progress (Graph α β)) : Prop := ∀ g, g.Raw → (pass g).state.Raw

section

variable {ι : Type}

private theorem Spares.andThen {p q : Graph α β → Progress (Graph α β)} (hp : Spares p)
    (hq : Spares q) : Spares fun g => (p g).andThen q :=
  fun g hg => Progress.andThen_state (hp g hg) hq

private theorem spares_addNodes {node : ι → Except Fault (Node α β)}
    (h : ∀ x n, node x = .ok n → n.position = none ∧ n.metrics.connectivity = 0) (items : List ι) :
    Spares (addNodes node items) := by
  intro g hg
  refine Progress.each_state hg fun t x ht => ?_
  cases hx : node x with
  | error f => simpa [Progress.step, hx] using ht
  | ok n =>
    refine ⟨ht.statistics, fun m hm => ?_⟩
    have hmem : m ∈ t.arena.nodes ∨ m = n := by
      simp only [Progress.step, inArena, Arena.addNode, ok_bind, pure_eq_ok] at hm
      split at hm
      · simpa [Arena.putNode] using hm
      · exact .inl hm
    rcases hmem with hmem | rfl
    · exact ht.nodes m hmem
    · exact h x m hx

private theorem spares_addEdges (edges : ι → Except Fault (List (Edge α))) (items : List ι) :
    Spares (β := β) (addEdges edges items) := by
  intro g hg
  refine Progress.each_state hg fun t x ht => ?_
  cases hx : edges x with
  | error f => simpa [Progress.step, hx] using ht
  | ok es =>
    exact ⟨ht.statistics, fun n hn => ht.nodes n (t.arena.addEdges_nodes es ▸ hn)⟩

private theorem spares_addClusters
    (cluster : Arena α β → ι → Except Fault (Option (Cluster α))) (items : List ι) :
    Spares (addClusters cluster items) := by
  intro g hg
  refine Progress.each_state hg fun t x ht => ?_
  cases hx : cluster t.arena x with
  | error f => simpa [Progress.step, hx] using ht
  | ok c =>
    cases c with
    | none => exact ht
    | some c => exact ⟨ht.statistics, ht.nodes⟩

end

section

omit [Scalar α] in
private theorem fresh_ok {ι : Type} {node : ι → Node α β}
    (h : ∀ x, (node x).position = none ∧ (node x).metrics.connectivity = 0) (x : ι) (n : Node α β)
    (hn : (.ok (node x) : Except Fault (Node α β)) = .ok n) :
    n.position = none ∧ n.metrics.connectivity = 0 :=
  Except.ok.inj hn ▸ h x

private theorem spares_addAllNodes (s : Sources α) : Spares (addAllNodes (β := β) s) :=
  (((((((spares_addNodes (fun x n h => (made_ofStory x n h).fresh) _).andThen
    (spares_addNodes (fun x n h => (made_ofCapability x n h).fresh) _)).andThen
    (spares_addNodes (fresh_ok fun _ => ⟨rfl, rfl⟩) _)).andThen
    (spares_addNodes (fresh_ok fun _ => ⟨rfl, rfl⟩) _)).andThen
    (spares_addNodes (fresh_ok fun _ => ⟨rfl, rfl⟩) _)).andThen
    (spares_addNodes (fresh_ok fun _ => ⟨rfl, rfl⟩) _)).andThen
    (spares_addNodes (fun x n h => (made_ofRule x n h).fresh) _)).andThen
    (spares_addNodes (fun x n h => (made_ofPersona x n h).fresh) _)

private theorem spares_addAllEdges (s : Sources α) : Spares (addAllEdges (β := β) s) :=
  (((((spares_addEdges _ _).andThen (spares_addEdges _ _)).andThen
    ((spares_addEdges _ _).andThen (spares_addEdges _ _))).andThen
    ((spares_addEdges _ _).andThen (spares_addEdges _ _))).andThen
    (spares_addEdges _ _)).andThen (spares_addEdges _ _)

private theorem spares_addAllClusters (threshold : Json) (s : Sources α) :
    Spares (addAllClusters (β := β) threshold s) :=
  ((spares_addClusters _ _).andThen (spares_addClusters _ _)).andThen
    fun _ hg => ⟨hg.statistics, hg.nodes⟩

end

section

variable [Coordinate β]

omit [Scalar α] in
private theorem places_of_each {l : Layout β} {levels : List Nat} {g g' : Graph α β}
    (hg : ∀ n ∈ g.arena.nodes, n.position = none)
    (h : Progress.each (fun g level => .step g do
      let nodes ← l.placeLevel g.arena.nodes level
      return g.inArena fun a => { a with nodes }) g levels = .done g') :
    g'.arena.nodes.map (fun n => (n.unplaced, n.position.isSome)) =
        g.arena.nodes.map (fun n => (n, decide (n.kind.level ∈ levels))) ∧
      g'.arena.edges = g.arena.edges ∧ g'.clusters = g.clusters ∧ g'.statistics = g.statistics := by
  refine Progress.each_eq_done (P := fun before t =>
    t.arena.nodes.map (fun n => (n.unplaced, n.position.isSome)) =
        g.arena.nodes.map (fun n => (n, decide (n.kind.level ∈ before))) ∧
      t.arena.edges = g.arena.edges ∧ t.clusters = g.clusters ∧ t.statistics = g.statistics) h
    ⟨List.map_congr_left fun n hn => ?_, rfl, rfl, rfl⟩ ?_
  · have hn := hg n hn
    cases n
    cases hn
    simp [Node.unplaced]
  · rintro before level t t' ⟨hnodes, hedges, hclusters, hstatistics⟩ hs
    obtain ⟨ns, hns, hs⟩ := bind_eq_ok.mp (Progress.step_eq_done.mp hs)
    cases hs
    refine ⟨?_, hedges, hclusters, hstatistics⟩
    have hlevel := congrArg (List.map fun p : Node α β × Bool =>
      (p.1, p.1.kind.level == level || p.2)) hnodes
    rw [List.map_map, List.map_map] at hlevel
    refine (Layout.placeLevel_places hns).trans (hlevel.trans (List.map_congr_left fun n _ => ?_))
    by_cases hb : n.kind.level ∈ before <;> by_cases hl : n.kind.level = level <;> simp [hb, hl]

omit [Scalar α] in
private theorem exists_unplaced {l : Layout β} {g : Graph α β}
    (hg : ∀ n ∈ g.arena.nodes, n.position = none) (h : (place l g).fault ≠ none) :
    ∃ n ∈ (place l g).state.arena.nodes, n.position = none := by
  obtain ⟨before, level, after, t, hlevels, ht, hstop⟩ := Progress.exists_of_each_fault h
  rw [place, hstop] at h ⊢
  cases hl : l.placeLevel t.arena.nodes level with
  | ok nodes =>
    rw [hl] at h
    exact absurd rfl h
  | error f =>
    obtain ⟨n, hn, hlevel⟩ := Layout.exists_of_placeLevel_error hl
    refine ⟨n, hn, ?_⟩
    have hnew : level ∉ before := by
      have hnodup := hlevels ▸ List.nodup_range (n := NodeKind.levels)
      exact fun hmem => (List.nodup_append.mp hnodup).2.2 level hmem level List.mem_cons_self rfl
    have hmem := List.mem_map_of_mem (f := fun n => (n.unplaced, n.position.isSome)) hn
    rw [(places_of_each hg ht).1] at hmem
    obtain ⟨m, -, hm⟩ := List.mem_map.mp hmem
    obtain ⟨hsame, hplaced⟩ := Prod.mk.inj hm
    have hkind := congrArg Node.kind hsame
    change m.kind = n.kind at hkind
    rw [hkind, hlevel, decide_eq_false hnew] at hplaced
    exact Option.isNone_iff_eq_none.mp (Option.isSome_eq_false_iff.mp hplaced.symm)

private theorem finished_of_place {l : Layout β} {g g' : Graph α β}
    (hg : ∀ n ∈ g.arena.nodes, n.position = none)
    (h : place l g.connect.takeStatistics = .done g') : g'.Finished := by
  have hbare : ∀ n ∈ g.connect.takeStatistics.arena.nodes, n.position = none := by
    intro n hn
    obtain ⟨m, hm, rfl⟩ := List.mem_map.mp hn
    exact hg m hm
  obtain ⟨hnodes, hedges, hclusters, hstatistics⟩ := places_of_each hbare h
  have hlength := congrArg List.length hnodes
  rw [List.length_map, List.length_map] at hlength
  have hsource : ∀ n ∈ g'.arena.nodes, ∃ m ∈ g.connect.arena.nodes,
      m = n.unplaced ∧ n.position.isSome = true := by
    intro n hn
    have hmem := List.mem_map_of_mem (f := fun n => (n.unplaced, n.position.isSome)) hn
    rw [hnodes] at hmem
    obtain ⟨m, hm, hmn⟩ := List.mem_map.mp hmem
    obtain ⟨hsame, hplaced⟩ := Prod.mk.inj hmn
    refine ⟨m, hm, hsame, ?_⟩
    rw [← hplaced]
    exact decide_eq_true (List.mem_range.mpr m.kind.level_lt)
  refine ⟨fun n hn => ?_, fun n hn => ?_, ?_, ?_, ?_⟩
  · obtain ⟨m, -, -, hplaced⟩ := hsource n hn
    exact hplaced
  · obtain ⟨m, hm, hsame, -⟩ := hsource n hn
    obtain ⟨k, -, rfl⟩ := List.mem_map.mp hm
    have hdegree : n.metrics.connectivity = g.arena.degree n.id.key := by
      have hconnectivity := congrArg (·.metrics.connectivity) hsame
      have hid := congrArg Node.id hsame
      change k.id = n.id at hid
      exact hid ▸ hconnectivity.symm
    rw [hdegree, Arena.degree, Arena.degree, hedges]
    rfl
  · rw [hstatistics, hlength]
    rfl
  · rw [hstatistics, hedges]
    rfl
  · rw [hstatistics, hclusters]
    rfl

/-- A build goes through and leaves a finished graph, or it stops, and what it leaves is raw or has
a node without a place. -/
theorem build_cases (settings : GraphSettings β) (now : Moment) (s : Sources α) :
    ((build settings now s).fault = none ∧ (build settings now s).state.Finished) ∨
      ((build settings now s).fault ≠ none ∧ ((build settings now s).state.Raw ∨
        ∃ n ∈ (build settings now s).state.arena.nodes, n.position = none)) := by
  have hraw := (((spares_addAllNodes s).andThen (spares_addAllEdges s)).andThen
    (spares_addAllClusters settings.collapseThreshold s)) (start settings now)
    ⟨rfl, fun _ hn => absurd hn List.not_mem_nil⟩
  rw [build, Progress.andThen]
  split
  · have hg := fun n hn => (hraw.nodes n hn).1
    generalize (((addAllNodes s (start settings now)).andThen (addAllEdges s)).andThen
      (addAllClusters settings.collapseThreshold s)).state = g at hg
    cases hp : (place settings.layout g.connect.takeStatistics).fault with
    | none =>
      have hdone : place settings.layout g.connect.takeStatistics = .done _ :=
        congrArg (Progress.mk _) hp
      exact .inl ⟨rfl, finished_of_place hg hdone⟩
    | some f =>
      have hstopped : (place settings.layout g.connect.takeStatistics).fault ≠ none := by
        rw [hp]
        exact Option.some_ne_none f
      refine .inr ⟨Option.some_ne_none f, .inr (exists_unplaced (fun n hn => ?_) hstopped)⟩
      obtain ⟨m, hm, rfl⟩ := List.mem_map.mp hn
      exact hg m hm
  · exact .inr ⟨Option.some_ne_none _, .inl hraw⟩

end

end Graph

namespace GraphBuilder

/-- The last build among some calls. -/
def lastBuild (calls : List Call) : Option (Moment × Graph.Sources Number) :=
  calls.foldl (fun last c => match c with
    | .build now s => some (now, s)
    | .exportAs _ => last) none

/-- The graph of the last build that went through, if there was one. -/
def lastFinished (settings : GraphSettings Json) (calls : List Call) : Option (Graph Number Json) :=
  calls.foldl (fun last c => match c with
    | .build now s => ((Graph.build settings now s).toExcept.toOption).or last
    | .exportAs _ => last) none

section

variable {b : GraphBuilder}

private theorem run_append (calls later : List Call) : b.run (calls ++ later) =
    ((b.run calls).1 ++ ((b.run calls).2.run later).1, ((b.run calls).2.run later).2) := by
  induction calls generalizing b with
  | nil => rfl
  | cons c rest ih => simp only [List.cons_append, run, ih]

private theorem length_run (calls : List Call) : (b.run calls).1.length = calls.length := by
  induction calls generalizing b with
  | nil => rfl
  | cons c rest ih => simp only [run, List.length_cons, ih]

private theorem run_fresh (settings : GraphSettings Json) (calls : List Call) :
    ((fresh settings).run calls).2 =
      ⟨settings, (lastBuild calls).map fun c => (Graph.build settings c.1 c.2).state⟩ := by
  induction calls using List.reverseRecOn with
  | nil => rfl
  | append_singleton calls c ih =>
    have hlast : lastBuild (calls ++ [c]) = match c with
        | .build now s => some (now, s)
        | .exportAs _ => lastBuild calls := List.foldl_concat ..
    rw [run_append, ih, hlast]
    cases c with
    | build now s => rfl
    | exportAs o => rfl

end

/-- Whatever a builder was asked for, an export answers from the graph that the last build before it
reached, and from none if there was no build. What a build reached is finished if it went through,
and otherwise it is raw or has a node without a place. -/
theorem answer_export (settings : GraphSettings Json) (before after : List Call)
    (o : ExportOptions) :
    ((fresh settings).run (before ++ .exportAs o :: after)).1[before.length]? =
      some ((o.apply ((lastBuild before).map fun c =>
        (Graph.build settings c.1 c.2).state)).map .exported) ∧
    ∀ (now : Moment) (s : Graph.Sources Number),
      ((Graph.build settings now s).fault = none ∧ (Graph.build settings now s).state.Finished) ∨
      ((Graph.build settings now s).fault ≠ none ∧ ((Graph.build settings now s).state.Raw ∨
        ∃ n ∈ (Graph.build settings now s).state.arena.nodes, n.position = none)) := by
  refine ⟨?_, fun now s => Graph.build_cases settings now s⟩
  have hlen := length_run (b := fresh settings) before
  rw [run_append, List.getElem?_append_right (Nat.le_of_eq hlen), hlen, Nat.sub_self, run_fresh]
  rfl

private def plainSettings : GraphSettings Json := Config.default.graphSettings

private def moment : Moment := ⟨2024, 1, 2, 3, 4, 5, 0⟩

private def sources (stories : List String) (rules : List Rule) : Graph.Sources Number where
  context := {
    stories := stories.map fun id => ⟨.text id, .text id, .text "", .text "", .text "low", .int 1,
      .text "", .text "", .text "simple", [], [], .null⟩
    capabilities := []
    entities := []
    rules
    personas := [] }
  features := ⟨[], [], [], []⟩
  journeys := .empty

/-- A rule that names its entity by a number. -/
private def limit : Rule :=
  ⟨.text "limit", .text "", .text "workflow", [], [.number (.int 1)], [], [], .null⟩

private def sale : Graph.Sources Number := sources ["pay"] []

private def refund : Graph.Sources Number := sources ["pay", "refund"] [limit]

private def points : ExportOptions := ⟨.text "d3", true, false, true⟩

private def pointCount : Option (Except Fault Answer) → Option Nat
  | some (.ok (.exported v)) => ((v.itemsOf "nodes").toOption).map List.length
  | _ => none

/-- After a build that stopped, an export does not show the last graph that was finished. -/
theorem answer_export_stopped :
    (lastFinished plainSettings [.build moment sale, .build moment refund]).isSome = true ∧
      ((fresh plainSettings).run [.build moment sale, .build moment refund, .exportAs points]).1[2]? ≠
        some ((points.apply (lastFinished plainSettings
          [.build moment sale, .build moment refund])).map .exported) := by
  refine ⟨by decide +kernel, fun h => ?_⟩
  exact absurd (congrArg pointCount h) (by decide +kernel)

end GraphBuilder

end BusinessAtlas
