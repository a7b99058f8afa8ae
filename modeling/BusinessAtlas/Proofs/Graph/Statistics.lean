import BusinessAtlas.Proofs.Graph.Builder
import BusinessAtlas.Proofs.Graph.Census
import BusinessAtlas.Proofs.Grouped
import Mathlib.Algebra.Order.Field.Rat
import Mathlib.Tactic.Linarith
import Mathlib.Tactic.Positivity

/-!
# What the statistics of a graph tell

Every edge has two ends, and both are at nodes of the graph, of which no two have one id. So the
connections of all nodes together are twice the edges, whatever edges are parallel or lead from a node
to itself, and a node without connections is one that no edge touches. The counts by kind add up to
all that is counted. In exact arithmetic the average and the density are the quotients of these
counts, and nothing is divided by zero.
-/

namespace BusinessAtlas

section

variable {κ : Type} [DecidableEq κ]

/-- Every kind that there is is counted once, with the number of its things. -/
structure CountsAll (kinds : List κ) (counts : List (κ × Nat)) : Prop where
  nodup : (counts.map Prod.fst).Nodup
  mem_iff : ∀ k n, (k, n) ∈ counts ↔ kinds.count k = n ∧ n ≠ 0
  total : totalOf (counts.map Prod.snd) = kinds.length

private theorem totalOf_countsOf (kinds : List κ) :
    totalOf ((countsOf kinds).map Prod.snd) = kinds.length := by
  have hcounts : (countsOf kinds).map Prod.snd = (distinctItems kinds).map fun k => kinds.count k := by
    rw [countsOf, List.map_map]
    rfl
  rw [hcounts]
  exact totalOf_count (nodup_distinctItems kinds) fun _ hx => mem_distinctItems.mpr hx

theorem countsAll_countsOf (kinds : List κ) : CountsAll kinds (countsOf kinds) := by
  refine ⟨?_, fun k n => ?_, totalOf_countsOf kinds⟩
  · have hkeys : (countsOf kinds).map Prod.fst = distinctItems kinds := by
      rw [countsOf, List.map_map]
      exact List.map_id _
    rw [hkeys]
    exact nodup_distinctItems kinds
  · rw [countsOf, List.mem_map]
    constructor
    · rintro ⟨l, hl, hpair⟩
      cases hpair
      exact ⟨rfl, (List.count_pos_iff.mpr (mem_distinctItems.mp hl)).ne'⟩
    · rintro ⟨rfl, hne⟩
      exact ⟨k, mem_distinctItems.mpr (List.count_pos_iff.mp (Nat.pos_of_ne_zero hne)), rfl⟩

end

variable {α β : Type}

namespace Graph

/-- Whether no edge begins or ends at a node. -/
def isAlone (g : Graph α β) (v : Node α β) : Bool :=
  g.arena.edges.all fun e => !e.source.same v.id && !e.target.same v.id

theorem isAlone_iff (g : Graph α β) (v : Node α β) :
    g.isAlone v = true ↔ g.arena.degree v.id.key = 0 := by
  simp [isAlone, Arena.degree, Ident.same, List.countP_eq_zero, forall_and]

/-- Both ends of every edge are at nodes, and no two nodes have one id. -/
structure Sound (g : Graph α β) : Prop where
  nodup : g.arena.nodeKeys.Nodup
  ends : ∀ e ∈ g.arena.edges, e.source.key ∈ g.arena.nodeKeys ∧ e.target.key ∈ g.arena.nodeKeys

theorem Sound.totalOf_degree {g : Graph α β} (h : g.Sound) :
    totalOf (g.arena.nodes.map fun v => g.arena.degree v.id.key) = 2 * g.arena.edges.length := by
  have hend (key : Edge α → Key) (hkey : ∀ e ∈ g.arena.edges, key e ∈ g.arena.nodeKeys) :
      totalOf (g.arena.nodes.map fun v => g.arena.edges.countP (key · == v.id.key)) =
        g.arena.edges.length := by
    have hends : ∀ k ∈ g.arena.edges.map key, k ∈ g.arena.nodeKeys := by simpa using hkey
    have hcount := totalOf_count h.nodup hends
    rw [Arena.nodeKeys, List.map_map, List.length_map] at hcount
    rw [← hcount]
    simp only [List.count, List.countP_map]
    rfl
  simp only [Arena.degree]
  rw [totalOf_map_add, hend _ fun e he => (h.ends e he).1, hend _ fun e he => (h.ends e he).2]
  omega

variable [Scalar α]

section

variable [Coordinate β] {settings : GraphSettings β} {now : Moment} {s : Sources α} {g : Graph α β}

theorem sound_of_build (h : build settings now s = .done g) : g.Sound := by
  have hshows := shows_of_build h
  refine ⟨nodup_of_build h, fun e he => ?_⟩
  obtain ⟨-, hsource, htarget⟩ := (hshows.edges e.key).mp (List.mem_map_of_mem he)
  exact ⟨(hshows.nodes _).mpr hsource, (hshows.nodes _).mpr htarget⟩

theorem finished_of_build (h : build settings now s = .done g) : g.Finished := by
  rcases build_cases settings now s with ⟨-, hfinished⟩ | ⟨hstopped, -⟩
  · rw [h] at hfinished
    exact hfinished
  · rw [h] at hstopped
    exact absurd rfl hstopped

omit [Coordinate β] in
private theorem counted_congr {g g' : Graph α β}
    (hnodes : g'.arena.nodes.map Node.unplaced = g.arena.nodes.map Node.unplaced)
    (hedges : g'.arena.edges = g.arena.edges) (hclusters : g'.clusters = g.clusters)
    (haverage : g.arena.nodes = [] →
      g'.statistics.averageConnectivity = g.statistics.averageConnectivity) :
    g'.counted = g.counted := by
  have hlength := congrArg List.length hnodes
  have hkinds := congrArg (List.map Node.kind) hnodes
  have hdegrees := congrArg (List.map (·.metrics.connectivity)) hnodes
  have halone := congrArg (List.countP (·.metrics.connectivity == 0)) hnodes
  rw [List.length_map, List.length_map] at hlength
  simp only [List.map_map, List.countP_map] at hkinds hdegrees halone
  have hempty : g'.arena.nodes.isEmpty = g.arena.nodes.isEmpty := by
    rw [Bool.eq_iff_iff, List.isEmpty_iff_length_eq_zero, List.isEmpty_iff_length_eq_zero, hlength]
  change g'.arena.nodes.map (·.kind) = g.arena.nodes.map (·.kind) at hkinds
  change g'.arena.nodes.map (·.metrics.connectivity) = g.arena.nodes.map (·.metrics.connectivity)
    at hdegrees
  change g'.arena.nodes.countP (·.metrics.connectivity == 0) =
    g.arena.nodes.countP (·.metrics.connectivity == 0) at halone
  simp only [counted, hlength, hkinds, hdegrees, halone, hedges, hclusters, hempty]
  congr 1
  split
  · next h => exact haverage (List.isEmpty_iff.mp h)
  · rfl

theorem statistics_of_build (h : build settings now s = .done g) : g.statistics = g.counted := by
  obtain ⟨g₃, -, hplace⟩ := Progress.andThen_eq_done.mp h
  have hunplaced := unplaced_of_place hplace
  obtain ⟨nodes, rfl⟩ := exists_nodes_of_place hplace
  refine (counted_congr (g := g₃.connect) hunplaced rfl rfl fun hempty => ?_).symm
  change g₃.connect.counted.averageConnectivity = _
  rw [counted]
  exact if_pos (List.isEmpty_iff.mpr hempty)

end

/-- What is counted is what is there: for every node the edge ends at it, for the graph its nodes and
edges, all of them and by kind, and the nodes that no edge touches. -/
structure Counts (g : Graph α β) : Prop where
  connectivity : ∀ v ∈ g.arena.nodes, v.metrics.connectivity =
    g.arena.edges.countP (·.source.same v.id) + g.arena.edges.countP (·.target.same v.id)
  connections : totalOf (g.arena.nodes.map (·.metrics.connectivity)) = 2 * g.arena.edges.length
  nodes : g.statistics.nodes = g.arena.nodes.length
  edges : g.statistics.edges = g.arena.edges.length
  nodesByKind : CountsAll (g.arena.nodes.map (·.kind)) g.statistics.nodesByKind
  edgesByKind : CountsAll (g.arena.edges.map (·.kind)) g.statistics.edgesByKind
  isolated : g.statistics.isolated = g.arena.nodes.countP g.isAlone

theorem counts_of_build [Coordinate β] {settings : GraphSettings β} {now : Moment} {s : Sources α}
    {g : Graph α β} (h : build settings now s = .done g) : g.Counts := by
  have hfinished := finished_of_build h
  have hstatistics := statistics_of_build h
  have hdegrees : g.arena.nodes.map (·.metrics.connectivity) =
      g.arena.nodes.map fun v => g.arena.degree v.id.key :=
    List.map_congr_left hfinished.connected
  refine ⟨hfinished.connected, ?_, hfinished.counts.1, hfinished.counts.2.1, ?_, ?_, ?_⟩
  · rw [hdegrees]
    exact (sound_of_build h).totalOf_degree
  · rw [hstatistics]
    exact countsAll_countsOf _
  · rw [hstatistics]
    exact countsAll_countsOf _
  · rw [hstatistics]
    refine List.countP_congr fun v hv => ?_
    rw [hfinished.connected v hv, isAlone_iff, beq_iff_eq]

end Graph

/-- Exact numbers with values of their own in the place of quotients by zero. -/
@[reducible] def Scalar.dividingExactly (other : Rat → Rat) : Scalar Rat :=
  { (inferInstance : Scalar Rat) with div a b := if b = 0 then other a else a / b }

private theorem pairs_ne_zero {n : Nat} (h : ¬n < 2) : ((n : Rat) * (n - 1)) / 2 ≠ 0 := by
  have hle : (2 : Rat) ≤ n := by exact_mod_cast Nat.not_lt.mp h
  have hpairs : (0 : Rat) < n * (n - 1) := mul_pos (by linarith) (by linarith)
  positivity

private theorem div_count_pairs {n : Nat} (h : ¬n < 2) :
    (Scalar.div (Scalar.count (n * (n - 1))) (Scalar.int 2) : Rat) = (n : Rat) * (n - 1) / 2 := by
  have hsub : ((n - 1 : Nat) : Rat) = n - 1 := by
    rw [Nat.cast_sub (by omega), Nat.cast_one]
  change (((n * (n - 1) : Nat) : Int) : Rat) / ((2 : Int) : Rat) = _
  rw [Int.cast_natCast, Nat.cast_mul, hsub, Int.cast_ofNat]

private theorem densityOf_dividingExactly {other : Rat → Rat} :
    @densityOf Rat (.dividingExactly other) = densityOf := by
  funext nodes edges
  unfold densityOf
  split
  · rfl
  · next hmany =>
    have hne : (Scalar.div (Scalar.count (nodes * (nodes - 1))) (Scalar.int 2) : Rat) ≠ 0 :=
      div_count_pairs hmany ▸ pairs_ne_zero hmany
    exact if_neg hne

namespace Graph

private theorem counted_dividingExactly {other : Rat → Rat} (g : Graph Rat β) :
    @counted Rat β (.dividingExactly other) g = g.counted := by
  unfold counted
  rw [densityOf_dividingExactly]
  dsimp only
  congr 1
  split
  · rfl
  · next hne =>
    have hlength : (g.arena.nodes.length : Rat) ≠ 0 :=
      Nat.cast_ne_zero.mpr (mt List.isEmpty_iff_length_eq_zero.mpr hne)
    exact if_neg hlength

/-- The quotients in the statistics are those of the counts, and none is by zero: with any values in
the place of quotients by zero they are the same. -/
structure Measures (g : Graph Rat β) : Prop where
  average : g.arena.nodes ≠ [] →
    g.statistics.averageConnectivity * g.statistics.nodes = 2 * g.statistics.edges
  density : g.statistics.density = if g.statistics.nodes < 2 then 0 else
    (g.statistics.edges : Rat) / (g.statistics.nodes * (g.statistics.nodes - 1) / 2)
  divides : ∀ other, @counted Rat β (.dividingExactly other) g = g.statistics

private theorem measures_of_build [Coordinate β] {settings : GraphSettings β} {now : Moment}
    {s : Sources Rat} {g : Graph Rat β} (h : build settings now s = .done g) : g.Measures := by
  have hcounts := counts_of_build h
  have hstatistics := statistics_of_build h
  refine ⟨fun hne => ?_, ?_, fun other => ?_⟩
  · have haverage : g.statistics.averageConnectivity =
        ((2 * g.arena.edges.length : Nat) : Rat) / (g.arena.nodes.length : Rat) := by
      rw [hstatistics, counted]
      dsimp only
      rw [if_neg (mt List.isEmpty_iff.mp hne), hcounts.connections]
      rfl
    have hlength : (g.arena.nodes.length : Rat) ≠ 0 :=
      Nat.cast_ne_zero.mpr (mt List.eq_nil_of_length_eq_zero hne)
    rw [haverage, hcounts.nodes, hcounts.edges, div_mul_cancel₀ _ hlength, Nat.cast_mul,
      Nat.cast_ofNat]
  · have hdensity : g.statistics.density = densityOf g.arena.nodes.length g.arena.edges.length := by
      rw [hstatistics, counted]
    rw [hdensity, hcounts.nodes, hcounts.edges, densityOf]
    split
    · exact Rat.zero_mkRat _
    · next hmany =>
      rw [div_count_pairs hmany]
      rfl
  · rw [hstatistics]
    exact counted_dividingExactly g

/-- The statistics of every graph that is built count what is there; in exact arithmetic they are the
quotients of these counts, and nothing is divided by zero. -/
theorem measures_build {β : Type} [Coordinate β] (settings : GraphSettings β) (now : Moment) :
    (∀ (s : Sources Number) (g : Graph Number β),
      (build settings now s).toExcept = .ok g → g.Counts) ∧
    ∀ (s : Sources Rat) (g : Graph Rat β),
      (build settings now s).toExcept = .ok g → g.Counts ∧ g.Measures := by
  refine ⟨fun s g h => counts_of_build (Progress.toExcept_eq_ok.mp h), fun s g h => ?_⟩
  have hbuilt := Progress.toExcept_eq_ok.mp h
  exact ⟨counts_of_build hbuilt, measures_of_build hbuilt⟩

/-- A story that has the id of the node of its own component. -/
private def loop {α : Type} [Scalar α] : Sources α where
  context := {
    stories := [⟨.text "component-Cart", .text "Pay", .text "", .text "buyer", .text "high",
      Scalar.int 1, .text "", .text "", .text "simple", [.text "Cart"], [], .null⟩]
    capabilities := []
    entities := []
    rules := []
    personas := [] }
  features := ⟨[], [], [], []⟩
  journeys := .empty

private def loopSettings : GraphSettings Rat :=
  ⟨.text "Loop", .text "", ⟨1000, 150, 100, 100⟩, .int 5⟩

theorem measures_build_loop :
    (∃ g : Graph Number Rat, (build loopSettings ⟨2024, 1, 2, 3, 4, 5, 0⟩ loop).toExcept = .ok g ∧
      g.Counts) ∧
    ∃ g : Graph Rat Rat, (build loopSettings ⟨2024, 1, 2, 3, 4, 5, 0⟩ loop).toExcept = .ok g ∧
      g.arena.nodes.map (·.metrics.connectivity) = [2] ∧ g.arena.edges.length = 1 ∧
      g.statistics.averageConnectivity = 2 ∧ g.statistics.density = 0 ∧ g.Counts ∧ g.Measures := by
  obtain ⟨hcounted, hmeasured⟩ := measures_build loopSettings ⟨2024, 1, 2, 3, 4, 5, 0⟩
  constructor
  · have hbuilt : (build loopSettings ⟨2024, 1, 2, 3, 4, 5, 0⟩
        (loop (α := Number))).toExcept.toOption.isSome = true := by decide +kernel
    obtain ⟨g, hg⟩ := Option.isSome_iff_exists.mp hbuilt
    have hok := toOption_eq_some.mp hg
    exact ⟨g, hok, hcounted loop g hok⟩
  · have hbuilt : (build loopSettings ⟨2024, 1, 2, 3, 4, 5, 0⟩
        (loop (α := Rat))).toExcept.toOption.any (fun g =>
          g.arena.nodes.map (·.metrics.connectivity) == [2] && g.arena.edges.length == 1 &&
          g.statistics.averageConnectivity == 2) = true := by decide +kernel
    obtain ⟨g, hg, hchecks⟩ := exists_of_any hbuilt
    simp only [Bool.and_eq_true, beq_iff_eq] at hchecks
    obtain ⟨⟨hconnections, hedges⟩, haverage⟩ := hchecks
    obtain ⟨hcounts, hmeasures⟩ := hmeasured loop g hg
    have hnodes : g.statistics.nodes < 2 := by
      rw [hcounts.nodes, ← List.length_map, hconnections]
      decide
    exact ⟨g, hg, hconnections, hedges, haverage, hmeasures.density.trans (if_pos hnodes), hcounts,
      hmeasures⟩

end Graph

end BusinessAtlas
