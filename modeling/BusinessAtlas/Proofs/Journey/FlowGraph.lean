import BusinessAtlas.Classifier.Tables
import BusinessAtlas.Journey.Map
import Mathlib.Data.List.Induction
import Mathlib.Data.List.Infix
import Mathlib.Data.List.Nodup

/-!
# What the flow of data says of the journeys

The flow of data is traced in two passes over the steps of all journeys, one for its nodes and one
for its edges. What the passes find is described here by the journeys alone: who comes to a
component, which components follow one another, and which journey was the first to join two of them.
-/

namespace BusinessAtlas

variable {α : Type}

/-- Among the steps one at `a` is followed by one at `b`. -/
def Step.Joins (steps : List (Step α)) (a b : String) : Prop :=
  ∃ s t, [s, t] <:+: steps ∧ s.component = a ∧ t.component = b

/-- The journey goes from `s` straight to `t`, and neither a journey before it nor an earlier part
of itself went from the one component to the other. -/
def Journey.FirstToJoin (js : List (Journey α)) (j : Journey α) (s t : Step α) : Prop :=
  ∃ js₁ js₂ before after, js = js₁ ++ j :: js₂ ∧ j.steps = before ++ s :: t :: after ∧
    (∀ k ∈ js₁, ¬Step.Joins k.steps s.component t.component) ∧
    ¬Step.Joins (before ++ [s]) s.component t.component

def Step.Deletes (s : Step α) : Prop := ∃ o, s.operation = some o ∧ o.operation = some "delete"

/-- How much hangs on leaving a step: everything if it deletes, else much if someone who is signed in
changes data there, something if it is an interaction, and little otherwise. -/
structure Criticality.Rates (s : Step α) (j : Journey α) (c : Criticality) : Prop where
  critical : c = .critical ↔ s.Deletes
  high : c = .high ↔ ¬s.Deletes ∧ s.kind = .dataOperation ∧ j.persona = "authenticated-user"
  medium : c = .medium ↔ ¬s.Deletes ∧ s.kind = .interaction
  low : c = .low ↔ ¬s.Deletes ∧ s.kind ≠ .interaction ∧
    ¬(s.kind = .dataOperation ∧ j.persona = "authenticated-user")

theorem Criticality.rates_ofStep (s : Step α) (j : Journey α) : (ofStep s j).Rates s j := by
  have hdeletes : s.operation.any (·.operation == some "delete") = true ↔ s.Deletes := by
    simp [Step.Deletes, Option.any_eq_true]
  have hhigh : (s.kind == .dataOperation && j.persona == signedInPersona) = true ↔
      s.kind = .dataOperation ∧ j.persona = "authenticated-user" := by
    simp [signedInPersona]
  rw [ofStep]
  split
  · next h => exact ⟨by simp [hdeletes.mp h], by simp [hdeletes.mp h], by simp [hdeletes.mp h],
      by simp [hdeletes.mp h]⟩
  next h =>
  have hkeeps := mt hdeletes.mpr h
  split
  · next h =>
    obtain ⟨hkind, hpersona⟩ := hhigh.mp h
    constructor <;> simp [hkeeps, hkind, hpersona]
  next h =>
  have hother := mt hhigh.mpr h
  split
  · next h =>
    have hkind : s.kind = .interaction := by simpa using h
    constructor <;> simp [hkeeps, hkind]
  · next h =>
    have hkind : s.kind ≠ .interaction := by simpa using h
    exact ⟨by simp [hkeeps], by simp [hother], by simp [hkind], by simp [hkeeps, hkind, hother]⟩

/-- The flow of data shows where the journeys come to and how they go on, no more and no less. -/
structure FlowGraph.Charts (js : List (Journey α)) (g : FlowGraph) : Prop where
  names : g.nodes.map (·.name) = distinctItems (js.flatMap fun j => j.steps.map (·.component))
  journeys : ∀ n ∈ g.nodes,
    n.journeys = (js.filter fun j => n.name ∈ j.steps.map (·.component)).map (·.id) ∧
      n.journeys.Nodup
  operations : ∀ n ∈ g.nodes, n.operations = distinctItems
    (((js.flatMap (·.steps)).filter (·.component = n.name)).filterMap (·.operation))
  nodup_ends : (g.edges.map FlowEdge.ends).Nodup
  joins : ∀ a b, (a, b) ∈ g.edges.map FlowEdge.ends ↔ ∃ j ∈ js, Step.Joins j.steps a b
  first : ∀ e ∈ g.edges, ∃ j s t, Journey.FirstToJoin js j s t ∧
    e.ends = (s.component, t.component) ∧ e.id = "edge-" ++ s.id ++ "-" ++ t.id ∧
    e.operation = s.kind.name ∧ e.criticality = .ofStep s j ∧ e.criticality.Rates s j
  ends_mem : ∀ e ∈ g.edges, e.source ∈ g.nodes.map (·.name) ∧ e.target ∈ g.nodes.map (·.name)

section Nodes

theorem addNew_distinctItems {κ : Type} [DecidableEq κ] (x : κ) (items : List κ) :
    addNew x (distinctItems items) = distinctItems (items ++ [x]) := by
  rw [addNew, distinctItems_concat]
  by_cases hx : x ∈ items <;> simp [hx]

/-- Items that come any number of times, each in one run, are distinct if they have different keys. -/
theorem distinctItems_flatMap_replicate {ι κ : Type} [DecidableEq κ] {items : List ι}
    {key : ι → κ} (h : (items.map key).Nodup) (times : ι → Nat) :
    distinctItems (items.flatMap fun i => List.replicate (times i) (key i)) =
      (items.filter fun i => 0 < times i).map key := by
  induction items using List.reverseRecOn with
  | nil => rfl
  | append_singleton items i ih =>
    rw [List.map_append, List.nodup_append] at h
    obtain ⟨hitems, -, hnew⟩ := h
    have hfresh : key i ∉ items.flatMap fun i => List.replicate (times i) (key i) := by
      intro hmem
      obtain ⟨other, hother, hmem⟩ := List.mem_flatMap.mp hmem
      exact hnew (key other) (List.mem_map_of_mem hother) (key i) (by simp)
        (List.eq_of_mem_replicate hmem).symm
    rw [List.flatMap_append, List.flatMap_singleton, List.filter_append, List.map_append, ← ih hitems]
    cases hi : times i with
    | zero => simp [hi]
    | succ n => simp [hi, distinctItems_append_replicate hfresh]

/-- The steps of all journeys, each with the id of its journey. -/
private def Journey.visits (js : List (Journey α)) : List (String × Step α) :=
  js.flatMap fun j => j.steps.map fun s => (j.id, s)

/-- The node of a component, for all steps that were seen. -/
private def FlowNode.ofVisits (visits : List (String × Step α)) (name : String) : FlowNode where
  name := name
  operations := distinctItems ((visits.filter (·.2.component = name)).filterMap (·.2.operation))
  journeys := distinctItems ((visits.filter (·.2.component = name)).map (·.1))

namespace FlowNode

private theorem ofVisits_concat (visits : List (String × Step α)) (journey : String) (s : Step α)
    (name : String) : ofVisits (visits ++ [(journey, s)]) name =
      if s.component = name then (ofVisits visits name).noted journey s.operation
      else ofVisits visits name := by
  unfold ofVisits noted
  rw [List.filter_append]
  split
  · next h =>
    simp only [List.filter_singleton, h, decide_true, cond_true, List.map_append, List.map_singleton,
      List.filterMap_append, addNew_distinctItems]
    cases ho : s.operation with
    | none => simp [ho]
    | some o => simp [ho]
  · next h => simp [h]

private theorem ofVisits_of_notMem {visits : List (String × Step α)} {name : String}
    (h : name ∉ visits.map (·.2.component)) : ofVisits visits name = ⟨name, [], []⟩ := by
  have hnone : visits.filter (·.2.component = name) = [] := by
    rw [List.filter_eq_nil_iff]
    intro v hv hname
    exact h (List.mem_map.mpr ⟨v, hv, by simpa using hname⟩)
  rw [ofVisits, hnone]
  rfl

private theorem noteStep_map {f : String → FlowNode} (hf : ∀ name, (f name).name = name)
    {names : List String} (h : names.Nodup) (journey : String) (s : Step α) :
    noteStep journey s (names.map f) =
      names.map (fun name =>
        if s.component = name then (f name).noted journey s.operation else f name) ++
      if s.component ∈ names then [] else [noted journey s.operation ⟨s.component, [], []⟩] := by
  induction names with
  | nil => rfl
  | cons name rest ih =>
    obtain ⟨hname, hrest⟩ := List.nodup_cons.mp h
    by_cases hs : s.component = name
    · have hsame : rest.map (fun name => if s.component = name then
          (f name).noted journey s.operation else f name) = rest.map f := by
        refine List.map_congr_left fun other hother => if_neg ?_
        rintro rfl
        exact hname (hs ▸ hother)
      rw [List.map_cons, noteStep, if_pos (by simp [hf, hs]), List.map_cons, if_pos hs, hsame,
        if_pos (by simp [hs]), List.append_nil]
    · have hne : ¬name = s.component := fun he => hs he.symm
      simp [noteStep, hf, hs, hne, ih hrest]

private theorem foldl_noteStep (visits : List (String × Step α)) :
    visits.foldl (fun nodes v => noteStep v.1 v.2 nodes) [] =
      (distinctItems (visits.map (·.2.component))).map (ofVisits visits) := by
  induction visits using List.reverseRecOn with
  | nil => rfl
  | append_singleton visits v ih =>
    obtain ⟨journey, s⟩ := v
    have hall : ofVisits (visits ++ [(journey, s)]) = fun name =>
        if s.component = name then (ofVisits visits name).noted journey s.operation
        else ofVisits visits name := funext (ofVisits_concat visits journey s)
    rw [List.foldl_concat, ih, noteStep_map (fun _ => rfl) (nodup_distinctItems _), hall,
      List.map_append, List.map_singleton, distinctItems_concat, List.map_append]
    congr 1
    by_cases hs : s.component ∈ visits.map (·.2.component)
    · simp only [mem_distinctItems, hs, if_true, List.map_nil]
    · simp only [mem_distinctItems, hs, if_false, List.map_singleton, if_true, ofVisits_of_notMem hs]

private theorem ofJourneys_eq (js : List (Journey α)) : ofJourneys js =
    (distinctItems ((Journey.visits js).map (·.2.component))).map (ofVisits (Journey.visits js)) := by
  rw [← foldl_noteStep, ofJourneys, Journey.visits, List.foldl_flatMap]
  simp only [List.foldl_map]

private theorem journeys_ofVisits {js : List (Journey α)} (h : (js.map (·.id)).Nodup)
    (name : String) : (ofVisits (Journey.visits js) name).journeys =
      (js.filter fun j => name ∈ j.steps.map (·.component)).map (·.id) := by
  have hvisits : ((Journey.visits js).filter (·.2.component = name)).map (·.1) =
      js.flatMap fun j => List.replicate ((j.steps.map (·.component)).count name) j.id := by
    simp only [Journey.visits, List.filter_flatMap, List.map_flatMap, List.filter_map, List.map_map]
    congr 1
    funext j
    rw [List.count, List.countP_map, List.countP_eq_length_filter]
    exact List.map_const' ..
  rw [ofVisits, hvisits, distinctItems_flatMap_replicate h]
  simp only [List.count_pos_iff]

private theorem operations_ofVisits (js : List (Journey α)) (name : String) :
    (ofVisits (Journey.visits js) name).operations = distinctItems
      (((js.flatMap (·.steps)).filter (·.component = name)).filterMap (·.operation)) := by
  have hsteps : js.flatMap (·.steps) = (Journey.visits js).map (·.2) := by
    simp [Journey.visits, List.map_flatMap, Function.comp_def]
  rw [hsteps, List.filter_map, List.filterMap_map]
  rfl

end FlowNode

end Nodes

section Edges

private theorem mem_zip_tail {steps : List (Step α)} {s t : Step α} :
    (s, t) ∈ steps.zip steps.tail ↔ [s, t] <:+: steps := by
  induction steps with
  | nil => simp
  | cons first rest ih =>
    cases rest with
    | nil => simp [List.infix_cons_iff]
    | cons second rest =>
      rw [List.infix_cons_iff, List.tail_cons, List.zip_cons_cons, List.mem_cons, ← ih]
      simp

private theorem exists_of_zip_tail {steps : List (Step α)} {s t : Step α}
    {earlier later : List (Step α × Step α)}
    (h : steps.zip steps.tail = earlier ++ (s, t) :: later) :
    ∃ before after, steps = before ++ s :: t :: after ∧
      (before ++ [s]).zip (before ++ [s]).tail = earlier := by
  induction earlier generalizing steps with
  | nil =>
    match steps, h with
    | first :: second :: rest, h =>
      cases h
      exact ⟨[], rest, rfl, rfl⟩
  | cons pair earlier ih =>
    match steps, h with
    | first :: second :: rest, h =>
      obtain ⟨hpair, h⟩ := List.cons.inj h
      obtain ⟨before, after, hsteps, hearlier⟩ := ih h
      refine ⟨first :: before, after, by rw [hsteps]; rfl, ?_⟩
      have hhead : ∃ rest', before ++ [s] = second :: rest' := by
        cases before with
        | nil => exact ⟨[], by cases hsteps; rfl⟩
        | cons u us => exact ⟨us ++ [s], by cases hsteps; rfl⟩
      obtain ⟨rest', hrest'⟩ := hhead
      rw [List.cons_append, List.tail_cons, hrest', List.zip_cons_cons, ← hpair, ← hearlier, hrest']
      rfl

namespace FlowEdge

private theorem mem_ends {js : List (Journey α)} {a b : String} :
    (a, b) ∈ (ofJourneys js).map ends ↔ ∃ j ∈ js, Step.Joins j.steps a b := by
  rw [ofJourneys, mem_map_firstPer, List.mem_map]
  constructor
  · rintro ⟨e, he, hends⟩
    obtain ⟨j, hj, he⟩ := List.mem_flatMap.mp he
    obtain ⟨⟨s, t⟩, hpair, rfl⟩ := List.mem_map.mp he
    obtain ⟨hs, ht⟩ := Prod.mk.inj hends
    exact ⟨j, hj, s, t, mem_zip_tail.mp hpair, hs, ht⟩
  · rintro ⟨j, hj, s, t, hst, rfl, rfl⟩
    have hpair := List.mem_map_of_mem (f := ofTransition j) (mem_zip_tail.mpr hst)
    exact ⟨ofTransition j (s, t), List.mem_flatMap.mpr ⟨j, hj, hpair⟩, rfl⟩

private theorem first_of_ofJourneys {js : List (Journey α)} {e : FlowEdge}
    (h : e ∈ ofJourneys js) : ∃ j s t, Journey.FirstToJoin js j s t ∧ e = ofTransition j (s, t) := by
  have hfind := find?_of_mem_firstPer h
  rw [List.flatMap_def, List.find?_flatten_eq_some_iff] at hfind
  obtain ⟨-, blocks, earlier, later, blocks', hmap, hjs, hself⟩ := hfind
  obtain ⟨js₁, js', rfl, rfl, hrest⟩ := List.map_eq_append_iff.mp hmap
  obtain ⟨j, js₂, rfl, hj, -⟩ := List.map_eq_cons_iff.mp hrest
  obtain ⟨pairs, pairs', hpairs, rfl, hlast⟩ := List.map_eq_append_iff.mp hj
  obtain ⟨⟨s, t⟩, later', rfl, rfl, -⟩ := List.map_eq_cons_iff.mp hlast
  obtain ⟨before, after, hsteps, hearlier⟩ := exists_of_zip_tail hpairs
  refine ⟨j, s, t, ⟨js₁, js₂, before, after, rfl, hsteps, ?_, ?_⟩, rfl⟩
  · rintro k hk ⟨u, v, huv, hu, hv⟩
    have hpair := List.mem_map_of_mem (f := ofTransition k) (mem_zip_tail.mpr huv)
    have hne := hjs _ (List.mem_map_of_mem hk) _ hpair
    simp [ends, ofTransition, hu, hv] at hne
  · rintro ⟨u, v, huv, hu, hv⟩
    have hpair := List.mem_map_of_mem (f := ofTransition j) (hearlier ▸ mem_zip_tail.mpr huv)
    have hne := hself _ hpair
    simp [ends, ofTransition, hu, hv] at hne

end FlowEdge

end Edges

private theorem FlowGraph.charts_of_eq {js : List (Journey α)} {g : FlowGraph}
    (hids : (js.map (·.id)).Nodup) (hnodes : g.nodes = FlowNode.ofJourneys js)
    (hedges : g.edges = FlowEdge.ofJourneys js) : g.Charts js := by
  have hnames : (FlowNode.ofJourneys js).map (·.name) =
      distinctItems (js.flatMap fun j => j.steps.map (·.component)) := by
    rw [FlowNode.ofJourneys_eq, List.map_map]
    simp [Journey.visits, FlowNode.ofVisits, List.map_flatMap, Function.comp_def]
  have hnode : ∀ n ∈ FlowNode.ofJourneys js,
      n = FlowNode.ofVisits (Journey.visits js) n.name := by
    intro n hn
    rw [FlowNode.ofJourneys_eq] at hn
    obtain ⟨name, -, rfl⟩ := List.mem_map.mp hn
    rfl
  refine ⟨?_, fun n hn => ?_, fun n hn => ?_, ?_, fun a b => ?_, fun e he => ?_, fun e he => ?_⟩
  · rw [hnodes, hnames]
  · rw [hnodes] at hn
    have hjourneys := congrArg FlowNode.journeys (hnode n hn)
    refine ⟨hjourneys.trans (FlowNode.journeys_ofVisits hids n.name), ?_⟩
    rw [hjourneys]
    exact nodup_distinctItems _
  · rw [hnodes] at hn
    exact (congrArg FlowNode.operations (hnode n hn)).trans (FlowNode.operations_ofVisits _ _)
  · rw [hedges]
    exact nodup_map_firstPer _ _
  · rw [hedges, FlowEdge.mem_ends]
  · rw [hedges] at he
    obtain ⟨j, s, t, hfirst, rfl⟩ := FlowEdge.first_of_ofJourneys he
    exact ⟨j, s, t, hfirst, rfl, rfl, rfl, rfl, Criticality.rates_ofStep s j⟩
  · rw [hedges] at he
    have hends : e.ends ∈ (FlowEdge.ofJourneys js).map FlowEdge.ends :=
      List.mem_map_of_mem he
    obtain ⟨j, hj, s, t, hst, hs, ht⟩ := FlowEdge.mem_ends.mp hends
    rw [hnodes, hnames, mem_distinctItems, mem_distinctItems, ← hs, ← ht]
    have hsub := hst.subset
    exact ⟨List.mem_flatMap.mpr ⟨j, hj, List.mem_map_of_mem (hsub (by simp))⟩,
      List.mem_flatMap.mpr ⟨j, hj, List.mem_map_of_mem (hsub (by simp))⟩⟩

namespace JourneyMap

/-- Clusters are all that is added, also where one of them could not be named. -/
theorem addClusters_state (table : Classifier) (m : JourneyMap α) :
    ∃ clusters, (m.addClusters table).state = { m with flow := { m.flow with clusters } } := by
  refine Progress.each_state (P := fun k : JourneyMap α =>
    ∃ clusters, k = { m with flow := { m.flow with clusters } }) ⟨m.flow.clusters, rfl⟩ ?_
  rintro _ group ⟨clusters, rfl⟩
  cases FlowCluster.ofGroup group.1 group.2 with
  | error f => exact ⟨clusters, rfl⟩
  | ok cluster => exact ⟨clusters ++ [cluster], rfl⟩

theorem exists_addClusters {table : Classifier} (h : table.fallback ≠ none) (m : JourneyMap α) :
    ∃ m', m.addClusters table = .done m' := by
  refine Progress.exists_each_step (fun k group hgroup => ?_) m
  obtain ⟨hne, hitems⟩ := of_mem_grouped (List.mem_of_mem_filter hgroup)
  obtain ⟨name, hname⟩ := List.exists_mem_of_ne_nil _ hne
  obtain ⟨n, -, hn⟩ := List.mem_map.mp (hitems name hname)
  have hkey : table.classify n.name = group.1 := congrArg Prod.fst hn
  cases hsubject : group.1 with
  | none => exact absurd (hkey.trans hsubject) (Classifier.classify_ne_none h n.name)
  | some subject => exact ⟨_, by simp [FlowCluster.ofGroup]; rfl⟩

/-- The flow of data that is traced from nothing shows what journeys with ids of their own do, also
where the clusters could not be named. With a table that has a category for every name, tracing goes
through. -/
theorem charts_traceFlow (table : Classifier) (m : JourneyMap α) (hids : m.ids.Nodup)
    (hflow : m.flow = ⟨[], [], []⟩) :
    (m.traceFlow table).state.journeys = m.journeys ∧
      (m.traceFlow table).state.flow.Charts m.journeys ∧
      (table.fallback ≠ none → (m.traceFlow table).fault = none) := by
  obtain ⟨clusters, hstate⟩ := addClusters_state table m.addFlow
  have hstate : (m.traceFlow table).state = _ := hstate
  rw [hstate]
  refine ⟨rfl, FlowGraph.charts_of_eq hids ?_ ?_, fun htable => ?_⟩
  · simp [addFlow, hflow]
  · simp [addFlow, hflow]
  · obtain ⟨m', hm'⟩ := exists_addClusters htable m.addFlow
    exact congrArg Progress.fault hm'

private def errand (id persona : String) (stops : List (String × StepKind × Option String)) :
    Journey Rat :=
  ⟨id, "", persona, none, ⟨"", "", "", []⟩,
    stops.mapIdx fun i (stop, kind, change) =>
      ⟨id ++ "-" ++ toString i, 0, kind, "", stop, "", "",
        change.map fun c => ⟨some c, none, [], [], []⟩, [], none⟩,
    [], [], [], .zero, none⟩

/-- Two errands that share the way from the shop to the cart; one stays at the cart for a step. -/
private def errands : JourneyMap Rat where
  journeys := [
    errand "buy" "authenticated-user" [("Shop", .interaction, none),
      ("Cart", .dataOperation, some "update"), ("Cart", .interaction, some "delete"),
      ("Till", .navigation, none)],
    errand "look" "guest" [("Shop", .decision, none), ("Cart", .dataOperation, some "read"),
      ("Shop", .navigation, none)]]
  relationships := []
  patterns := []
  flow := ⟨[], [], []⟩

theorem charts_traceFlow_errands :
    (errands.traceFlow .dataFlowCluster).fault = none ∧
      (errands.traceFlow .dataFlowCluster).state.flow.Charts errands.journeys ∧
      (errands.addFlow.flow.nodes.map fun n => (n.name, n.journeys)) =
        [("Shop", ["buy", "look"]), ("Cart", ["buy", "look"]), ("Till", ["buy"])] ∧
      (errands.addFlow.flow.edges.map fun e => (e.ends, e.id, e.criticality)) =
        [(("Shop", "Cart"), "edge-buy-0-buy-1", .medium),
          (("Cart", "Cart"), "edge-buy-1-buy-2", .high),
          (("Cart", "Till"), "edge-buy-2-buy-3", .critical),
          (("Cart", "Shop"), "edge-look-1-look-2", .low)] := by
  obtain ⟨-, hcharts, hthrough⟩ :=
    charts_traceFlow .dataFlowCluster errands (by simp [errands, ids, errand]) rfl
  exact ⟨hthrough (by decide), hcharts, by decide +kernel, by decide +kernel⟩

end JourneyMap

end BusinessAtlas
