import BusinessAtlas.Journey.Json
import BusinessAtlas.Proofs.Feature.Finite
import BusinessAtlas.Proofs.Journey.Traced

/-!
# Finite journeys

The journeys among finite mappings are finite. Their steps are numbered one by one along every path
of the walk, so no order exceeds the number of steps, and what is computed from orders, durations
and counts is bounded as long as no list is longer than any list can be.
-/

namespace BusinessAtlas

namespace Terrain

variable {t : Terrain} {entry : Component}

/-- The number of steps that some visits make. -/
private def stepCount (vs : List Visit) : Nat := (vs.flatMap (·.mapping.patterns)).length

/-- No order exceeds the number of steps that were made so far. -/
private structure Ordered (w : Walk t.project entry) : Prop where
  stack : ∀ e ∈ w.stack, e.2 ≤ 1 + stepCount w.made
  made : ∀ v ∈ w.made, v.nextOrder ≤ 1 + stepCount w.made

variable {w w' : Walk t.project entry}

private theorem ordered_start : Ordered (t.start entry) where
  stack := by
    intro e he
    rw [List.mem_singleton.mp he]
    exact Nat.le_add_right _ _
  made := nofun

private theorem Ordered.advance (h : Ordered w) (ha : t.advance w = .ok (some w')) : Ordered w' := by
  obtain ⟨c, order, stack, k, hstack, -, hw⟩ := advance_cases ha
  have hall := h.stack
  rw [hstack] at hall
  obtain ⟨htop, hrest⟩ := List.forall_mem_cons.mp hall
  rcases hw with ⟨-, rfl⟩ | ⟨-, -, rfl⟩ | ⟨-, m, ds, -, -, rfl⟩
  · exact ⟨hrest, h.made⟩
  · exact ⟨hrest, h.made⟩
  · have hcount : stepCount (w.made ++ [⟨c.1, m, order⟩]) = stepCount w.made + m.patterns.length := by
      simp [stepCount]
    refine ⟨List.forall_mem_append.mpr ⟨?_, ?_⟩, List.forall_mem_append.mpr ⟨?_, ?_⟩⟩
    · intro e he
      obtain ⟨d, -, rfl⟩ := List.mem_map.mp he
      dsimp only
      omega
    · intro e he
      have hle := hrest e he
      dsimp only
      omega
    · intro v hv
      have hle := h.made v hv
      dsimp only
      omega
    · refine List.forall_mem_singleton.mpr ?_
      unfold Visit.nextOrder
      dsimp only
      omega

private theorem Ordered.run (h : Ordered w) :
    Yields (t.run w) fun vs => ∀ v ∈ vs, v.nextOrder ≤ 1 + stepCount vs := by
  induction w using Terrain.run.induct t with
  | case1 w f ha =>
    rw [run_eq, ha]
    exact yields_error f
  | case2 w ha =>
    rw [run_eq, ha]
    exact yields_ok h.made
  | case3 w w' ha ih =>
    rw [run_eq, ha]
    exact ih (h.advance ha)

theorem order_le_of_stepsFrom {α : Type} [Scalar α] {made : List (Pattern × Step α)}
    (h : t.stepsFrom entry = .ok made) :
    ∀ r ∈ made, ∃ n, n ≤ made.length ∧ r.2.order = Scalar.count n := by
  obtain ⟨vs, hvs, h⟩ := bind_eq_ok.mp h
  cases h
  have horder := ordered_start.run vs hvs
  have hlength : (vs.flatMap (Visit.steps t.tables (α := α))).length = stepCount vs := by
    simp [stepCount, List.length_flatMap, Visit.steps]
  intro r hr
  obtain ⟨v, hv, hr⟩ := List.mem_flatMap.mp hr
  obtain ⟨i, hi, rfl⟩ := List.mem_mapIdx.mp hr
  have hle := horder v hv
  unfold Visit.nextOrder at hle
  refine ⟨v.order + i, ?_, rfl⟩
  rw [hlength]
  omega

end Terrain

/-- The numbers of the step are finite. -/
structure Step.Finite (s : Step Number) : Prop where
  order : s.order.Finite
  duration : ∀ d, s.duration = some d → d.Finite

/-- The data that the step handles are of finite kinds. -/
structure StepData.Finite (d : StepData) : Prop where
  incoming : ∀ p ∈ d.incoming, p.kind.Finite
  outgoing : ∀ p ∈ d.outgoing, p.kind.Finite

/-- The numbers of the detour are finite. -/
structure Detour.Finite (d : Detour Number) : Prop where
  probability : d.probability.Finite
  steps : ∀ s ∈ d.steps, s.Finite

/-- The values that are shown of the journey are finite, and its complexity is bounded. -/
structure Journey.Finite (j : Journey Number) : Prop where
  steps : ∀ s ∈ j.steps, s.Finite
  data : ∀ d ∈ j.data, d.Finite
  detours : ∀ d ∈ j.detours, d.Finite
  duration : j.metrics.duration.Finite
  complexity : Number.Below 76 j.metrics.complexity

theorem Step.Finite.toJson {s : Step Number} (h : s.Finite) : s.toJson.Finite := by
  have hoperation : (((s.operation.map DataOperation.toJson).getD .null)).Finite := by
    cases s.operation <;> simp [DataOperation.toJson]
  have hduration : (Json.number? s.duration).Finite := by
    cases hd : s.duration with
    | none => exact Json.finite_null
    | some d => exact Json.finite_number.mpr (h.duration d hd)
  simpa [Step.toJson] using ⟨h.order, hoperation, hduration⟩

theorem StepData.Finite.toJson {d : StepData} (h : d.Finite) : d.toJson.Finite := by
  simpa [StepData.toJson, DataPoint.toJson] using ⟨h.incoming, h.outgoing⟩

theorem Detour.Finite.toJson {d : Detour Number} (h : d.Finite) : d.toJson.Finite := by
  have hsteps : ∀ s ∈ d.steps, s.toJson.Finite := fun s hs => (h.steps s hs).toJson
  simpa [Detour.toJson] using ⟨h.probability, hsteps⟩

theorem Journey.Finite.toJson {j : Journey Number} (h : j.Finite) : j.toJson.Finite := by
  have hsteps : ∀ s ∈ j.steps, s.toJson.Finite := fun s hs => (h.steps s hs).toJson
  have hdata : ∀ d ∈ j.data, d.toJson.Finite := fun d hd => (h.data d hd).toJson
  have hdetours : ∀ d ∈ j.detours, d.toJson.Finite := fun d hd => (h.detours d hd).toJson
  simpa [Journey.toJson, Trigger.toJson, Outcome.toJson, JourneyMetrics.toJson] using
    ⟨hsteps, hdata, hdetours, h.duration, h.complexity.finite⟩

theorem JourneyMap.finite_toJson {m : JourneyMap Number} (h : ∀ j ∈ m.journeys, j.Finite) :
    m.toJson.Finite := by
  have hjourneys : ∀ j ∈ m.journeys, j.toJson.Finite := fun j hj => (h j hj).toJson
  have hoperation (o : DataOperation) : o.toJson.Finite := by simp [DataOperation.toJson]
  simpa [JourneyMap.toJson, JourneyRelationship.toJson, StepPattern.toJson, FlowGraph.toJson,
    FlowNode.toJson, FlowEdge.toJson, FlowCluster.toJson, hoperation] using hjourneys

/-- The step is not later than any list is long, and does not take long. -/
private structure Step.Bounded (s : Step Number) : Prop where
  order : Number.Below 60 s.order
  duration : ∀ d, s.duration = some d → Number.Below 6 d

private theorem Step.Bounded.finite {s : Step Number} (h : s.Bounded) : s.Finite :=
  ⟨h.order.finite, fun d hd => (h.duration d hd).finite⟩

private theorem below_duration (k : PatternKind) : Number.Below 6 (k.duration : Number) := by
  cases k with
  | other name => exact Number.below_nat (by decide)
  | _ => decide +kernel

private theorem Step.Bounded.detour {s : Step Number} (h : s.Bounded) : s.detour.Finite := by
  have htenth (m : Nat) (hm : m ≤ 10) : (s.order.add (Scalar.decimal m 1)).Finite :=
    (h.order.add (by decide) ((Number.below_tenths hm).mono (by decide))).finite
  refine ⟨Number.finite_tenths (m := 1) (by decide), ?_⟩
  refine List.forall_mem_cons.mpr ⟨⟨htenth 1 (by decide), ?_⟩,
    List.forall_mem_singleton.mpr ⟨htenth 2 (by decide), ?_⟩⟩
  · rintro d ⟨⟩
    trivial
  · rintro d ⟨⟩
    trivial

private theorem finite_handled {mappings : List Mapping} (h : ∀ m ∈ mappings, m.Finite)
    (s : Step Number) : (s.handled mappings).Finite := by
  unfold Step.handled
  split
  · exact ⟨fun p hp => absurd hp List.not_mem_nil, fun p hp => absurd hp List.not_mem_nil⟩
  · next m hm =>
    constructor
    · intro p hp
      obtain ⟨i, hi, rfl⟩ := List.mem_map.mp hp
      exact h m (mem_of_findMapping hm) i hi
    · intro p hp
      obtain ⟨o, -, rfl⟩ := List.mem_map.mp hp
      exact Json.finite_text _

namespace Journey

variable {j : Journey Number}

private theorem below_totalDuration (hsteps : ∀ s ∈ j.steps, s.Bounded)
    (hlength : j.steps.length < 2 ^ 60) : Number.Below 70 j.totalDuration := by
  refine Number.below_sum (k := 6) (by decide) (by rwa [List.length_map]) fun d hd => ?_
  obtain ⟨s, hs, rfl⟩ := List.mem_map.mp hd
  split
  · next d hd =>
    split
    · exact Number.below_nat (by decide)
    · exact (hsteps s hs).duration d hd
  · exact Number.below_nat (by decide)

private theorem below_complexity (hlength : j.steps.length < 2 ^ 60)
    (hdecisions : j.metrics.decisions ≤ j.steps.length)
    (hdetours : j.detours.length ≤ j.steps.length) : Number.Below 76 j.complexity := by
  have hthird : Number.Below 64 ((Number.int j.steps.length).div (.int 3)) :=
    Number.below_div_int (k := 60) (m := j.steps.length) (n := 3) (by decide) (by decide) (by omega)
  have hdecided : Number.Below 64 (.int (2 * j.metrics.decisions : Nat)) :=
    Number.below_nat (by omega)
  have haround : Number.Below 70 (.int j.detours.length) := Number.below_nat (by omega)
  have hten : Number.Below 76 (.int topRating) := Number.below_nat (by decide)
  exact ((hthird.add (by decide) hdecided).add (by decide) haround).cap hten

end Journey

namespace Terrain

variable {t : Terrain} {taken : List String} {entry : Component} {j : Journey Number}

private theorem length_chained (steps : List (Step Number)) :
    (chained steps).length = steps.length := by
  simpa using congrArg List.length (map_chained (f := Step.id) (fun _ _ => rfl) steps)

private theorem bounded_of_trace (h : t.trace taken entry = .ok (some j))
    (hlength : j.steps.length < 2 ^ 60) : ∀ s ∈ j.steps, s.Bounded := by
  intro s hs
  obtain ⟨made, hmade, r, hr, hstep⟩ := exists_made_of_trace h hs
  have hcount : j.steps.length = made.length := by
    obtain ⟨made', k, hmade', rfl⟩ := (startsFrom_of_trace h).walk
    obtain rfl : made = made' := Except.ok.inj (hmade.symm.trans hmade')
    exact (length_chained _).trans (List.length_map _)
  obtain ⟨n, hn, horder⟩ := order_le_of_stepsFrom hmade r hr
  obtain ⟨v, -, -, hv⟩ := exists_visit_of_stepsFrom hmade hr
  obtain ⟨i, hi, rfl⟩ := List.mem_mapIdx.mp hv
  rw [hstep]
  refine ⟨?_, ?_⟩
  · dsimp only at horder ⊢
    rw [horder]
    exact Number.below_nat (by omega)
  · rintro d ⟨⟩
    exact below_duration _

private theorem finite_of_trace (ht : ∀ m ∈ t.mappings, m.Finite)
    (h : t.trace taken entry = .ok (some j)) (hlength : j.steps.length < 2 ^ 60) :
    j.measured.Finite := by
  have hbounded := bounded_of_trace h hlength
  obtain ⟨made, k, hmade, rfl⟩ := (startsFrom_of_trace h).walk
  have hcount : (t.finish k made).steps.length = made.length :=
    (length_chained _).trans (List.length_map _)
  have hdecisions : (t.finish k made).metrics.decisions ≤ (t.finish k made).steps.length := by
    have hle : ((made.filter fun m => m.1.decides).map (·.2.id)).length ≤ made.length := by
      rw [List.length_map]
      exact List.length_filter_le _ _
    exact hcount ▸ hle
  have hdetours : (t.finish k made).detours.length ≤ (t.finish k made).steps.length :=
    (List.length_map (f := Step.detour)).trans_le (List.length_filter_le _ _)
  refine ⟨fun s hs => (hbounded s hs).finite, fun d hd => ?_, fun d hd => ?_,
    (Journey.below_totalDuration hbounded hlength).finite,
    Journey.below_complexity hlength hdecisions hdetours⟩
  · obtain ⟨s, -, rfl⟩ := List.mem_map.mp hd
    exact finite_handled ht s
  · obtain ⟨s, hs, rfl⟩ := List.mem_map.mp hd
    exact (hbounded s (List.mem_of_mem_filter hs)).detour

end Terrain

/-- The journeys of a map among finite mappings are finite. -/
theorem JourneyMap.finite_of_build {t : Terrain} {m : JourneyMap Number}
    (ht : ∀ k ∈ t.mappings, k.Finite) (h : build t = .done m)
    (hsteps : ∀ j ∈ m.journeys, j.steps.length < 2 ^ 60) : ∀ j ∈ m.journeys, j.Finite := by
  intro j hj
  obtain ⟨taken, entry, k, htrace, rfl⟩ := origin_of_build h hj
  exact Terrain.finite_of_trace ht htrace (hsteps k.measured hj)

/-- No journey of a map takes long, whatever the mappings are. -/
theorem JourneyMap.below_duration_of_build {t : Terrain} {m : JourneyMap Number}
    (h : build t = .done m) (hsteps : ∀ j ∈ m.journeys, j.steps.length < 2 ^ 60) :
    ∀ j ∈ m.journeys, Number.Below 70 j.metrics.duration := by
  intro j hj
  obtain ⟨taken, entry, k, htrace, rfl⟩ := origin_of_build h hj
  have hlength := hsteps k.measured hj
  exact Journey.below_totalDuration (Terrain.bounded_of_trace htrace hlength) hlength

end BusinessAtlas
