import BusinessAtlas.Proofs.Journey.FlowGraph
import BusinessAtlas.Proofs.Journey.FreeId
import BusinessAtlas.Proofs.Journey.Reach

/-!
# What is known of the journeys that were traced

The journeys of a built map have ids of their own, no two the same, and come to nothing but
components with mappings. What the map says about their relationships and about the flow of data it
says about these journeys.
-/

namespace BusinessAtlas

/-- The id of a step tells its component and the number of its interaction. -/
theorem stepId_inj {first second : String} {i j : Nat} :
    stepId first i = stepId second j ↔ first = second ∧ i = j := by
  refine ⟨fun h => ?_, fun ⟨hname, hindex⟩ => by rw [hname, hindex]⟩
  obtain ⟨hname, hindex⟩ := last_eq_last (hyphen_notMem_toString i) (hyphen_notMem_toString j) h
  exact ⟨(String.append_right_inj _).mp hname, toString_inj hindex⟩

variable {α : Type}

theorem Journey.ends_of_relationshipsTo {j k : Journey α} {r : JourneyRelationship}
    (h : r ∈ j.relationshipsTo k) :
    r.source = j.id ∧ r.target = k.id ∧ (r.kind = .leadsTo ∨ r.kind = .requires) := by
  rcases List.mem_append.mp h with h | h
  · split at h
    · rw [List.mem_singleton.mp h]
      exact ⟨rfl, rfl, .inl rfl⟩
    · cases h
  · split at h
    · rw [List.mem_singleton.mp h]
      exact ⟨rfl, rfl, .inr rfl⟩
    · cases h

/-- Relationships of journeys join journeys, in one of the two ways that are found. -/
theorem Journey.ends_of_relationships {js : List (Journey α)} {r : JourneyRelationship}
    (h : r ∈ relationships js) : (∃ j ∈ js, r.source = j.id) ∧ (∃ k ∈ js, r.target = k.id) ∧
      (r.kind = .leadsTo ∨ r.kind = .requires) := by
  obtain ⟨j, hj, h⟩ := List.mem_flatMap.mp h
  obtain ⟨k, hk, h⟩ := List.mem_flatMap.mp h
  obtain ⟨hsource, htarget, hkind⟩ := ends_of_relationshipsTo h
  exact ⟨⟨j, hj, hsource⟩, ⟨k, List.mem_of_mem_filter hk, htarget⟩, hkind⟩

theorem Journey.nodup_relationships {js : List (Journey α)} (h : (js.map (·.id)).Nodup) :
    ((relationships js).map fun r => (r.source, r.target, r.kind)).Nodup := by
  have hids : js.Pairwise fun j k => j.id ≠ k.id := List.pairwise_map.mp h
  rw [relationships, List.map_flatMap, List.nodup_flatMap]
  constructor
  · intro j _
    rw [List.map_flatMap, List.nodup_flatMap]
    constructor
    · intro k _
      unfold relationshipsTo
      split <;> split <;> simp
    · refine (hids.filter _).imp ?_
      intro k l hne x hk hl
      obtain ⟨r, hr, rfl⟩ := List.mem_map.mp hk
      obtain ⟨q, hq, hqr⟩ := List.mem_map.mp hl
      have htarget : q.target = r.target := congrArg (·.2.1) hqr
      rw [(ends_of_relationshipsTo hr).2.1, (ends_of_relationshipsTo hq).2.1] at htarget
      exact hne htarget.symm
  · refine hids.imp ?_
    intro j k hne x hj hk
    obtain ⟨r, hr, rfl⟩ := List.mem_map.mp hj
    obtain ⟨q, hq, hqr⟩ := List.mem_map.mp hk
    obtain ⟨l, _, hr⟩ := List.mem_flatMap.mp hr
    obtain ⟨m, _, hq⟩ := List.mem_flatMap.mp hq
    have hsource : q.source = r.source := congrArg (·.1) hqr
    rw [(ends_of_relationshipsTo hr).1, (ends_of_relationshipsTo hq).1] at hsource
    exact hne hsource.symm

/-- The flow of data goes from step to step of some journey. -/
theorem FlowEdge.ends_of_ofJourneys {js : List (Journey α)} {f : FlowEdge}
    (h : f ∈ ofJourneys js) : ∃ j ∈ js, ∃ first ∈ j.steps, ∃ second ∈ j.steps,
      f.source = first.component ∧ f.target = second.component ∧ f.operation = first.kind.name := by
  obtain ⟨j, hj, h⟩ := List.mem_flatMap.mp (mem_of_mem_firstPer h)
  obtain ⟨⟨first, second⟩, hpair, rfl⟩ := List.mem_map.mp h
  obtain ⟨hfirst, hsecond⟩ := List.of_mem_zip hpair
  exact ⟨j, hj, first, hfirst, second, List.mem_of_mem_tail hsecond, rfl, rfl, rfl⟩

variable [Scalar α] {t : Terrain}

/-- The journey has an id of its own kind, comes to nothing but components with mappings, and every
step is of a kind that interactions become. -/
structure Journey.Traced (t : Terrain) (j : Journey α) : Prop where
  named : ∃ name, j.id = "journey-" ++ name
  visited : ∀ s ∈ j.steps, s.component ∈ t.mappings.map (·.name)
  kinds : ∀ s ∈ j.steps, ∃ k : PatternKind, s.kind = k.stepKind

namespace Terrain

private theorem traced_of_made {entry : Component} {made : List (Pattern × Step α)}
    (h : t.stepsFrom entry = .ok made) {s : Pattern × Step α} (hs : s ∈ made) :
    s.2.component ∈ t.mappings.map (·.name) ∧ ∃ k : PatternKind, s.2.kind = k.stepKind := by
  obtain ⟨v, _, hm, hs⟩ := exists_visit_of_stepsFrom h hs
  obtain ⟨name, hname, hfound⟩ := mapping?_eq_some.mp hm
  constructor
  · rw [component_of_mem_steps hs, hname, Json.shown_text, ← name_of_findMapping hfound]
    exact List.mem_map_of_mem (mem_of_findMapping hfound)
  · obtain ⟨i, hi, rfl⟩ := List.mem_mapIdx.mp hs
    exact ⟨v.mapping.patterns[i].kind, rfl⟩

/-- What a journey takes over from its entry point: its goal, its id, its name, its trigger and its
value. The rest comes from the walk. -/
structure StartsFrom (t : Terrain) (taken : List String) (entry : Component) (j : Journey α) : Prop where
  goal : t.journeyGoal entry = .ok j.goal
  id : journeyId taken entry = .ok j.id
  name : t.journeyName entry = .ok j.name
  trigger : entry.trigger = .ok j.trigger
  value : t.tables.value.classifyValue (.text? j.goal) = .ok j.value
  walk : ∃ (made : List (Pattern × Step α)) (k : Journey α), t.stepsFrom entry = .ok made ∧
    j = t.finish k made

theorem startsFrom_of_trace {taken : List String} {entry : Component} {j : Journey α}
    (h : t.trace taken entry = .ok (some j)) : t.StartsFrom taken entry j := by
  obtain ⟨goal, hgoal, h⟩ := bind_eq_ok.mp h
  obtain ⟨id, hid, h⟩ := bind_eq_ok.mp h
  obtain ⟨name, hname, h⟩ := bind_eq_ok.mp h
  obtain ⟨persona, _, h⟩ := bind_eq_ok.mp h
  obtain ⟨trigger, htrigger, h⟩ := bind_eq_ok.mp h
  obtain ⟨value, hvalue, h⟩ := bind_eq_ok.mp h
  obtain ⟨made, hmade, h⟩ := bind_eq_ok.mp h
  split at h
  · cases h
  · cases h
    exact ⟨hgoal, hid, hname, htrigger, hvalue, made, _, hmade, rfl⟩

/-- A step of a journey was made on the walk, apart from where it leads. -/
theorem exists_made_of_trace {taken : List String} {entry : Component} {j : Journey α}
    (h : t.trace taken entry = .ok (some j)) {s : Step α} (hs : s ∈ j.steps) :
    ∃ made : List (Pattern × Step α), t.stepsFrom entry = .ok made ∧
      ∃ r ∈ made, s = { r.2 with next := s.next } := by
  obtain ⟨made, k, hmade, rfl⟩ := (startsFrom_of_trace h).walk
  have hsteps : (t.finish k made).steps = chained (made.map (·.2)) := rfl
  have hmem := List.mem_map_of_mem (f := fun s : Step α => { s with next := [] }) hs
  rw [hsteps, map_chained fun _ _ => rfl, List.map_map] at hmem
  obtain ⟨r, hr, hrs⟩ := List.mem_map.mp hmem
  exact ⟨made, hmade, r, hr, (congrArg (fun x : Step α => { x with next := s.next }) hrs).symm⟩

theorem traced_of_trace {taken : List String} {entry : Component} {j : Journey α}
    (h : t.trace taken entry = .ok (some j)) : j.Traced t ∧ j.id ∉ taken := by
  obtain ⟨text, _, hid⟩ := bind_eq_ok.mp (startsFrom_of_trace h).id
  obtain ⟨hfree, suffix, hsuffix⟩ := freeId_cases taken ("journey-" ++ Text.lower text)
  have hid : freeId taken ("journey-" ++ Text.lower text) = j.id := Except.ok.inj hid
  have hsteps : ∀ s ∈ j.steps, s.component ∈ t.mappings.map (·.name) ∧
      ∃ k : PatternKind, s.kind = k.stepKind := by
    intro s hs
    obtain ⟨made, hmade, r, hr, hmadeOf⟩ := exists_made_of_trace h hs
    rw [hmadeOf]
    exact traced_of_made hmade hr
  refine ⟨⟨⟨Text.lower text ++ suffix, ?_⟩, fun s hs => (hsteps s hs).1, fun s hs => (hsteps s hs).2⟩,
    hid ▸ hfree⟩
  rw [← hid, hsuffix, String.append_assoc]

theorem stepId_of_trace {taken : List String} {entry : Component} {j : Journey α}
    (h : t.trace taken entry = .ok (some j)) {s : Step α} (hs : s ∈ j.steps) :
    ∃ i, s.id = stepId s.component i := by
  obtain ⟨made, hmade, r, hr, hmadeOf⟩ := exists_made_of_trace h hs
  obtain ⟨v, _, _, hv⟩ := exists_visit_of_stepsFrom hmade hr
  obtain ⟨i, hi, rfl⟩ := List.mem_mapIdx.mp hv
  exact ⟨i, by rw [hmadeOf]; rfl⟩

end Terrain

namespace JourneyMap

/-- All journeys were traced, and no two have one id. -/
structure Traced (t : Terrain) (m : JourneyMap α) : Prop where
  ids : m.ids.Nodup
  journeys : ∀ j ∈ m.journeys, j.Traced t
  relationships_eq : m.relationships = Journey.relationships m.journeys
  edges_eq : m.flow.edges = FlowEdge.ofJourneys m.journeys

variable {m m' : JourneyMap α}

/-- The journeys were traced, and nothing was said yet about their relationships or the flow of
data. -/
private structure Bare (t : Terrain) (m : JourneyMap α) : Prop where
  ids : m.ids.Nodup
  journeys : ∀ j ∈ m.journeys, j.Traced t
  relationships_eq : m.relationships = []
  edges_eq : m.flow.edges = []

theorem of_addJourneys {P : JourneyMap α → Prop} (hs : addJourneys t empty = .done m)
    (h₀ : P empty) (hadd : ∀ (k : JourneyMap α) (entry : Component) (j : Journey α), P k →
      t.trace k.ids entry = .ok (some j) → P { k with journeys := k.journeys ++ [j] }) : P m := by
  unfold addJourneys at hs
  cases he : t.entryPoints with
  | error f =>
    rw [he] at hs
    cases hs
  | ok entries =>
    rw [he] at hs
    refine Progress.each_eq_done (P := fun _ => P) hs h₀ fun before entry k k' hk hstep => ?_
    obtain ⟨found, htrace, hstep⟩ := bind_eq_ok.mp (Progress.step_eq_done.mp hstep)
    cases found with
    | none =>
      cases hstep
      exact hk
    | some j =>
      cases hstep
      exact hadd k entry j hk htrace

private theorem bare_addJourneys (hs : addJourneys t empty = .done m) : m.Bare t := by
  refine of_addJourneys hs ⟨List.nodup_nil, fun j hj => absurd hj List.not_mem_nil, rfl, rfl⟩
    fun k entry j h htrace => ?_
  obtain ⟨hj, hfree⟩ := Terrain.traced_of_trace htrace
  refine ⟨?_, fun i hi => ?_, h.relationships_eq, h.edges_eq⟩
  · rw [ids, List.map_append, List.nodup_append]
    refine ⟨h.ids, by simp, fun id hid other hother hsame => hfree ?_⟩
    have hnew : id = j.id := hsame.trans (List.mem_singleton.mp hother)
    exact hnew ▸ hid
  · rcases List.mem_append.mp hi with hi | hi
    · exact h.journeys i hi
    · rw [List.mem_singleton.mp hi]
      exact hj

private theorem origin_addJourneys (hs : addJourneys t empty = .done m) : ∀ j ∈ m.journeys,
    ∃ taken entry, t.trace taken entry = .ok (some j) := by
  refine of_addJourneys (P := fun k => ∀ j ∈ k.journeys, ∃ taken entry,
    t.trace taken entry = .ok (some j)) hs (fun j hj => absurd hj List.not_mem_nil) ?_
  intro k entry new h htrace j hj
  rcases List.mem_append.mp hj with hj | hj
  · exact h j hj
  · exact ⟨k.ids, entry, List.mem_singleton.mp hj ▸ htrace⟩

/-- The journeys of a map are those that were added, its flow of data is that of these journeys, and
clusters, relationships and measures come on top. -/
theorem exists_added_of_build (h : build t = .done m) : ∃ m₁ : JourneyMap α,
    addJourneys t empty = .done m₁ ∧ ∃ clusters, m = ({ m₁.addPatterns.addFlow with
      flow := { m₁.addFlow.flow with clusters } } : JourneyMap α).relate.measure := by
  obtain ⟨m₂, h, hm⟩ := Progress.andThen_eq_done.mp h
  obtain ⟨m₁, h₁, h₂⟩ := Progress.andThen_eq_done.mp h
  obtain ⟨clusters, hstate⟩ := addClusters_state t.tables.cluster m₁.addPatterns.addFlow
  have hm₂ := (congrArg Progress.state h₂).symm.trans hstate
  cases hm
  exact ⟨m₁, h₁, clusters, congrArg (fun k => k.relate.measure) hm₂⟩

/-- Every journey of a map was traced from some entry point and then measured. -/
theorem origin_of_build (h : build t = .done m) {j : Journey α} (hj : j ∈ m.journeys) :
    ∃ taken entry k, t.trace taken entry = .ok (some k) ∧ j = k.measured := by
  obtain ⟨m₁, h₁, clusters, rfl⟩ := exists_added_of_build h
  obtain ⟨k, hk, rfl⟩ := List.mem_map.mp hj
  obtain ⟨taken, entry, htrace⟩ := origin_addJourneys h₁ k hk
  exact ⟨taken, entry, k, htrace, rfl⟩

private theorem relationships_measured (journeys : List (Journey α)) :
    Journey.relationships (journeys.map Journey.measured) = Journey.relationships journeys := by
  simp only [Journey.relationships, List.flatMap_map, List.filter_map]
  rfl

private theorem edges_measured (journeys : List (Journey α)) :
    FlowEdge.ofJourneys (journeys.map Journey.measured) = FlowEdge.ofJourneys journeys := by
  simp only [FlowEdge.ofJourneys, List.flatMap_map]
  rfl

theorem traced_of_build (h : build t = .done m) : m.Traced t := by
  obtain ⟨m₁, h₁, clusters, rfl⟩ := exists_added_of_build h
  obtain ⟨hids, hjourneys, hrelationships, hedges⟩ := bare_addJourneys h₁
  refine ⟨?_, fun j hj => ?_, ?_, ?_⟩
  · have hmeasured : (m₁.journeys.map Journey.measured).map (·.id) = m₁.ids := List.map_map
    exact (congrArg List.Nodup hmeasured).mpr hids
  · obtain ⟨k, hk, rfl⟩ := List.mem_map.mp hj
    obtain ⟨hnamed, hvisited, hkinds⟩ := hjourneys k hk
    exact ⟨hnamed, hvisited, hkinds⟩
  · simp only [measure, relate, addFlow, addPatterns, hrelationships, List.nil_append,
      relationships_measured]
  · simp only [measure, relate, addFlow, addPatterns, hedges, List.nil_append, edges_measured]

end JourneyMap

end BusinessAtlas
