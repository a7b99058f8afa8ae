import BusinessAtlas.Proofs.Feature.Total
import BusinessAtlas.Proofs.Journey.FlowGraph
import BusinessAtlas.Proofs.Journey.Traced

/-!
# Journeys of any facts

The journeys of facts that are what they are declared to be are always traced, and nothing that is
read from a name is left open where the tables have a category for every name: a journey has a goal
and a value, and what its steps do to data is known.
-/

namespace BusinessAtlas

variable {α : Type}

/-- The tables whose categories are used as texts have one for every name. -/
structure JourneyTables.Complete (tables : JourneyTables) : Prop where
  goal : tables.goal.fallback ≠ none
  value : tables.value.fallback ≠ none
  operation : tables.operation.fallback ≠ none
  entity : tables.entity.fallback ≠ none
  cluster : tables.cluster.fallback ≠ none

theorem JourneyTables.complete_bundled : bundled.Complete := by
  constructor <;> exact Option.some_ne_none _

theorem Classifier.classifyValue_ne_none {c : Classifier} (h : c.fallback ≠ none) {v : Json}
    {category : Option String} (hv : c.classifyValue v = .ok category) : category ≠ none := by
  have hrows (v : Json) (rows : List Row) : ∀ category,
      firstMatchOf c.fallback v rows = .ok category → category ≠ none := by
    induction rows with
    | nil =>
      intro category hcategory
      cases hcategory
      exact h
    | cons row rest ih =>
      intro category hcategory
      obtain ⟨found, -, hcategory⟩ := bind_eq_ok.mp hcategory
      split at hcategory
      · cases hcategory
        exact Option.some_ne_none _
      · exact ih category hcategory
  unfold classifyValue at hv
  split at hv
  · cases hv
    exact classify_ne_none h _
  · split at hv
    · exact hrows _ _ _ hv
    · cases hv

/-- Nothing that is read from a name is left open. -/
structure Journey.Settled (j : Journey α) : Prop where
  goal : j.goal ≠ none
  value : j.value ≠ none
  operations : ∀ s ∈ j.steps, ∀ o, s.operation = some o → o.operation ≠ none ∧ o.entity ≠ none

namespace Terrain

variable {t : Terrain} {entry : Component}

private theorem typed_of_reaches (hp : t.project.Typed) (he : entry.Typed) {c : Component}
    (h : t.Reaches entry c) : c.Typed := by
  cases h with
  | entry => exact he
  | child _ _ _ hd =>
    rcases List.mem_cons.mp (Project.mem_of_component? hd) with rfl | hmem
    · exact he
    · exact hp.components _ hmem

private theorem key_of_isText {name : Json} (h : name.isText = true) : name.key?.isSome = true := by
  obtain ⟨s, rfl⟩ := Json.isText_iff.mp h
  rfl

private theorem walkable_of_typed (hp : t.project.Typed) (he : entry.Typed) : t.Walkable entry where
  start := key_of_isText he.name
  children _ _ hc _ name hn := key_of_isText ((typed_of_reaches hp he hc).children name hn)

private theorem exists_isEntryPoint (h : entry.Typed) : ∃ b, t.isEntryPoint entry = .ok b := by
  obtain ⟨s, hs⟩ := Json.isText_iff.mp h.name
  unfold isEntryPoint
  rw [hs, Classifier.classifyValue, ok_bind]
  split <;> exact ⟨_, rfl⟩

private theorem exists_entryPoints (hp : t.project.Typed) :
    ∃ es, t.entryPoints = .ok es ∧ ∀ e ∈ es, e.Typed := by
  have hmarked : ∃ marked, t.project.components.mapM (fun c => return (c, ← t.isEntryPoint c)) =
      .ok marked ∧ ∀ x ∈ marked, x.1.Typed := by
    refine exists_mapM_forall fun c hc => ?_
    obtain ⟨b, hb⟩ := exists_isEntryPoint (t := t) (hp.components c hc)
    exact ⟨(c, b), bind_eq_ok.mpr ⟨b, hb, rfl⟩, hp.components c hc⟩
  obtain ⟨marked, hm, htyped⟩ := hmarked
  refine ⟨_, bind_eq_ok.mpr ⟨marked, hm, rfl⟩, fun e he => ?_⟩
  obtain ⟨x, hx, rfl⟩ := List.mem_map.mp he
  exact htyped x (List.mem_filter.mp hx).1

private theorem exists_journeyName (h : entry.Typed) : ∃ name, t.journeyName entry = .ok name := by
  obtain ⟨s, hs⟩ := Json.isText_iff.mp h.name
  unfold journeyName
  rw [hs, Classifier.classifyValue, ok_bind]
  split <;> exact ⟨_, rfl⟩

private theorem exists_anyKnowsUser {bs : List Binding} (h : ∀ b ∈ bs, b.name.isText = true) :
    ∃ known, Binding.anyKnowsUser bs = .ok known := by
  induction bs with
  | nil => exact ⟨false, rfl⟩
  | cons b rest ih =>
    obtain ⟨hb, hrest⟩ := List.forall_mem_cons.mp h
    obtain ⟨s, hs⟩ := Json.isText_iff.mp hb
    have hknows : ∃ known, b.knowsUser = .ok known := by
      unfold Binding.knowsUser
      rw [hs, Json.hasWord, ok_bind]
      split <;> exact ⟨_, rfl⟩
    obtain ⟨known, hk⟩ := hknows
    rw [Binding.anyKnowsUser, hk, ok_bind]
    split
    · exact ⟨true, rfl⟩
    · exact ih hrest

private theorem exists_persona (h : entry.Typed) : ∃ persona, entry.persona = .ok persona := by
  obtain ⟨known, hk⟩ := exists_anyKnowsUser h.bindings
  obtain ⟨name, hn⟩ := Json.exists_asText h.name
  unfold Component.persona
  rw [hk, ok_bind, hn]
  split <;> exact ⟨_, rfl⟩

private theorem exists_journeyGoal (htables : t.tables.goal.fallback ≠ none) (h : entry.Typed) :
    ∃ goal, t.journeyGoal entry = .ok (some goal) := by
  obtain ⟨m?, hm⟩ := t.exists_mapping? (key_of_isText h.name)
  obtain ⟨s, hs⟩ := Json.isText_iff.mp h.name
  unfold journeyGoal
  rw [hm, ok_bind]
  cases m? with
  | some m => exact ⟨m.purpose, rfl⟩
  | none =>
    rw [hs, Classifier.classifyValue]
    cases hgoal : t.tables.goal.classify s with
    | none => exact absurd hgoal (Classifier.classify_ne_none htables s)
    | some goal => exact ⟨goal, rfl⟩

variable [Scalar α]

private theorem exists_stepsFrom (hp : t.project.Typed) (he : entry.Typed) :
    ∃ made : List (Pattern × Step α), t.stepsFrom entry = .ok made := by
  obtain ⟨vs, hv⟩ := Covering.start.exists_run (walkable_of_typed hp he)
  exact ⟨_, bind_eq_ok.mpr ⟨vs, hv, rfl⟩⟩

private theorem exists_trace (htables : t.tables.Complete) (hp : t.project.Typed) (he : entry.Typed)
    (taken : List String) : ∃ o : Option (Journey α), t.trace taken entry = .ok o := by
  obtain ⟨goal, hg⟩ := exists_journeyGoal htables.goal he
  obtain ⟨text, ht⟩ := Json.exists_asText he.name
  obtain ⟨name, hn⟩ := exists_journeyName (t := t) he
  obtain ⟨persona, hpe⟩ := exists_persona he
  obtain ⟨made, hm⟩ := exists_stepsFrom (α := α) hp he
  have hid : journeyId taken entry = .ok (freeId taken ("journey-" ++ Text.lower text)) :=
    bind_eq_ok.mpr ⟨text, ht, rfl⟩
  have htrigger : entry.trigger = .ok (Component.triggerNamed text) := bind_eq_ok.mpr ⟨text, ht, rfl⟩
  have hvalue : t.tables.value.classifyValue (.text? (some goal)) =
      .ok (t.tables.value.classify goal) := rfl
  unfold trace
  rw [hg, ok_bind, hid, ok_bind, hn, ok_bind, hpe, ok_bind, htrigger, ok_bind, hvalue, ok_bind, hm,
    ok_bind]
  split <;> exact ⟨_, rfl⟩

omit [Scalar α] in
private theorem goal_ne_none (h : t.tables.goal.fallback ≠ none) {goal : Option String}
    (hgoal : t.journeyGoal entry = .ok goal) : goal ≠ none := by
  obtain ⟨m?, -, hgoal⟩ := bind_eq_ok.mp hgoal
  cases m? with
  | some m =>
    cases hgoal
    exact Option.some_ne_none _
  | none => exact Classifier.classifyValue_ne_none h hgoal

theorem settled_of_trace (htables : t.tables.Complete) {taken : List String} {j : Journey α}
    (h : t.trace taken entry = .ok (some j)) : j.Settled := by
  have hstart := startsFrom_of_trace h
  refine ⟨goal_ne_none htables.goal hstart.goal,
    Classifier.classifyValue_ne_none htables.value hstart.value, fun s hs o ho => ?_⟩
  obtain ⟨made, hmade, r, hr, hmadeOf⟩ := exists_made_of_trace h hs
  obtain ⟨v, _, _, hv⟩ := exists_visit_of_stepsFrom hmade hr
  obtain ⟨i, hi, rfl⟩ := List.mem_mapIdx.mp hv
  rw [hmadeOf] at ho
  have ho : t.tables.operationOf v.component.name.shown v.mapping.patterns[i] = some o := ho
  unfold JourneyTables.operationOf at ho
  split at ho
  · cases ho
    exact ⟨Classifier.classify_ne_none htables.operation _,
      Classifier.classify_ne_none htables.entity _⟩
  · cases ho

end Terrain

namespace JourneyMap

variable [Scalar α] {t : Terrain}

private theorem exists_addJourneys (htables : t.tables.Complete) (hp : t.project.Typed)
    (m : JourneyMap α) : ∃ m', addJourneys t m = .done m' := by
  obtain ⟨entries, he, htyped⟩ := Terrain.exists_entryPoints hp
  unfold addJourneys
  rw [he]
  refine Progress.exists_each_step (fun k entry hentry => ?_) m
  obtain ⟨o, ho⟩ := Terrain.exists_trace (α := α) htables hp (htyped entry hentry) k.ids
  cases o with
  | none => exact ⟨k, bind_eq_ok.mpr ⟨none, ho, rfl⟩⟩
  | some j => exact ⟨_, bind_eq_ok.mpr ⟨some j, ho, rfl⟩⟩

/-- The journey map of typed facts is built. -/
theorem exists_build (htables : t.tables.Complete) (hp : t.project.Typed) :
    ∃ m : JourneyMap α, build t = .done m := by
  obtain ⟨m₁, h₁⟩ := exists_addJourneys htables hp (empty : JourneyMap α)
  obtain ⟨m₂, h₂⟩ := exists_addClusters htables.cluster m₁.addPatterns.addFlow
  have hflow : m₁.addPatterns.traceFlow t.tables.cluster = .done m₂ := h₂
  exact ⟨m₂.relate.measure, by simp only [build, h₁, hflow, Progress.done_andThen]⟩

theorem settled_of_build (htables : t.tables.Complete) {m : JourneyMap α} (h : build t = .done m) :
    ∀ j ∈ m.journeys, j.Settled := by
  intro j hj
  obtain ⟨taken, entry, k, htrace, rfl⟩ := origin_of_build h hj
  obtain ⟨hgoal, hvalue, hoperations⟩ := Terrain.settled_of_trace htables htrace
  exact ⟨hgoal, hvalue, hoperations⟩

end JourneyMap

end BusinessAtlas
