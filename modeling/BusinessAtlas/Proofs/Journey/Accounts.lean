import BusinessAtlas.Proofs.Journey.Traced

/-!
# The accounts of a journey

What a journey counts on its walk agrees with what it holds in the end. Its counters are kept while
steps are made, from the interactions; its data, its detours and its load are found again later, from
the ids and the kinds of the steps. They agree because an id stands for one interaction of one
component, whatever the component is called.
-/

namespace BusinessAtlas

variable {α : Type}

/-- A detour goes from a step through its own steps, one after the other, back to the step. -/
structure Detour.Returns (d : Detour α) : Prop where
  destination : d.destination = d.origin
  next : d.steps.map (·.next) = d.steps.tail.map (fun s => [s.id]) ++ [[d.origin]]

/-- Whether something is decided at a step: its kind says so, or the interaction that it stands
for. -/
def decidesAt (m : Pattern × Step α) : Bool := m.2.kind == .decision || m.1.decides

section

variable [Scalar α]

/-- The parts of a journey agree with each other and with the steps that were made for it. -/
structure Journey.Accounted (made : List (Pattern × Step α)) (j : Journey α) : Prop where
  /-- Apart from where they lead, the steps are those that were made. -/
  steps : j.steps.map (fun s => { s with next := [] }) = made.map (·.2)
  ids : (j.steps.map (·.id)).Nodup
  /-- Every step leads to the one after it, and the last one nowhere. -/
  next : ∀ i (h : i < j.steps.length), j.steps[i].next = (j.steps[i + 1]?.map (·.id)).toList
  data : j.data.map (·.step) = j.steps.map (·.id)
  dataPoints : j.metrics.dataPoints =
    totalOf (j.data.map fun d => d.incoming.length + d.outgoing.length)
  integrations : j.metrics.integrations = j.stepCount .dataOperation
  /-- There is one detour for every step at which something is decided, in the order of the steps. -/
  detours : j.detours.map (·.origin) = (made.filter decidesAt).map (·.2.id)
  returns : ∀ d ∈ j.detours, d.Returns
  decisions : j.metrics.decisions = j.detours.length
  load : j.measured.metrics.load = min 10 (5 * j.metrics.integrations)

end

theorem getElem?_chained (steps : List (Step α)) (i : Nat) : (chained steps)[i]? =
    steps[i]?.map fun s => { s with next := s.next ++ (steps[i + 1]?.map (·.id)).toList } := by
  induction steps using chained.induct generalizing i with
  | case1 s after rest ih =>
    cases i with
    | zero => rfl
    | succ i => exact ih i
  | case2 steps hshort =>
    rw [chained.eq_2 steps hshort]
    rcases steps with _ | ⟨s, _ | ⟨after, rest⟩⟩
    · rfl
    · cases i <;> simp
    · exact absurd rfl (hshort s after rest)

theorem next_chained {steps : List (Step α)} (hnowhere : ∀ s ∈ steps, s.next = []) (i : Nat)
    (h : i < (chained steps).length) :
    (chained steps)[i].next = ((chained steps)[i + 1]?.map (·.id)).toList := by
  have hafter : (chained steps)[i + 1]?.map (·.id) = steps[i + 1]?.map (·.id) := by
    rw [← List.getElem?_map, map_chained fun _ _ => rfl, List.getElem?_map]
  have hstep := (List.getElem?_eq_getElem h).symm.trans (getElem?_chained steps i)
  obtain ⟨s, hs, hnext⟩ := Option.map_eq_some_iff.mp hstep.symm
  rw [← hnext, hafter]
  exact congrArg (· ++ _) (hnowhere s (List.mem_of_getElem? hs))

theorem Step.step_handled (mappings : List Mapping) (s : Step α) :
    (s.handled mappings).step = s.id := by
  unfold Step.handled
  split <;> rfl

theorem PatternKind.stepKind_eq_dataOperation (k : PatternKind) :
    (k.stepKind == .dataOperation) = (k == .apiCall) := by
  cases k <;> rfl

theorem PatternKind.stepKind_ne_decision (k : PatternKind) : (k.stepKind == .decision) = false := by
  cases k <;> rfl

section

variable {made : List (Pattern × Step α)}

private theorem integrations_ofSteps (hkind : ∀ m ∈ made, m.2.kind = m.1.kind.stepKind) :
    (Tally.ofSteps made).integrations =
      (chained (made.map (·.2))).countP (·.kind == .dataOperation) := by
  let works (kind : StepKind) : Bool := kind == .dataOperation
  calc made.countP (fun m => m.1.kind == .apiCall)
      = made.countP (fun m => works m.2.kind) := by
        refine List.countP_congr fun m hm => ?_
        rw [hkind m hm, ← m.1.kind.stepKind_eq_dataOperation]
    _ = ((made.map (·.2)).map (·.kind)).countP works := by
        rw [List.map_map, List.countP_map]
        rfl
    _ = (chained (made.map (·.2))).countP (·.kind == .dataOperation) := by
        rw [← map_chained fun _ _ => rfl, List.countP_map]
        rfl

private theorem length_deciding (hkind : ∀ m ∈ made, m.2.kind = m.1.kind.stepKind) :
    (Tally.ofSteps made).deciding.length = ((made.filter decidesAt).map (·.2.id)).length := by
  have hdecides : made.filter decidesAt = made.filter fun m => m.1.decides := by
    refine List.filter_congr fun m hm => ?_
    rw [decidesAt, hkind m hm, m.1.kind.stepKind_ne_decision, Bool.false_or]
  rw [hdecides]
  rfl

variable [Scalar α]

private theorem origin_detoursFor (hids : (made.map (·.2.id)).Nodup) :
    (detoursFor (Tally.ofSteps made).deciding (chained (made.map (·.2)))).map (·.origin) =
      (made.filter decidesAt).map (·.2.id) := by
  have hnoted : ∀ m ∈ made, (Tally.ofSteps made).deciding.contains m.2.id = m.1.decides := by
    intro m hm
    rw [Bool.eq_iff_iff, List.contains_iff_mem]
    constructor
    · intro hmem
      obtain ⟨noted, hnoted, hid⟩ := List.mem_map.mp hmem
      obtain ⟨hnoted, hdecides⟩ := List.mem_filter.mp hnoted
      exact List.inj_on_of_nodup_map hids hnoted hm hid ▸ hdecides
    · intro hdecides
      exact List.mem_map_of_mem (List.mem_filter.mpr ⟨hm, hdecides⟩)
  let key (s : Step α) : StepKind × String := (s.kind, s.id)
  let decides (k : StepKind × String) : Bool :=
    k.1 == .decision || (Tally.ofSteps made).deciding.contains k.2
  calc (detoursFor (Tally.ofSteps made).deciding (chained (made.map (·.2)))).map (·.origin)
      = (((chained (made.map (·.2))).map key).filter decides).map (·.2) := by
        rw [detoursFor, List.map_map, List.filter_map, List.map_map]
        rfl
    _ = (made.filter fun m => decides (key m.2)).map (·.2.id) := by
        rw [map_chained fun _ _ => rfl, List.map_map, List.filter_map, List.map_map]
        rfl
    _ = (made.filter decidesAt).map (·.2.id) := by
        refine congrArg _ (List.filter_congr fun m hm => ?_)
        exact congrArg (m.2.kind == .decision || ·) (hnoted m hm)

end

variable [Scalar α]

theorem Step.returns_detour (s : Step α) : s.detour.Returns := ⟨rfl, rfl⟩

namespace Terrain

variable {t : Terrain} {entry : Component} {made : List (Pattern × Step α)}

private theorem kind_of_stepsFrom (h : t.stepsFrom entry = .ok made) :
    ∀ m ∈ made, m.2.kind = m.1.kind.stepKind ∧ m.2.next = [] := by
  intro m hm
  obtain ⟨v, -, -, hv⟩ := exists_visit_of_stepsFrom h hm
  obtain ⟨i, hi, rfl⟩ := List.mem_mapIdx.mp hv
  exact ⟨rfl, rfl⟩

theorem nodup_stepsFrom (h : t.stepsFrom entry = .ok made) : (made.map (·.2.id)).Nodup := by
  obtain ⟨vs, hvs, h⟩ := bind_eq_ok.mp h
  cases h
  obtain ⟨seen, hcovering⟩ := Covering.start.run hvs
  have hid {v : Visit} {id : String}
      (hmem : id ∈ (v.steps t.tables : List (Pattern × Step α)).map (·.2.id)) :
      ∃ i, stepId v.component.name.shown i = id := by
    obtain ⟨m, hm, rfl⟩ := List.mem_map.mp hmem
    obtain ⟨i, hi, rfl⟩ := List.mem_mapIdx.mp hm
    exact ⟨i, rfl⟩
  rw [List.map_flatMap, List.nodup_flatMap]
  constructor
  · intro v _
    rw [List.nodup_iff_injective_getElem]
    intro i j hij
    simp only [Visit.steps, List.getElem_map, List.getElem_mapIdx] at hij
    exact Fin.ext (stepId_inj.mp hij).2
  · refine (List.pairwise_map.mp hcovering.nodup_shown).imp fun hne id hu hv => hne ?_
    obtain ⟨i, hi⟩ := hid hu
    obtain ⟨j, hj⟩ := hid hv
    exact (stepId_inj.mp (hi.trans hj.symm)).1

/-- The accounts of every journey that is traced agree. -/
theorem accounted_of_trace {taken : List String} {j : Journey α}
    (h : t.trace taken entry = .ok (some j)) :
    ∃ made, t.stepsFrom entry = .ok made ∧ j.Accounted made := by
  obtain ⟨made, k, hmade, rfl⟩ := (startsFrom_of_trace h).walk
  have hsteps : (t.finish k made).steps = chained (made.map (·.2)) := rfl
  have hkind := fun m hm => (kind_of_stepsFrom hmade m hm).1
  have hnext := fun m hm => (kind_of_stepsFrom hmade m hm).2
  have hids := nodup_stepsFrom hmade
  have hcalls : (t.finish k made).metrics.integrations =
      (t.finish k made).stepCount .dataOperation := integrations_ofSteps hkind
  have hdetours : (t.finish k made).detours.map (·.origin) =
      (made.filter decidesAt).map (·.2.id) := origin_detoursFor hids
  refine ⟨made, hmade, ?_, ?_, next_chained ?_, ?_, rfl, hcalls, hdetours, fun d hd => ?_, ?_, ?_⟩
  · rw [hsteps, map_chained fun _ _ => rfl, List.map_map]
    refine List.map_congr_left fun m hm => ?_
    exact congrArg (fun next => { m.2 with next }) (hnext m hm).symm
  · rw [hsteps, map_chained fun _ _ => rfl, List.map_map]
    exact hids
  · exact List.forall_mem_map.mpr hnext
  · have hdata : (t.finish k made).data = (t.finish k made).steps.map (Step.handled t.mappings) :=
      rfl
    rw [hdata, List.map_map]
    exact List.map_congr_left fun s _ => s.step_handled t.mappings
  · obtain ⟨s, -, rfl⟩ := List.mem_map.mp hd
    exact s.returns_detour
  · rw [← List.length_map (·.origin), hdetours]
    exact length_deciding hkind
  · have hload : (t.finish k made).measured.metrics.load = min 10
        (3 * (t.finish k made).metrics.integrations + 2 * (t.finish k made).stepCount .dataOperation) :=
      rfl
    rw [hload, ← hcalls, ← Nat.add_mul]

private def desk (name : String) (children : List Json) : Component :=
  ⟨.text name, .null, .null, [], [], children, []⟩

private def offered (name : String) (patterns : List Pattern) : Mapping :=
  ⟨name, .functional, "", "", patterns,
    ⟨[⟨"user_input", .text "string", ""⟩], [], [], []⟩⟩

/-- The names of the desks end in what looks like the number of a step. -/
private def office : Terrain where
  project := ⟨[desk "Desk" [.text "Desk-0"], desk "Desk-0" [.text "Desk"]], [], []⟩
  mappings := [
    offered "Desk" [⟨.apiCall, "", [], ["granted", "denied"]⟩, ⟨.userInput, "", [], []⟩],
    offered "Desk-0" [⟨.display, "decision of the clerk", [], []⟩]]
  tables := .bundled

theorem accounted_of_trace_office : ∃ j : Journey Rat,
    office.trace [] (desk "Desk" [.text "Desk-0"]) = .ok (some j) ∧
    (∃ made, office.stepsFrom (desk "Desk" [.text "Desk-0"]) = .ok made ∧ j.Accounted made) ∧
    j.steps.map (fun s => (s.id, s.next)) = [("step-Desk-0", ["step-Desk-1"]),
      ("step-Desk-1", ["step-Desk-0-0"]), ("step-Desk-0-0", [])] ∧
    j.detours.map (·.origin) = ["step-Desk-0", "step-Desk-0-0"] ∧ j.metrics.dataPoints = 3 := by
  let shown (j : Journey Rat) : List (String × List String) × List String × Nat :=
    (j.steps.map fun s => (s.id, s.next), j.detours.map (·.origin), j.metrics.dataPoints)
  obtain ⟨found, htrace, hfound⟩ := map_eq_ok.mp (toOption_eq_some.mp
    (show (Option.map shown <$> office.trace [] (desk "Desk" [.text "Desk-0"])).toOption =
      some (some ([("step-Desk-0", ["step-Desk-1"]), ("step-Desk-1", ["step-Desk-0-0"]),
        ("step-Desk-0-0", [])], ["step-Desk-0", "step-Desk-0-0"], 3)) by decide +kernel))
  obtain ⟨j, rfl, hshown⟩ := Option.map_eq_some_iff.mp hfound
  exact ⟨j, htrace, accounted_of_trace htrace, congrArg (·.1) hshown, congrArg (·.2.1) hshown,
    congrArg (·.2.2) hshown⟩

end Terrain

end BusinessAtlas
