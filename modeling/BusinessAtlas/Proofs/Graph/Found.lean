import BusinessAtlas.Atlas
import BusinessAtlas.Proofs.Feature.Related
import BusinessAtlas.Proofs.Graph.Declared
import BusinessAtlas.Proofs.Journey.Traced

/-!
# What a run finds in a project

The features and the journeys that a run finds fit together: components have one owner,
relationships join what was found, and journeys come to components of the map. The ids that a run
makes for nodes begin in one of four ways, which tell what has the id.
-/

namespace BusinessAtlas

variable {α : Type}

/-- How the ids of nodes begin that a run makes. -/
def stems : List String := ["component-", "entity-", "feature-", "journey-"]

theorem append_ne_of_head {p t : String} (hp : p.toList ≠ [])
    (h : p.toList.head? ≠ t.toList.head?) (a : String) : p ++ a ≠ t := by
  rintro rfl
  rw [String.toList_append, List.head?_append_of_ne_nil _ hp] at h
  exact h rfl

theorem append_ne_of_stems {p q : String} (hp : p ∈ stems) (hq : q ∈ stems) (h : p ≠ q)
    (a b : String) : p ++ a ≠ q ++ b := by
  have hheads : ∀ p ∈ stems, p.toList ≠ [] ∧ ∀ q ∈ stems, p ≠ q →
      p.toList.head? ≠ q.toList.head? := by decide
  refine append_ne_of_head (hheads p hp).1 ?_ a
  rw [String.toList_append, List.head?_append_of_ne_nil _ (hheads q hq).1]
  exact (hheads p hp).2 q hq h

/-- The key of a component's node. -/
def componentKey (name : String) : Key := .text ("component-" ++ name)

/-- The key of an entity's node. -/
def entityKey (name : String) : Key := .text ("entity-" ++ name)

theorem componentKey_injective : Function.Injective componentKey := fun _ _ h =>
  (String.append_right_inj _).mp (Key.text.inj h)

theorem entityKey_injective : Function.Injective entityKey := fun _ _ h =>
  (String.append_right_inj _).mp (Key.text.inj h)

namespace Graph.Sources

/-- What is known of sources that were found in a project. -/
structure Found (s : Sources α) : Prop where
  owned : s.features.OwnsOnce s.context.capabilities
  related : s.features.Related
  traced : ∃ t : Terrain, t.mappings = s.features.mappings ∧ s.journeys.Traced t

theorem stages_of_project [Scalar α] {p : Project} {c : Context α} {s : Sources α}
    (h : Sources.ofProject p c = .ok s) : s.context = c ∧
      FeatureMap.build p .bundled c.stories c.capabilities = .done s.features ∧
      JourneyMap.build ⟨p, s.features.mappings, .bundled⟩ = .done s.journeys := by
  obtain ⟨features, hf, h⟩ := bind_eq_ok.mp h
  obtain ⟨journeys, hj, h⟩ := bind_eq_ok.mp h
  cases h
  exact ⟨rfl, Progress.toExcept_eq_ok.mp hf, Progress.toExcept_eq_ok.mp hj⟩

theorem found_of_project [Scalar α] {p : Project} {c : Context α} {s : Sources α}
    (h : Sources.ofProject p c = .ok s) : s.context = c ∧ s.Found := by
  obtain ⟨rfl, hfeatures, hjourneys⟩ := stages_of_project h
  exact ⟨rfl, FeatureMap.ownsOnce_of_build hfeatures, FeatureMap.related_of_build hfeatures, _, rfl,
    JourneyMap.traced_of_build hjourneys⟩

namespace Found

variable {s : Sources α}

theorem joins_journeys (hs : s.Found) {r : JourneyRelationship}
    (hr : r ∈ s.journeys.relationships) :
    (∃ j ∈ s.journeys.journeys, r.source = j.id) ∧ (∃ j ∈ s.journeys.journeys, r.target = j.id) ∧
      (r.kind = .leadsTo ∨ r.kind = .requires) := by
  obtain ⟨t, -, htraced⟩ := hs.traced
  rw [htraced.relationships_eq] at hr
  exact Journey.ends_of_relationships hr

theorem mapped_of_step (hs : s.Found) {j : Journey α} (hj : j ∈ s.journeys.journeys)
    {step : Step α} (hstep : step ∈ j.steps) :
    ∃ m ∈ s.features.mappings, m.name = step.component := by
  obtain ⟨t, ht, htraced⟩ := hs.traced
  exact ht ▸ List.mem_map.mp ((htraced.journeys j hj).visited step hstep)

end Found

end Graph.Sources

namespace Atlas

variable {config : Config} {now : Moment} {analyse : Bool} {p : Project} {c : Context Number}
  {a : Atlas}

/-- The parts of an atlas are what the steps of the run came to. -/
theorem parts_of_make (h : make config now analyse p c = .ok a) :
    Graph.Sources.ofProject p c = .ok a.sources ∧
      Graph.build config.graphSettings now a.sources = .done a.graph ∧
      Network.ofGraph a.graph = .ok a.network := by
  obtain ⟨sources, hsources, h⟩ := bind_eq_ok.mp h
  obtain ⟨graph, hgraph, h⟩ := bind_eq_ok.mp h
  obtain ⟨network, hnetwork, h⟩ := bind_eq_ok.mp h
  obtain ⟨analysis, h⟩ : ∃ analysis, a = ⟨sources, graph, network, analysis⟩ := by
    split at h
    · obtain ⟨analysis, -, h⟩ := bind_eq_ok.mp h
      exact ⟨analysis, (Except.ok.inj h).symm⟩
    · exact ⟨none, (Except.ok.inj h).symm⟩
  subst h
  exact ⟨hsources, Progress.toExcept_eq_ok.mp hgraph, hnetwork⟩

/-- The sources and the graph of a run: those that were found in the project, and what is built of
them. -/
theorem stages_of_make (h : make config now analyse p c = .ok a) :
    a.sources.context = c ∧ a.sources.Found ∧
      Graph.build config.graphSettings now a.sources = .done a.graph ∧
      Network.ofGraph a.graph = .ok a.network := by
  obtain ⟨hsources, hbuilt⟩ := parts_of_make h
  obtain ⟨hcontext, hfound⟩ := Graph.Sources.found_of_project hsources
  exact ⟨hcontext, hfound, hbuilt⟩

end Atlas

end BusinessAtlas
