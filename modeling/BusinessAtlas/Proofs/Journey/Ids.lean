import BusinessAtlas.Proofs.Journey.Traced

/-!
# The ids of journeys

A journey takes the first id that is free for the name of its entry point, given the journeys before
it. So the ids of a run are all different, however far the run came and whatever the names are: a name
may differ from another one by its case only, or end in a number that another name would be given.
-/

namespace BusinessAtlas

/-- The ids of journeys, each the first one that is free for the name of a component, given the ids
before it. -/
inductive Terrain.NamedInTurn (t : Terrain) : List String → Prop where
  | nil : NamedInTurn t []
  | next {ids c name id} : NamedInTurn t ids → c ∈ t.project.components → c.name = .text name →
    FirstFree ids ("journey-" ++ Text.lower name) id → NamedInTurn t (ids ++ [id])

theorem journeyId_eq_ok {taken : List String} {c : Component} {id : String}
    (h : journeyId taken c = .ok id) :
    ∃ name, c.name = .text name ∧ FirstFree taken ("journey-" ++ Text.lower name) id := by
  obtain ⟨name, hname, h⟩ := bind_eq_ok.mp h
  cases h
  exact ⟨name, Json.asText_eq_ok.mp hname, firstFree_freeId taken _⟩

namespace Terrain

variable {t : Terrain}

theorem NamedInTurn.nodup {ids : List String} (h : t.NamedInTurn ids) : ids.Nodup := by
  induction h with
  | nil => exact List.nodup_nil
  | next _ _ _ hfree ih =>
    rw [List.nodup_append]
    refine ⟨ih, List.nodup_singleton _, ?_⟩
    intro id hid other hother hsame
    rw [List.mem_singleton.mp hother] at hsame
    exact hfree.free (hsame ▸ hid)

end Terrain

namespace JourneyMap

variable {α : Type} [Scalar α] {t : Terrain}

theorem namedInTurn_addJourney {m : JourneyMap α} {entry : Component} (h : t.NamedInTurn m.ids)
    (hentry : entry ∈ t.project.components) : t.NamedInTurn (addJourney t m entry).state.ids := by
  unfold addJourney
  cases htrace : (t.trace m.ids entry : Except Fault (Option (Journey α))) with
  | error f => exact h
  | ok found =>
    cases found with
    | none => exact h
    | some j =>
      obtain ⟨name, hname, hfree⟩ := journeyId_eq_ok (Terrain.startsFrom_of_trace htrace).id
      have hids : (({ m with journeys := m.journeys ++ [j] } : JourneyMap α)).ids = m.ids ++ [j.id] := by
        simp [ids]
      change t.NamedInTurn (({ m with journeys := m.journeys ++ [j] } : JourneyMap α)).ids
      rw [hids]
      exact .next h hentry hname hfree

theorem namedInTurn_addJourneys (t : Terrain) :
    t.NamedInTurn (addJourneys t (empty : JourneyMap α)).state.ids := by
  unfold addJourneys
  cases hentries : t.entryPoints with
  | error f => exact .nil
  | ok entries =>
    apply Progress.each_state_of_mem (P := fun k : JourneyMap α => t.NamedInTurn k.ids)
    · exact .nil
    · intro m entry hentry hm
      exact namedInTurn_addJourney hm ((Terrain.mem_entryPoints hentries).mp hentry).1

theorem namedInTurn_build (t : Terrain) : t.NamedInTurn (build t : Progress (JourneyMap α)).state.ids := by
  unfold build
  apply Progress.andThen_state (P := fun k : JourneyMap α => t.NamedInTurn k.ids)
  · apply Progress.andThen_state (P := fun k : JourneyMap α => t.NamedInTurn k.ids)
    · exact namedInTurn_addJourneys t
    · intro m hm
      obtain ⟨clusters, hstate⟩ := addClusters_state t.tables.cluster m.addPatterns.addFlow
      have hids : (m.addPatterns.traceFlow t.tables.cluster).state.ids = m.ids := by
        change (addClusters t.tables.cluster m.addPatterns.addFlow).state.ids = m.ids
        rw [hstate]
        rfl
      rw [hids]
      exact hm
  · intro m hm
    have hids : m.relate.measure.ids = m.ids := List.map_map
    exact hids.symm ▸ hm

/-- For a component with a name, the search for an id ends at the first one that is free, and the ids
of the journeys of a run are given so, one after the other. No two of them are the same, even if the
run stops half way. -/
theorem firstFree_ids :
    (∀ (taken : List String) (c : Component) (name : String), c.name = .text name →
      ∃ id, journeyId taken c = .ok id ∧ FirstFree taken ("journey-" ++ Text.lower name) id) ∧
    ∀ t : Terrain, t.NamedInTurn (build t : Progress (JourneyMap α)).state.ids ∧
      (build t : Progress (JourneyMap α)).state.ids.Nodup := by
  constructor
  · intro taken c name hname
    refine ⟨freeId taken ("journey-" ++ Text.lower name), ?_, firstFree_freeId taken _⟩
    rw [journeyId, hname]
    rfl
  · intro t
    exact ⟨namedInTurn_build t, (namedInTurn_build t).nodup⟩

private def home (name : String) : Component := ⟨.text name, .null, .null, [], [], [], []⟩

/-- Three homes whose names differ by case, apart from the number that one of them ends in. -/
private def street : Terrain where
  project := ⟨["Home-2", "home", "HOME"].map home, [], []⟩
  mappings := ["Home-2", "home", "HOME"].map fun name =>
    ⟨name, .functional, "", "", [⟨.userInput, "Knock", [], []⟩], ⟨[], [], [], []⟩⟩
  tables := .bundled

theorem firstFree_ids_street :
    (home "HOME").name = .text "HOME" ∧
    journeyId ["journey-home-2", "journey-home"] (home "HOME") = .ok "journey-home-3" ∧
    FirstFree ["journey-home-2", "journey-home"] "journey-home" "journey-home-3" ∧
    (build street : Progress (JourneyMap Rat)).state.ids =
      ["journey-home-2", "journey-home", "journey-home-3"] ∧
    (build street : Progress (JourneyMap Rat)).state.ids.Nodup := by
  obtain ⟨hsearch, hrun⟩ := firstFree_ids (α := Rat)
  obtain ⟨id, hid, hfirst⟩ := hsearch ["journey-home-2", "journey-home"] (home "HOME") "HOME" rfl
  have hnamed : journeyId ["journey-home-2", "journey-home"] (home "HOME") = .ok "journey-home-3" :=
    toOption_eq_some.mp (by decide +kernel)
  have hlower : "journey-" ++ Text.lower "HOME" = "journey-home" := by decide +kernel
  rw [hnamed] at hid
  cases hid
  rw [hlower] at hfirst
  exact ⟨rfl, hnamed, hfirst, by decide +kernel, (hrun street).2⟩

end JourneyMap

end BusinessAtlas
