import BusinessAtlas.Proofs.Graph.Builder
import BusinessAtlas.Proofs.Graph.Readable
import BusinessAtlas.Proofs.Journey.Total
import BusinessAtlas.Proofs.Network.Coverage
import BusinessAtlas.Proofs.Quotients

/-!
# A run over any facts

A run with the default settings over facts that are what they are declared to be never stops, however
empty, repeated, dangling or cyclic they are.
-/

namespace BusinessAtlas

theorem Layout.fits_whole {width gap left top : Nat} (hwidth : width < 2 ^ 64) (hleft : left < 2 ^ 64)
    (n : Nat) : (⟨.nat width, .nat gap, .nat left, .nat top⟩ : Layout Json).Fits n := by
  refine ⟨fun level _ => ⟨_, rfl⟩, fun row _ hrow => ?_⟩
  have hpart : (Binary64.ofQuotient width row).isInf = false :=
    Binary64.isInf_ofQuotient (Nat.ne_of_gt hrow) hwidth
  have hsplit : Coordinate.split (Json.nat width) row =
      .ok (.number (.float (Binary64.ofQuotient width row))) := by
    have hdiv := Number.div_int width row
    simp [Coordinate.split, Json.split, Json.nat, Json.asNumber?, Number.split?, hdiv, Number.toFloat,
      hpart]
  refine ⟨_, hsplit, fun y index _ => ?_⟩
  let shift := (Number.int index).mul (.float (Binary64.ofQuotient width row))
  have hshift : Coordinate.times index (Json.number (.float (Binary64.ofQuotient width row))) =
      .ok (Json.number shift) := rfl
  have hplace : Coordinate.plus (Json.nat left) (Json.number shift) =
      .ok (Json.number ((Number.int left).add shift)) :=
    bind_eq_ok.mpr ⟨_, Number.plus?_eq_ok (Number.overflows_int hleft) rfl, rfl⟩
  exact ⟨⟨_, y⟩, bind_eq_ok.mpr ⟨_, hshift, bind_eq_ok.mpr ⟨_, hplace, rfl⟩⟩⟩

theorem GraphSettings.serve_default (n : Nat) : Config.default.graphSettings.Serve n :=
  ⟨rfl, Layout.fits_whole (by decide : 1000 < 2 ^ 64) (by decide : 100 < 2 ^ 64) n⟩

private theorem identifies_of_isText {v : Json} (h : v.isText = true) : v.Identifies := by
  obtain ⟨s, rfl⟩ := Json.isText_iff.mp h
  rfl

theorem Context.Typed.ids {α : Type} {c : Context α} (h : c.Typed) :
    ∀ id ∈ c.ids, id.isText = true := by
  intro id hid
  simp only [Context.ids, List.mem_append, List.mem_map] at hid
  obtain ((⟨x, hx, rfl⟩ | ⟨x, hx, rfl⟩) | ⟨x, hx, rfl⟩) | ⟨x, hx, rfl⟩ := hid
  · exact (h.stories x hx).id
  · exact (h.capabilities x hx).id
  · exact (h.rules x hx).id
  · exact (h.personas x hx).id

namespace Graph.Sources

variable {α : Type} [Scalar α] {p : Project} {c : Context α}

omit [Scalar α] in
private theorem readable_of_found {s : Sources α} (hs : s.Found) (hc : s.context.Typed)
    (hf : ∀ f ∈ s.features.features, f.Typed) : s.Readable where
  stories x hx := by
    obtain ⟨hid, hpriority, hcomplexity⟩ := hc.stories x hx
    exact ⟨identifies_of_isText hid, identifies_of_isText hpriority,
      identifies_of_isText hcomplexity⟩
  capabilities x hx := by
    have htyped := hc.capabilities x hx
    exact ⟨identifies_of_isText htyped.id, identifies_of_isText htyped.value⟩
  rules x hx := by
    obtain ⟨hid, hcategory, hentities⟩ := hc.rules x hx
    exact ⟨identifies_of_isText hid, identifies_of_isText hcategory, hentities⟩
  personas x hx := identifies_of_isText (hc.personas x hx).id
  features f hmem story hstory := identifies_of_isText ((hf f hmem).stories story hstory)
  featureKinds r hr name h := by
    rcases (hs.related r hr).kind with hkind | hkind <;> rw [hkind] at h <;> cases h
  journeyKinds r hr name h := by
    rcases (hs.joins_journeys hr).2.2 with hkind | hkind <;> rw [hkind] at h <;> cases h

private theorem exists_ofProject (hp : p.Typed) (hc : c.Typed) :
    ∃ s, ofProject p c = .ok s ∧ s.Readable ∧ ∀ j ∈ s.journeys.journeys, j.Settled := by
  obtain ⟨features, hf, htyped⟩ :=
    FeatureMap.exists_build hp .bundled hc.stories hc.capabilities
  let t : Terrain := ⟨p, features.mappings, .bundled⟩
  have htables : t.tables.Complete := JourneyTables.complete_bundled
  obtain ⟨journeys, hj⟩ := JourneyMap.exists_build (α := α) (t := t) htables hp
  have hsources : ofProject p c = .ok ⟨c, features, journeys⟩ := bind_eq_ok.mpr
    ⟨features, Progress.toExcept_eq_ok.mpr hf, bind_eq_ok.mpr
      ⟨journeys, Progress.toExcept_eq_ok.mpr hj, rfl⟩⟩
  exact ⟨_, hsources, readable_of_found (found_of_project hsources).2 hc htyped.features,
    JourneyMap.settled_of_build htables hj⟩

end Graph.Sources

namespace Atlas

/-- Every relationship is of a kind that has an edge, every node is of a kind that has a level, and
nothing that is read from a name is left open. -/
structure Complete (a : Atlas) : Prop where
  relationships : ∀ r ∈ a.sources.features.relationships, ∃ kind, r.kind.edge = .ok kind
  journeyRelationships : ∀ r ∈ a.sources.journeys.relationships, ∃ kind, r.kind.edge = .ok kind
  placed : ∀ n ∈ a.graph.arena.nodes, n.position.isSome = true
  settled : ∀ j ∈ a.sources.journeys.journeys, j.Settled

/-- A run with the default settings goes through for all facts that are what they are declared to be,
finds everything that it looks up, and does not depend on what quotients by zero are. -/
theorem exists_make (v w : Json) (now : Moment) (hv : Project.Declared v) (hw : Context.Declared w) :
    ∃ p c a, Project.ofJson v = .ok p ∧ Context.ofJson w = .ok c ∧
      make .default now false p c = .ok a ∧ a.Complete ∧
      ∀ other part, @Graph.Sources.ofProject Number (.dividing other) p c = .ok a.sources ∧
        @Graph.build Number Json (.dividing other) (.splitting part) Config.default.graphSettings now
          a.sources = .done a.graph := by
  obtain ⟨p, hp, hproject⟩ := Project.exists_ofJson hv
  obtain ⟨c, hc, hcontext⟩ := Context.exists_ofJson hw
  obtain ⟨s, hs, hreadable, hsettled⟩ := Graph.Sources.exists_ofProject hproject hcontext
  obtain ⟨rfl, hfound⟩ := Graph.Sources.found_of_project hs
  obtain ⟨g, hg⟩ := Graph.exists_build now (GraphSettings.serve_default s.nodeCount) hreadable
  obtain ⟨n, hn⟩ := Graph.exists_network_of_build hfound hcontext.ids hg
  refine ⟨p, s.context, ⟨s, g, n, none⟩, hp, hc, ?_, ⟨?_, ?_, ?_, hsettled⟩, fun other part => ⟨?_, ?_⟩⟩
  · exact bind_eq_ok.mpr ⟨s, hs, bind_eq_ok.mpr ⟨g, Progress.toExcept_eq_ok.mpr hg,
      bind_eq_ok.mpr ⟨n, hn, rfl⟩⟩⟩
  · exact fun r hr => RelationshipKind.exists_edge (hreadable.featureKinds r hr)
  · exact fun r hr => JourneyRelationshipKind.exists_edge (hreadable.journeyKinds r hr)
  · rcases Graph.build_cases Config.default.graphSettings now s with ⟨-, hfinished⟩ | ⟨hstopped, -⟩
    · rw [hg] at hfinished
      exact hfinished.placed
    · rw [hg] at hstopped
      exact absurd rfl hstopped
  · rw [Graph.Sources.ofProject_dividing]
    exact hs
  · rw [Graph.build_dividing]
    exact hg

/-- A page and the form nested in it, which contain each other, and a component that is named only. -/
private def shopFacts : Json := .record [("components", .list [.text "Till", .record [
  ("name", .text "ShopPage"), ("props", .list [.text "onSubmit", .record [("name", .text "items"),
    ("isRequired", .bool true)]]), ("hooks", .list [.record [("name", .text "useUser")]]),
  ("children", .list [.text "Ghost", .record [("name", .text "CartForm"),
    ("children", .list [.text "ShopPage"])]])]]), ("files", .list [])]

/-- Two stories with one id, and two capabilities, the second one empty. -/
private def shopRequirements : Json := .record [
  ("user_stories", .list [.record [("id", .text "pay"), ("confidence", .int 1)],
    .record [("id", .text "pay"), ("sourceComponents", .list [.text "Ghost"])]]),
  ("capabilities", .list [.record [("id", .text "sales"), ("name", .text "Sales"),
    ("userStories", .list [.text "pay"]), ("components", .list [.text "CartForm", .text "Ghost"]),
    ("dependencies", .list [.text "stock"])], .record []])]

private theorem declared_shopFacts : Project.Declared shopFacts := ⟨3, by decide +kernel⟩

private theorem declared_shopRequirements : Context.Declared shopRequirements where
  shape := by decide +kernel
  confidences stories h s hs n hn := by
    cases h
    simp only [List.mem_cons, List.not_mem_nil, or_false] at hs
    rcases hs with rfl | rfl <;> cases hn
    exact Number.overflows_int (by decide)

theorem exists_make_shop : Project.Declared shopFacts ∧ Context.Declared shopRequirements ∧
    ∃ p c a, Project.ofJson shopFacts = .ok p ∧ Context.ofJson shopRequirements = .ok c ∧
      make .default ⟨2024, 1, 2, 3, 4, 5, 0⟩ false p c = .ok a ∧ a.Complete ∧
      a.sources.journeys.journeys ≠ [] := by
  obtain ⟨p, c, a, hp, hc, ha, hcomplete, -⟩ := exists_make shopFacts shopRequirements
    ⟨2024, 1, 2, 3, 4, 5, 0⟩ declared_shopFacts declared_shopRequirements
  have hrun : ((Project.ofJson shopFacts >>= fun p => Context.ofJson shopRequirements >>= fun c =>
      make .default ⟨2024, 1, 2, 3, 4, 5, 0⟩ false p c).toOption.any fun a =>
        !a.sources.journeys.journeys.isEmpty) = true := by decide +kernel
  rw [hp, ok_bind, hc, ok_bind, ha] at hrun
  refine ⟨declared_shopFacts, declared_shopRequirements, p, c, a, hp, hc, ha, hcomplete, ?_⟩
  intro hnone
  simp [Except.toOption, hnone] at hrun

end Atlas

end BusinessAtlas
