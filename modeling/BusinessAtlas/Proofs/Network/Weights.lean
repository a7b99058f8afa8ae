import BusinessAtlas.Proofs.Feature.Mentions
import BusinessAtlas.Proofs.Graph.Drawn
import BusinessAtlas.Proofs.Graph.Statistics
import BusinessAtlas.Proofs.Network.Collapse

/-!
# What edges weigh

Every family of edges has its weight, which is some tenths, except for the relationships of features
that share components: these weigh as much as the part of the components that is shared. What is shared
stands in both lists of references, however often either repeats a component, so there is something to
divide by and the part is at most the whole. A link of the network weighs as much as one of its edges.
-/

namespace BusinessAtlas

variable {α β : Type}

section

variable [Scalar α]

/-- The weights that there are: from one tenth to ten tenths, and the part of a list that is shared,
which is something and not more than the list. -/
inductive Graded : α → Prop
  | tenths {n : Int} (hpos : 0 < n) (hle : n ≤ 10) : Graded (Scalar.decimal n 1)
  | part {shared left right : Nat} (hpos : 0 < shared) (hle : shared ≤ max left right) :
      Graded (Relationship.overlap shared left right)

theorem Graded.larger {v w : α} (hv : Graded v) (hw : Graded w) : Graded (Scalar.larger v w) := by
  rw [Scalar.larger]
  split
  · exact hw
  · exact hv

namespace Feature

omit [Scalar α] in
theorem length_shared_le (f k : Feature α) :
    (f.references.filter k.references.contains).length ≤
      max f.references.length k.references.length :=
  Nat.le_trans (List.length_filter_le ..) (Nat.le_max_left ..)

end Feature

theorem Relationship.graded_between {f k : Feature α} {r : Relationship α}
    (h : between f k = .ok (some r)) : Graded r.strength := by
  unfold between at h
  split at h
  · cases h
    exact .tenths (by decide) (by decide)
  · dsimp only at h
    split at h
    · next hsome =>
      cases h
      have hpos : 0 < (f.references.filter k.references.contains).length :=
        List.length_pos_iff.mpr (by simpa using hsome)
      exact .part hpos (f.length_shared_le k)
    · split at h
      · obtain ⟨joined, _, h⟩ := bind_eq_ok.mp h
        cases h
        exact .tenths (by decide) (by decide)
      · cases h

theorem FeatureMap.graded_of_build {p : Project} {tables : FeatureTables} {stories : List (Story α)}
    {capabilities : List Capability} {g : FeatureMap α}
    (h : build p tables stories capabilities = .done g) : ∀ r ∈ g.relationships, Graded r.strength := by
  obtain ⟨found, hfound, hrelated⟩ := relationships_of_build h
  intro r hr
  rw [hrelated, List.mem_filterMap] at hr
  obtain ⟨o, ho, hor⟩ := hr
  obtain ⟨⟨f, k⟩, -, hbetween⟩ := (mem_of_mapM hfound).mp ho
  exact Relationship.graded_between (hbetween.trans (congrArg Except.ok hor))

namespace Graph

variable {s : Sources α}

private theorem Sources.DrawsEdge.graded (hs : ∀ r ∈ s.features.relationships, Graded r.strength)
    {e : Edge α} (h : s.DrawsEdge e) : Graded e.weight := by
  cases h with
  | story _ h => cases h <;> exact .tenths (by decide) (by decide)
  | capability _ h =>
    cases h
    exact .tenths (by decide) (by decide)
  | relationship hr h =>
    cases h
    exact hs _ hr
  | feature _ h =>
    obtain ⟨name, -, rfl⟩ := List.mem_map.mp h
    exact .tenths (by decide) (by decide)
  | journeyRelationship _ h =>
    cases h
    exact .tenths (by decide) (by decide)
  | journey _ h =>
    obtain ⟨name, -, rfl⟩ := List.mem_map.mp h
    exact .tenths (by decide) (by decide)
  | @flow f _ =>
    change Graded f.criticality.weight
    cases f.criticality <;> exact .tenths (by decide) (by decide)
  | rule _ h => cases h <;> exact .tenths (by decide) (by decide)

theorem offers_graded (hs : ∀ r ∈ s.features.relationships, Graded r.strength) :
    Offers (β := β) .edge (fun es => ∀ e ∈ es, Graded e.weight) (addAllEdges s) :=
  (offers_draws s).imp fun _ hes e he => ((hes e).mp he).graded hs

end Graph

namespace Network

theorem graded_putLink {e : Edge α} {ls : List (Link α)} (he : Graded e.weight)
    (hls : ∀ l ∈ ls, Graded l.weight) : ∀ l ∈ putLink e ls, Graded l.weight := by
  induction ls with
  | nil => exact List.forall_mem_singleton.mpr he
  | cons l rest ih =>
    obtain ⟨hl, hrest⟩ := List.forall_mem_cons.mp hls
    unfold putLink
    split
    · exact List.forall_mem_cons.mpr ⟨hl.larger he, hrest⟩
    · exact List.forall_mem_cons.mpr ⟨hl, ih hrest⟩

private theorem graded_foldl {es : List (Edge α)} (hes : ∀ e ∈ es, Graded e.weight)
    {ls : List (Link α)} (hls : ∀ l ∈ ls, Graded l.weight) :
    ∀ l ∈ es.foldl (fun ls e => putLink e ls) ls, Graded l.weight := by
  induction es generalizing ls with
  | nil => exact hls
  | cons e rest ih =>
    obtain ⟨he, hrest⟩ := List.forall_mem_cons.mp hes
    exact ih hrest (graded_putLink he hls)

theorem graded_ofGraph {g : Graph α β} (hg : g.Sound) (hes : ∀ e ∈ g.arena.edges, Graded e.weight)
    {n : Network α} (h : ofGraph g = .ok n) : ∀ l ∈ n.links, Graded l.weight := by
  rw [eq_of_ofLists h hg.nodup hg.ends]
  exact graded_foldl hes nofun

end Network

end

section

private theorem count_max_pos {shared left right : Nat} (hpos : 0 < shared)
    (hle : shared ≤ max left right) : (0 : Rat) < Scalar.count (max left right) := by
  have hlarge : (0 : Int) < (max left right : Nat) := Int.natCast_pos.mpr (by omega)
  exact Int.cast_pos.mpr hlarge

theorem Graded.pos_le_one {w : Rat} (h : Graded w) : 0 < w ∧ w ≤ 1 := by
  cases h with
  | @tenths n hpos hle =>
    have htenths : (Scalar.decimal n 1 : Rat) = n / 10 := by
      change mkRat n 10 = _
      rw [Rat.mkRat_eq_div]
      rfl
    have hn : (0 : Rat) < n := Int.cast_pos.mpr hpos
    have hten : (n : Rat) ≤ 10 := by exact_mod_cast hle
    rw [htenths]
    exact ⟨by positivity, by linarith⟩
  | @part shared left right hpos hle =>
    have hmax := count_max_pos hpos hle
    have hshared : (0 : Rat) < Scalar.count shared := Int.cast_pos.mpr (Int.natCast_pos.mpr hpos)
    have hwhole : (Scalar.count shared : Rat) ≤ Scalar.count (max left right) :=
      Int.cast_le.mpr (Int.ofNat_le.mpr hle)
    exact ⟨div_pos hshared hmax, (div_le_one hmax).mpr hwhole⟩

theorem Relationship.between_dividingExactly (other : Rat → Rat) (f k : Feature Rat) :
    @between Rat (.dividingExactly other) f k = between f k := by
  unfold between
  split
  · rfl
  · dsimp only
    split
    · next hsome =>
      have hpos : 0 < (f.references.filter k.references.contains).length :=
        List.length_pos_iff.mpr (by simpa using hsome)
      have hmax := count_max_pos hpos (f.length_shared_le k)
      have hoverlap : @overlap Rat (.dividingExactly other)
          (f.references.filter k.references.contains).length f.references.length
          k.references.length = overlap (f.references.filter k.references.contains).length
            f.references.length k.references.length := if_neg hmax.ne'
      rw [hoverlap]
    · rfl

end

namespace Graph

/-- In exact arithmetic, every relationship of the features of a project, every edge of the graph that
is built of it and every link of its network has a weight above zero and of at most one. For whatever
features, nothing is divided by zero to tell how they relate. -/
theorem weights_ofProject {β : Type} [Coordinate β] (settings : GraphSettings β) (now : Moment)
    (p : Project) (c : Context Rat) :
    (∀ s, Sources.ofProject p c = .ok s →
      ∀ r ∈ s.features.relationships, 0 < r.strength ∧ r.strength ≤ 1) ∧
    (∀ g, ofProject settings now p c = .ok g →
      (∀ e ∈ g.arena.edges, 0 < e.weight ∧ e.weight ≤ 1) ∧
      ∀ n, Network.ofGraph g = .ok n → ∀ l ∈ n.links, 0 < l.weight ∧ l.weight ≤ 1) ∧
    ∀ (other : Rat → Rat) (f k : Feature Rat),
      @Relationship.between Rat (.dividingExactly other) f k = Relationship.between f k := by
  refine ⟨fun s hs r hr => ?_, fun g hg => ?_, Relationship.between_dividingExactly⟩
  · obtain ⟨-, hfeatures, -⟩ := Sources.stages_of_project hs
    exact (FeatureMap.graded_of_build hfeatures r hr).pos_le_one
  · obtain ⟨s, hs, hbuilt⟩ := bind_eq_ok.mp hg
    have hdone := Progress.toExcept_eq_ok.mp hbuilt
    obtain ⟨-, hfeatures, -⟩ := Sources.stages_of_project hs
    have hedges : ∀ e ∈ g.arena.edges, Graded e.weight :=
      edges_forall_of_build (offers_graded (FeatureMap.graded_of_build hfeatures)) hdone
    refine ⟨fun e he => (hedges e he).pos_le_one, fun n hn l hl => ?_⟩
    exact (Network.graded_ofGraph (sound_of_build hdone) hedges hn l hl).pos_le_one

/-- Two capabilities that name the cart, the first of them twice, and a rule with the id of the first
one, about the same orders. -/
private def stallWork : Context Rat where
  stories := []
  capabilities := [
    { Capability.naming "sales" "Sales" ["Cart", "Cart"] with entities := [.text "Order"] },
    .naming "stock" "Stock" ["Cart"]]
  entities := [⟨.text "Order", [], [], [], .text "", .record []⟩]
  rules := [⟨.text "sales", .text "", .text "", [], [.text "Order"], [], [], .record []⟩]
  personas := []

private def stallSettings : GraphSettings Rat :=
  ⟨.text "Stall", .text "", ⟨1000, 150, 100, 100⟩, .int 5⟩

theorem weights_ofProject_stall : ∃ s g n,
    Sources.ofProject (.bare ["Cart"]) stallWork = .ok s ∧
    s.features.relationships.map (·.strength) = [1, 1 / 2] ∧
    ofProject stallSettings ⟨2024, 1, 2, 3, 4, 5, 0⟩ (.bare ["Cart"]) stallWork = .ok g ∧
    g.arena.edges.map (·.weight) = [6 / 10, 1, 1 / 2, 7 / 10, 7 / 10] ∧ Network.ofGraph g = .ok n ∧
    n.links.map (·.weight) = [7 / 10, 1, 1 / 2, 7 / 10] ∧
    (∀ r ∈ s.features.relationships, 0 < r.strength ∧ r.strength ≤ 1) ∧
    (∀ e ∈ g.arena.edges, 0 < e.weight ∧ e.weight ≤ 1) ∧
    ∀ l ∈ n.links, 0 < l.weight ∧ l.weight ≤ 1 := by
  obtain ⟨s, hs, hstrengths⟩ := exists_of_any (show (Sources.ofProject (.bare ["Cart"])
    stallWork).toOption.any (fun s =>
      s.features.relationships.map (·.strength) == [1, 1 / 2]) = true by decide +kernel)
  obtain ⟨g, hg, hrest⟩ := exists_of_any (show (ofProject stallSettings ⟨2024, 1, 2, 3, 4, 5, 0⟩
    (.bare ["Cart"]) stallWork).toOption.any (fun g =>
      g.arena.edges.map (·.weight) == [6 / 10, 1, 1 / 2, 7 / 10, 7 / 10] &&
      (Network.ofGraph g).toOption.any fun n =>
        n.links.map (·.weight) == [7 / 10, 1, 1 / 2, 7 / 10]) = true by decide +kernel)
  obtain ⟨hedges, hlinks⟩ := (Bool.and_eq_true _ _).mp hrest
  obtain ⟨n, hn, hlinks⟩ := exists_of_any hlinks
  obtain ⟨hfound, hbuilt, -⟩ := weights_ofProject stallSettings ⟨2024, 1, 2, 3, 4, 5, 0⟩
    (.bare ["Cart"]) stallWork
  exact ⟨s, g, n, hs, eq_of_beq hstrengths, hg, eq_of_beq hedges, hn, eq_of_beq hlinks, hfound s hs,
    (hbuilt g hg).1, (hbuilt g hg).2 n hn⟩

end Graph

end BusinessAtlas
