import BusinessAtlas.Proofs.Feature.Rated
import BusinessAtlas.Proofs.Graph.Importance
import BusinessAtlas.Proofs.Graph.Members
import Mathlib.Algebra.Order.BigOperators.Group.List
import Mathlib.Tactic.Ring

/-!
# The scores of clusters

The scores of features and journeys have highest values, which keeps the scores of their clusters
between 0 and 100. The completeness of a domain is ten times the number of its features and has no
highest value, so it leaves the scale exactly if the domain has more than ten features.
-/

namespace BusinessAtlas

variable {β : Type}

/-- Between 0 and 100. -/
def OnScale (x : Rat) : Prop := 0 ≤ x ∧ x ≤ 100

/-- All scores of the cluster are between 0 and 100. -/
structure Cluster.Scaled (c : Cluster Rat) : Prop where
  value : OnScale c.value
  complexity : OnScale c.complexity
  completeness : OnScale c.completeness

private theorem onScale_int {n : Int} (h : 0 ≤ n ∧ n ≤ 100) : OnScale (Scalar.int n) :=
  ⟨Rat.intCast_nonneg.mpr h.1, Rat.intCast_le_intCast.mpr h.2⟩

private theorem onScale_count {n : Nat} (h : n ≤ topScore) : OnScale (Scalar.count n) :=
  onScale_int ⟨Int.natCast_nonneg n, Int.ofNat_le.mpr h⟩

theorem Journey.complexity_bounds (j : Journey Rat) : 0 ≤ j.complexity ∧ j.complexity ≤ 10 := by
  have hcap : j.complexity = min
      ((j.steps.length : Rat) / 3 + (2 * j.metrics.decisions : Nat) + j.detours.length) 10 :=
    Scalar.cap_eq_min _ _
  rw [hcap]
  exact ⟨le_min (by positivity) (by norm_num), min_le_right _ _⟩

private theorem sum_eq (xs : List Rat) : Scalar.sum xs = xs.sum := by
  rw [List.sum_eq_foldl]
  rfl

private theorem average_bounds {xs : List Rat} (hne : xs ≠ []) (h : ∀ x ∈ xs, 0 ≤ x ∧ x ≤ 10) :
    0 ≤ Scalar.sum xs / xs.length ∧ Scalar.sum xs / xs.length ≤ 10 := by
  have hlength : (0 : Rat) < xs.length := Nat.cast_pos.mpr (List.length_pos_iff.mpr hne)
  have hnonneg : 0 ≤ xs.sum := List.sum_nonneg fun x hx => (h x hx).1
  have hle : xs.sum ≤ xs.length • (10 : Rat) := List.sum_le_card_nsmul xs 10 fun x hx => (h x hx).2
  rw [sum_eq]
  refine ⟨div_nonneg hnonneg hlength.le, (div_le_iff₀ hlength).mpr ?_⟩
  rwa [nsmul_eq_mul, mul_comm] at hle

/-- The cluster is that of a domain, and it is as complete as the domain has features. -/
structure Cluster.Stands (c : Cluster Rat) (d : Domain) : Prop where
  id : c.id = d.id
  kind : c.kind = .domain
  value : OnScale c.value
  complexity : OnScale c.complexity
  completeness : c.completeness = 10 * d.features.length

namespace Cluster

variable {c : Cluster Rat}

theorem stands_of_domain {a : Arena Rat β} {d : Domain} (h : d.cluster a = some c) :
    c.Stands d := by
  unfold Domain.cluster at h
  dsimp only at h
  split at h
  · cases h
  · cases h
    refine ⟨rfl, rfl, onScale_int (by decide), onScale_int (by decide), ?_⟩
    change ((d.features.length : Int) : Rat) / (10 : Int) * (100 : Int) = _
    push_cast
    ring

theorem scaled_of_feature {a : Arena Rat β} {threshold : Json} {f : Feature Rat} (hf : f.Rated)
    (h : f.cluster threshold a = .ok (some c)) : c.Scaled ∧ c.kind = .feature := by
  obtain ⟨nodes, -, h⟩ := bind_eq_ok.mp h
  split at h
  · cases h
  · obtain ⟨collapsed, -, h⟩ := bind_eq_ok.mp h
    cases h
    have hvalue := onScale_count hf.value_le
    have hcomplexity := onScale_count hf.complexity_le
    exact ⟨⟨hvalue, hcomplexity, onScale_int (by decide)⟩, rfl⟩

theorem scaled_of_personas {js : List (Journey Rat)}
    (hjs : ∀ j ∈ js, 0 ≤ j.metrics.complexity ∧ j.metrics.complexity ≤ 10)
    (h : c ∈ personaClusters js) : c.Scaled ∧ c.kind = .journey := by
  obtain ⟨⟨persona, group⟩, hgroup, rfl⟩ := List.mem_map.mp h
  obtain ⟨hne, hmembers⟩ := of_mem_grouped (List.mem_of_mem_filter hgroup)
  have hall : ∀ x ∈ group.map (·.metrics.complexity), 0 ≤ x ∧ x ≤ 10 := by
    intro x hx
    obtain ⟨j, hj, rfl⟩ := List.mem_map.mp hx
    obtain ⟨k, hk, hpair⟩ := List.mem_map.mp (hmembers j hj)
    obtain rfl := (Prod.mk.inj hpair).2
    exact hjs k hk
  have hnonempty : group.map (·.metrics.complexity) ≠ [] := by simpa using hne
  obtain ⟨hlow, hhigh⟩ := average_bounds hnonempty hall
  rw [List.length_map] at hlow hhigh
  refine ⟨⟨onScale_int (by decide), ?_, onScale_int (by decide)⟩, rfl⟩
  change OnScale (Scalar.sum (group.map (·.metrics.complexity)) / (group.length : Int) * (10 : Int))
  push_cast
  constructor <;> linarith

end Cluster

namespace Graph

variable [Coordinate β] {settings : GraphSettings β} {now : Moment} {s : Sources Rat}
  {g : Graph Rat β}

private theorem stands_or_scaled {p : Project} {c : Context Rat} (hs : Sources.ofProject p c = .ok s)
    (h : build settings now s = .done g) : ∀ c ∈ g.clusters,
      (∃ d ∈ s.features.domains, c.Stands d) ∨ (c.Scaled ∧ c.kind ≠ .domain) := by
  obtain ⟨-, hfeatures, hjourneys⟩ := Sources.stages_of_project hs
  obtain ⟨-, made, hmade, hclusters⟩ := made_of_build h
  have hrated := FeatureMap.rated_of_build hfeatures
  have hrating : ∀ j ∈ s.journeys.journeys,
      0 ≤ j.metrics.complexity ∧ j.metrics.complexity ≤ 10 := by
    intro j hj
    obtain ⟨-, -, k, -, rfl⟩ := JourneyMap.origin_of_build hjourneys hj
    exact k.complexity_bounds
  intro c hc
  rw [hclusters, List.mem_append, List.mem_append, List.mem_filterMap, List.mem_filterMap] at hc
  rcases hc with (⟨d, hd, hc⟩ | ⟨f, hf, hc⟩) | hc
  · exact .inl ⟨d, hd, Cluster.stands_of_domain hc⟩
  · obtain ⟨hscaled, hkind⟩ := Cluster.scaled_of_feature (hrated f hf) (hc ▸ hmade f hf)
    exact .inr ⟨hscaled, by simp [hkind]⟩
  · obtain ⟨hscaled, hkind⟩ := Cluster.scaled_of_personas hrating hc
    exact .inr ⟨hscaled, by simp [hkind]⟩

private theorem exists_stands {p : Project} {c : Context Rat} (hs : Sources.ofProject p c = .ok s)
    (h : build settings now s = .done g) {d : Domain} (hd : d ∈ s.features.domains) :
    ∃ c ∈ g.clusters, c.Stands d := by
  obtain ⟨-, made, -, hclusters⟩ := made_of_build h
  obtain ⟨c, hc⟩ := exists_domainCluster hs h hd
  have hmem := List.mem_filterMap.mpr ⟨d, hd, hc⟩
  refine ⟨c, ?_, Cluster.stands_of_domain hc⟩
  rw [hclusters]
  exact List.mem_append_left _ (List.mem_append_left _ hmem)

/-- In exact arithmetic all scores of the clusters of a run are between 0 and 100, but that the
completeness of a domain is ten for each of its features. So every cluster is within the scale exactly
if no domain has more than ten features. -/
theorem scaled_iff_of_build {p : Project} {c : Context Rat} (hs : Sources.ofProject p c = .ok s)
    (h : build settings now s = .done g) :
    (∀ c ∈ g.clusters, OnScale c.value ∧ OnScale c.complexity ∧ 0 ≤ c.completeness ∧
      (c.kind ≠ .domain → c.completeness ≤ 100)) ∧
    (∀ d ∈ s.features.domains, ∃ c ∈ g.clusters, c.id = d.id ∧
      c.completeness = 10 * d.features.length) ∧
    ((∀ c ∈ g.clusters, c.Scaled) ↔ ∀ d ∈ s.features.domains, d.features.length ≤ 10) := by
  refine ⟨fun c hc => ?_, fun d hd => ?_, ?_⟩
  · rcases stands_or_scaled hs h c hc with ⟨d, -, hc⟩ | ⟨hscaled, -⟩
    · refine ⟨hc.value, hc.complexity, ?_, fun hkind => absurd hc.kind hkind⟩
      rw [hc.completeness]
      positivity
    · exact ⟨hscaled.value, hscaled.complexity, hscaled.completeness.1,
        fun _ => hscaled.completeness.2⟩
  · obtain ⟨c, hc, hstands⟩ := exists_stands hs h hd
    exact ⟨c, hc, hstands.id, hstands.completeness⟩
  · constructor
    · intro hall d hd
      obtain ⟨c, hc, hstands⟩ := exists_stands hs h hd
      have hle := (hall c hc).completeness.2
      rw [hstands.completeness] at hle
      have hten : (d.features.length : Rat) ≤ 10 := by linarith
      exact_mod_cast hten
    · intro hfew c hc
      rcases stands_or_scaled hs h c hc with ⟨d, hd, hc⟩ | ⟨hscaled, -⟩
      · have hten : (d.features.length : Rat) ≤ 10 := by exact_mod_cast hfew d hd
        refine ⟨hc.value, hc.complexity, ?_⟩
        rw [hc.completeness]
        exact ⟨by positivity, by linarith⟩
      · exact hscaled

private def catalogSettings : GraphSettings Json := Config.default.graphSettings

private def catalogTime : Moment := ⟨2024, 1, 2, 3, 4, 5, 0⟩

/-- Capabilities without components, and so without a domain of their own. -/
private def catalog (count : Nat) : Context Rat where
  stories := []
  capabilities := (List.range count).map fun v =>
    .naming ("c" ++ toString v) ("N" ++ toString v) []
  entities := []
  rules := []
  personas := []

theorem scaled_iff_of_build_catalog : ∃ s g,
    Sources.ofProject (.bare []) (catalog 10) = .ok s ∧
    build catalogSettings catalogTime s = .done g ∧
    g.clusters.map (fun c => (c.id, c.completeness)) = [("domain-general", 100)] ∧
    ∀ c ∈ g.clusters, c.Scaled := by
  obtain ⟨s, hs, hbuilt⟩ := exists_of_any (show (Sources.ofProject (.bare [])
    (catalog 10)).toOption.any (fun s =>
      (build catalogSettings catalogTime s).toExcept.toOption.any fun g =>
        (g.clusters.map (fun c => (c.id, c.completeness)) == [("domain-general", 100)]) &&
        decide (∀ d ∈ s.features.domains, d.features.length ≤ 10)) = true by decide +kernel)
  obtain ⟨g, hg, hfound⟩ := exists_of_any hbuilt
  obtain ⟨hclusters, hfew⟩ := (Bool.and_eq_true _ _).mp hfound
  have hdone := Progress.toExcept_eq_ok.mp hg
  exact ⟨s, g, hs, hdone, eq_of_beq hclusters,
    (scaled_iff_of_build hs hdone).2.2.mpr (of_decide_eq_true hfew)⟩

/-- Eleven capabilities without components have features of one domain, and its cluster is more than
complete. -/
theorem not_scaled_catalog : ∃ s g,
    Sources.ofProject (.bare []) (catalog 11) = .ok s ∧
    build catalogSettings catalogTime s = .done g ∧
    ∃ c ∈ g.clusters, c.completeness = 110 ∧ ¬c.Scaled := by
  obtain ⟨s, hs, hbuilt⟩ := exists_of_any (show (Sources.ofProject (.bare [])
    (catalog 11)).toOption.any (fun s =>
      (build catalogSettings catalogTime s).toExcept.toOption.any fun g =>
        decide (∃ c ∈ g.clusters, c.completeness = 110)) = true by decide +kernel)
  obtain ⟨g, hg, hfound⟩ := exists_of_any hbuilt
  obtain ⟨c, hc, hcompleteness⟩ := of_decide_eq_true hfound
  refine ⟨s, g, hs, Progress.toExcept_eq_ok.mp hg, c, hc, hcompleteness, fun hscaled => ?_⟩
  have hle := hscaled.completeness.2
  rw [hcompleteness] at hle
  exact absurd hle (by norm_num)

end Graph

end BusinessAtlas
