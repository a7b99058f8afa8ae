import BusinessAtlas.Proofs.Feature.Mentions
import BusinessAtlas.Proofs.Grouped
import Mathlib.Algebra.Order.Field.Rat

/-!
# What features measure together

What is estimated of a feature is added up over the components that it owns. Every component has one
owner, so the estimates of all features together are those of all components: a feature that owns
nothing loses nothing, and a component to which many features refer is counted once. The average
complexity of a feature, read exactly, stands for the complexity of its components together.
-/

namespace BusinessAtlas

variable {α : Type}

theorem interactionPoints_eq (ms : List Mapping) :
    interactionPoints ms = (ms.flatMap (·.patterns)).countP (·.kind == .userInput) := by
  rw [List.countP_flatMap]
  rfl

theorem averageComplexity_mul_length (ms : List Mapping) :
    (averageComplexity ms : Rat) * ms.length = totalTypicalComplexity ms := by
  cases ms with
  | nil =>
    change averageComplexity [] * ((0 : Nat) : Rat) = ((0 : Nat) : Rat)
    rw [Nat.cast_zero, mul_zero]
  | cons m rest =>
    have hlength : ((m :: rest).length : Rat) ≠ 0 := Nat.cast_ne_zero.mpr (Nat.succ_ne_zero _)
    have haverage : (averageComplexity (m :: rest) : Rat) =
        (totalTypicalComplexity (m :: rest) : Rat) / ((m :: rest).length : Rat) := by
      change ((totalTypicalComplexity (m :: rest) : Int) : Rat) / (((m :: rest).length : Int) : Rat) = _
      rw [Int.cast_natCast, Int.cast_natCast]
    rw [haverage, div_mul_cancel₀ _ hlength]

namespace FeatureMap

theorem OwnsOnce.totalOf_components {capabilities : List Capability} {g : FeatureMap α}
    (h : OwnsOnce capabilities g) (weight : Mapping → Nat) :
    totalOf (g.features.map fun f => totalOf (f.components.map weight)) =
      totalOf (g.mappings.map weight) := by
  rw [← totalOf_map_flatMap]
  exact (h.perm_components.map weight).sum_nat

/-- The metrics of the features account for the components of the map: every component counts for
one feature, with its estimated lines of code and its interactions with the user. The average
complexity of a feature, computed exactly, is that of its components. -/
structure Totals [Scalar α] (g : FeatureMap α) : Prop where
  components : totalOf (g.features.map (·.metrics.components)) = g.mappings.length
  codeLines : totalOf (g.features.map (·.metrics.codeLines)) = totalOf (g.mappings.map fun m =>
    50 + m.kind.extraLines + 20 * m.patterns.length + 30 * m.data.transformations.length)
  interactionPoints : totalOf (g.features.map (·.metrics.interactionPoints)) =
    (g.mappings.flatMap (·.patterns)).countP (·.kind == .userInput)
  average : ∀ f ∈ g.features, f.metrics.averageComplexity = averageComplexity f.components
  complexity : ∀ f ∈ g.features, (averageComplexity f.components : Rat) * f.metrics.components =
    totalOf (f.components.map fun m => m.kind.typicalComplexity)

variable [Scalar α] {g : FeatureMap α}

private theorem measured_of_build {p : Project} {table : Classifier} {label : Labelling}
    {stories : List (Story α)} {capabilities : List Capability}
    (h : buildBy p table label stories capabilities = .done g) : ∀ f ∈ g.features, f.measured = f := by
  obtain ⟨_, _, _, grouped, _, _, _, _, rfl⟩ := passes_of_build h
  exact List.forall_mem_map.mpr fun _ _ => rfl

/-- In every map that is built, the metrics of the features account for all components, each once. -/
theorem totals_of_build {p : Project} {table : Classifier} {label : Labelling}
    {stories : List (Story α)} {capabilities : List Capability}
    (h : buildBy p table label stories capabilities = .done g) : g.Totals := by
  have howned := ownsOnce_of_build h
  have hmeasured : ∀ f ∈ g.features, f.metrics = f.measured.metrics := fun f hf =>
    congrArg Feature.metrics (measured_of_build h f hf).symm
  constructor
  · have hone : g.features.map (·.metrics.components) =
        g.features.map fun f => totalOf (f.components.map fun _ => 1) := by
      refine List.map_congr_left fun f hf => ?_
      rw [hmeasured f hf, totalOf_eq_sum, List.map_const', List.sum_replicate_nat, Nat.mul_one]
      rfl
    rw [hone, howned.totalOf_components, totalOf_eq_sum, List.map_const', List.sum_replicate_nat,
      Nat.mul_one]
  · rw [List.map_congr_left fun f hf => congrArg FeatureMetrics.codeLines (hmeasured f hf)]
    exact howned.totalOf_components Mapping.codeLines
  · rw [List.map_congr_left fun f hf => congrArg FeatureMetrics.interactionPoints (hmeasured f hf),
      ← interactionPoints_eq]
    exact howned.totalOf_components Mapping.interactionPoints
  · exact fun f hf => congrArg FeatureMetrics.averageComplexity (hmeasured f hf)
  · intro f hf
    rw [hmeasured f hf]
    exact averageComplexity_mul_length f.components

/-- A form that takes in what the user submits, beside two plain components. -/
private def desk : Project :=
  ⟨[⟨.text "Form", .text "", .text "function", [⟨.text "onSubmit", .text "func", true⟩], [], [], []⟩,
    ⟨.text "Cart", .text "", .text "function", [], [], [], []⟩,
    ⟨.text "Badge", .text "", .text "function", [], [], [], []⟩], [], []⟩

/-- The second capability has nothing of its own. -/
private def deskWork : List Capability :=
  [.naming "sales" "Sales" ["Cart", "Form"], .naming "stock" "Stock" ["Cart"]]

theorem totals_of_build_desk : ∃ g : FeatureMap Rat, build desk .bundled [] deskWork = .done g ∧
    g.features.map (fun f => (f.metrics.components, f.metrics.codeLines)) =
      [(2, 250), (0, 0), (1, 100)] ∧
    g.features.map (·.metrics.interactionPoints) = [1, 0, 0] ∧ g.Totals := by
  have hbuilt := Progress.eq_done_of_isNone
    (show (build desk .bundled [] deskWork : Progress (FeatureMap Rat)).fault.isNone = true by
      decide +kernel)
  exact ⟨_, hbuilt, by decide +kernel, by decide +kernel, totals_of_build hbuilt⟩

end FeatureMap

end BusinessAtlas
