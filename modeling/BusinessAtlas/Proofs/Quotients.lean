import BusinessAtlas.Atlas
import BusinessAtlas.Proofs.Number.Range

/-!
# No quotient by zero

A run never divides by zero. What a quotient by zero is makes no difference to it: with any values
in the place of such quotients, of scores and of coordinates, every stage comes to the same result.
-/

namespace BusinessAtlas

/-- Numbers with values of their own in the place of quotients by zero. -/
@[reducible] def Scalar.dividing (other : Number → Number) : Scalar Number :=
  { (inferInstance : Scalar Number) with div a b := if b.isZero then other a else a.div b }

/-- Coordinates with values of their own for no parts at all. -/
@[reducible] def Coordinate.splitting (other : Json → Except Fault Json) : Coordinate Json :=
  { (inferInstance : Coordinate Json) with split v n := if n = 0 then other v else v.split n }

variable {other : Number → Number}

private theorem dividing_div {a b : Number} (h : b.isZero = false) :
    (Scalar.dividing other).div a b = a.div b := if_neg (by simp [h])

private theorem isZero_count {n : Nat} (h : n ≠ 0) : (Scalar.count n : Number).isZero = false := by
  simpa [Scalar.count, Scalar.int, Number.isZero] using h

private theorem overlap_dividing {shared left right : Nat} (h : left ≠ 0) :
    @Relationship.overlap Number (.dividing other) shared left right =
      Relationship.overlap shared left right :=
  dividing_div (isZero_count (by omega))

private theorem between_dividing :
    @Relationship.between Number (.dividing other) = Relationship.between := by
  funext f g
  unfold Relationship.between
  split
  · rfl
  · dsimp only
    split
    · next h =>
      have hne : f.references.length ≠ 0 := by
        intro hnil
        simp [List.length_eq_zero_iff.mp hnil] at h
      rw [overlap_dividing hne]
    · rfl

private theorem averageComplexity_dividing :
    @averageComplexity Number (.dividing other) = averageComplexity := by
  funext ms
  unfold averageComplexity
  split
  · rfl
  · next h => exact dividing_div (isZero_count fun hnil => h (List.isEmpty_iff_length_eq_zero.mpr hnil))

private theorem featureMap_dividing :
    @FeatureMap.build Number (.dividing other) = FeatureMap.build := by
  have hrelate : @FeatureMap.relate Number (.dividing other) = FeatureMap.relate := by
    unfold FeatureMap.relate
    rw [between_dividing]
  have hmeasured : @Feature.measured Number (.dividing other) = Feature.measured := by
    unfold Feature.measured
    rw [averageComplexity_dividing]
  have hmeasure : @FeatureMap.measure Number (.dividing other) = FeatureMap.measure := by
    unfold FeatureMap.measure
    rw [hmeasured]
  unfold FeatureMap.build FeatureMap.buildBy
  rw [hrelate, hmeasure]
  rfl

/-- What is found in a project does not depend on what quotients by zero are. -/
theorem Graph.Sources.ofProject_dividing (p : Project) (c : Context Number) :
    @Graph.Sources.ofProject Number (.dividing other) p c = Graph.Sources.ofProject p c := by
  have hjourneys : @JourneyMap.build Number (.dividing other) = JourneyMap.build := rfl
  unfold Graph.Sources.ofProject
  rw [featureMap_dividing, hjourneys]

private theorem personaCluster_dividing (persona : String) {js : List (Journey Number)}
    (h : js.length ≠ 0) :
    @personaCluster Number (.dividing other) persona js = personaCluster persona js := by
  let total : Number := Scalar.sum (js.map (·.metrics.complexity))
  change { personaCluster persona js with
    complexity := ((Scalar.dividing other).div total (Scalar.count js.length)).mul (.int 10) } = _
  rw [dividing_div (isZero_count h)]
  rfl

private theorem personaClusters_dividing :
    @personaClusters Number (.dividing other) = personaClusters := by
  funext js
  unfold personaClusters
  refine List.map_congr_left fun g hg => personaCluster_dividing g.1 fun hnil => ?_
  have hlong := of_decide_eq_true (List.mem_filter.mp hg).2
  omega

private theorem densityOf_dividing : @densityOf Number (.dividing other) = densityOf := by
  funext nodes edges
  unfold densityOf
  split
  · rfl
  · next h =>
    have hpairs : 2 ≤ nodes * (nodes - 1) := Nat.mul_le_mul (Nat.not_lt.mp h) (by omega : 1 ≤ nodes - 1)
    have hhalf : ((Number.int (nodes * (nodes - 1) : Nat)).div (.int 2)).isZero = false :=
      Binary64.ofQuotient_ne_zero (by decide) hpairs
    exact dividing_div hhalf

private theorem counted_dividing (g : Graph Number Json) :
    @Graph.counted Number Json (.dividing other) g = g.counted := by
  unfold Graph.counted
  rw [densityOf_dividing]
  dsimp only
  congr 1
  split
  · rfl
  · next h => exact dividing_div (isZero_count fun hnil => h (List.isEmpty_iff_length_eq_zero.mpr hnil))

private theorem placeRow_splitting (part : Json → Except Fault Json) (l : Layout Json) (level : Nat)
    (spacing y : Json) (index : Nat) (ns : List (Node Number Json)) :
    @Layout.placeRow Number Json (.splitting part) l level spacing y index ns =
      l.placeRow level spacing y index ns := by
  induction ns generalizing index with
  | nil => rfl
  | cons n rest ih =>
    unfold Layout.placeRow
    rw [ih, ih]
    rfl

/-- What is built of some sources does not depend on what quotients by zero are. -/
theorem Graph.build_dividing (part : Json → Except Fault Json) (settings : GraphSettings Json)
    (now : Moment) (s : Graph.Sources Number) :
    @Graph.build Number Json (.dividing other) (.splitting part) settings now s =
      Graph.build settings now s := by
  have hclusters : @Graph.addAllClusters Number Json (.dividing other) = Graph.addAllClusters := by
    unfold Graph.addAllClusters Graph.clusterJourneys
    rw [personaClusters_dividing]
    rfl
  have hstatistics : @Graph.takeStatistics Number Json (.dividing other) = Graph.takeStatistics := by
    funext g
    unfold Graph.takeStatistics
    rw [counted_dividing]
  have hsplit (v : Json) (row : Nat) :
      (Coordinate.splitting part).split v (row + 1) = v.split (row + 1) := if_neg (Nat.succ_ne_zero row)
  have hlevel : @Layout.placeLevel Number Json (.splitting part) = Layout.placeLevel := by
    funext l nodes level
    unfold Layout.placeLevel
    split
    · rfl
    · simp only [hsplit, placeRow_splitting]
      rfl
  have hplace : @Graph.place Number Json (.splitting part) = Graph.place := by
    unfold Graph.place
    rw [hlevel]
  unfold Graph.build
  rw [hclusters, hstatistics, hplace]
  rfl

end BusinessAtlas
