import BusinessAtlas.Proofs.Feature.Domains
import Mathlib.Algebra.BigOperators.Group.Finset.Basic

/-!
# How features relate in both directions

Two features of which neither depends on the other relate in the same way in both directions, because
what is common to them is. How strongly they do is told by how often the first one refers to what is
common, so both directions agree if no capability repeats a component.
-/

namespace BusinessAtlas

variable {α : Type}

namespace Feature

/-- The components to which both features refer. -/
def common (f k : Feature α) : Finset String := f.references.toFinset ∩ k.references.toFinset

/-- Both features work on some entity. -/
def SharesData (f k : Feature α) : Prop := ∃ s, Json.text s ∈ f.entities ∧ Json.text s ∈ k.entities

/-- Neither of the features depends on the other. -/
def Apart (f k : Feature α) : Prop :=
  (∀ d ∈ f.dependencies, d.feature ≠ k.id) ∧ ∀ d ∈ k.dependencies, d.feature ≠ f.id

instance (f k : Feature α) : Decidable (f.Apart k) := inferInstanceAs (Decidable (_ ∧ _))

theorem common_comm (f k : Feature α) : f.common k = k.common f := Finset.inter_comm _ _

theorem SharesData.symm {f k : Feature α} (h : f.SharesData k) : k.SharesData f :=
  h.imp fun _ => And.symm

theorem toFinset_shared_references (f k : Feature α) :
    (f.references.filter k.references.contains).toFinset = f.common k := by
  ext n
  simp [common]

theorem length_shared_references (f k : Feature α) :
    (f.references.filter k.references.contains).length = ∑ n ∈ f.common k, f.references.count n := by
  rw [← List.sum_toFinset_count_eq_length, toFinset_shared_references]
  apply Finset.sum_congr rfl
  intro n hn
  apply List.count_filter
  simpa using (Finset.mem_inter.mp hn).2

theorem sharesData_iff {f k : Feature α} (htexts : ∀ e ∈ f.entities, e.isText = true) :
    f.SharesData k ↔ f.entities.filter (fun e => e.isAmong k.entities) ≠ [] := by
  constructor
  · intro ⟨s, hf, hk⟩
    exact List.ne_nil_of_mem (List.mem_filter.mpr ⟨hf, Json.text_isAmong.mpr hk⟩)
  · intro hsome
    obtain ⟨e, he⟩ := List.exists_mem_of_ne_nil _ hsome
    obtain ⟨he, hamong⟩ := List.mem_filter.mp he
    obtain ⟨s, rfl⟩ := Json.isText_iff.mp (htexts e he)
    exact ⟨s, he, Json.text_isAmong.mp hamong⟩

end Feature

namespace Relationship

/-- What a relationship tells of two features: its kind and its strength. -/
def weight (r : Relationship α) : RelationshipKind × α := (r.kind, r.strength)

variable [Scalar α]

/-- What is found for two features of which the first does not depend on the second. -/
structure Found (f k : Feature α) (r : Option (Relationship α)) : Prop where
  overlapping : (f.common k).Nonempty → r.map weight = some (.complements,
    overlap (∑ n ∈ f.common k, f.references.count n) f.references.length k.references.length)
  working : ¬(f.common k).Nonempty → f.SharesData k →
    r.map weight = some (.complements, Scalar.decimal 5 1)
  unrelated : ¬(f.common k).Nonempty → ¬f.SharesData k → r = none

/-- Both directions give a relationship of one kind and one strength or neither does, and the strength
for features with common components is the part of the larger set of components that is common. -/
def Mutual (f k : Feature α) : Prop :=
  ∃ r s, between f k = .ok r ∧ between k f = .ok s ∧ r.map weight = s.map weight ∧
    ((f.common k).Nonempty → r.map (·.strength) = some
      (overlap (f.common k).card f.references.toFinset.card k.references.toFinset.card))

theorem found_between {f k : Feature α} (hfree : ∀ d ∈ f.dependencies, d.feature ≠ k.id)
    (htexts : ∀ e ∈ f.entities, e.isText = true) : ∃ r, between f k = .ok r ∧ Found f k r := by
  have hdepends : ¬f.dependencies.any (·.feature == k.id) = true := by
    simpa using hfree
  have hoverlap : (f.common k).Nonempty ↔ f.references.filter k.references.contains ≠ [] := by
    rw [← List.toFinset_nonempty_iff, Feature.toFinset_shared_references]
  have hdata := Feature.sharesData_iff (k := k) htexts
  unfold between
  rw [if_neg hdepends]
  dsimp only
  split
  · next hsome =>
    have hcommon : (f.common k).Nonempty := hoverlap.mpr (by simpa using hsome)
    refine ⟨_, rfl, fun _ => ?_, absurd hcommon, absurd hcommon⟩
    rw [Feature.length_shared_references]
    rfl
  · next hnone =>
    have hcommon : ¬(f.common k).Nonempty := mt hoverlap.mp (by simpa using hnone)
    split
    · next hsome =>
      have hworks : f.SharesData k := hdata.mpr (by simpa using hsome)
      obtain ⟨joined, hjoined⟩ := Json.exists_joinTexts ", " fun e he =>
        htexts e (List.mem_filter.mp he).1
      rw [hjoined]
      exact ⟨_, rfl, (absurd · hcommon), fun _ _ => rfl, fun _ hno => absurd hworks hno⟩
    · next hnone =>
      have hworks : ¬f.SharesData k := mt hdata.mp (by simpa using hnone)
      exact ⟨none, rfl, (absurd · hcommon), fun _ hyes => absurd hyes hworks, fun _ _ => rfl⟩

section

variable {f k : Feature α} {r s : Option (Relationship α)}

theorem Found.weight_comm (hr : Found f k r) (hs : Found k f s) (h : ¬(f.common k).Nonempty) :
    r.map weight = s.map weight := by
  have hother : ¬(k.common f).Nonempty := f.common_comm k ▸ h
  by_cases hdata : f.SharesData k
  · rw [hr.working h hdata, hs.working hother hdata.symm]
  · rw [hr.unrelated h hdata, hs.unrelated hother (mt Feature.SharesData.symm hdata)]

theorem Found.kind_comm (hr : Found f k r) (hs : Found k f s) : r.map (·.kind) = s.map (·.kind) := by
  have hkind (r : Option (Relationship α)) : r.map (·.kind) = (r.map weight).map (·.1) := by
    rw [Option.map_map]
    rfl
  rw [hkind, hkind]
  by_cases hcommon : (f.common k).Nonempty
  · rw [hr.overlapping hcommon, hs.overlapping (f.common_comm k ▸ hcommon)]
    rfl
  · rw [hr.weight_comm hs hcommon]

theorem Found.weight_of_nodup (hr : Found f k r) (hf : f.references.Nodup) (hk : k.references.Nodup)
    (hcommon : (f.common k).Nonempty) : r.map weight = some (.complements,
      overlap (f.common k).card f.references.toFinset.card k.references.toFinset.card) := by
  have hcard : ∑ n ∈ f.common k, f.references.count n = (f.common k).card := by
    rw [Finset.card_eq_sum_ones]
    apply Finset.sum_congr rfl
    intro n hn
    exact List.count_eq_one_of_mem hf (List.mem_toFinset.mp (Finset.mem_inter.mp hn).1)
  rw [hr.overlapping hcommon, hcard, List.toFinset_card_of_nodup hf, List.toFinset_card_of_nodup hk]

/-- Where neither feature refers to anything twice, both directions agree. -/
theorem mutual_of_nodup (hr : between f k = .ok r) (hs : between k f = .ok s) (hfound : Found f k r)
    (hback : Found k f s) (hf : f.references.Nodup) (hk : k.references.Nodup) : Mutual f k := by
  refine ⟨r, s, hr, hs, ?_, ?_⟩
  · by_cases hcommon : (f.common k).Nonempty
    · rw [hfound.weight_of_nodup hf hk hcommon,
        hback.weight_of_nodup hk hf (f.common_comm k ▸ hcommon), f.common_comm k, overlap, overlap,
        Nat.max_comm]
    · exact hfound.weight_comm hback hcommon
  · intro hcommon
    have hstrength : r.map (·.strength) = (r.map weight).map (·.2) := by
      rw [Option.map_map]
      rfl
    rw [hstrength, hfound.weight_of_nodup hf hk hcommon]
    rfl

end

end Relationship

namespace FeatureMap

variable [Scalar α] {g : FeatureMap α} {capabilities : List Capability}

/-- Two features of which neither depends on the other give relationships of one kind in both
directions or none at all. If they share components, the strength is told by how often the first of
them refers to those. If neither of their capabilities names a component twice, both directions agree
on the strength, which is the part of the larger set of components that is common. -/
theorem mutual_of_build {p : Project} {table : Classifier} {label : Labelling}
    {stories : List (Story α)} (h : buildBy p table label stories capabilities = .done g)
    {i j : Nat} {f k : Feature α} (hf : g.features[i]? = some f) (hk : g.features[j]? = some k)
    (hapart : f.Apart k) :
    (∃ r s, Relationship.between f k = .ok r ∧ Relationship.between k f = .ok s ∧
      r.map (·.kind) = s.map (·.kind) ∧ Relationship.Found f k r ∧ Relationship.Found k f s) ∧
    ((∀ c, capabilities[i]? = some c ∨ capabilities[j]? = some c → c.NamesOnce g.mappings) →
      Relationship.Mutual f k) := by
  have howns := ownsOnce_of_build h
  have hrefers := referring_of_build h
  have hgathered := gathered_of_build h
  obtain ⟨r, hr, hfound⟩ := Relationship.found_between hapart.1
    (hgathered.texts (List.mem_of_getElem? hf))
  obtain ⟨s, hs, hback⟩ := Relationship.found_between hapart.2
    (hgathered.texts (List.mem_of_getElem? hk))
  constructor
  · exact ⟨r, s, hr, hs, hfound.kind_comm hback, hfound, hback⟩
  · intro honce
    apply Relationship.mutual_of_nodup hr hs hfound hback
    · exact nodup_references howns hrefers hf fun c hc => honce c (.inl hc)
    · exact nodup_references howns hrefers hk fun c hc => honce c (.inr hc)

private def stocking : List Capability :=
  [.naming "sales" "Sales" ["Cart"], .naming "stock" "Stock" ["Cart", "Total"]]

/-- The first capability names the cart twice. -/
private def restocking : List Capability :=
  [.naming "sales" "Sales" ["Cart", "Cart"], .naming "stock" "Stock" ["Cart"]]

theorem mutual_of_build_stocking : ∃ (g : FeatureMap Rat) (f k : Feature Rat),
    ofBare ["Cart", "Total"] stocking = .done g ∧ g.features[0]? = some f ∧
    g.features[1]? = some k ∧ f.Apart k ∧ f.common k = {"Cart"} ∧ Relationship.Mutual f k := by
  have hbuilt := Progress.eq_done_of_isNone
    (show (ofBare ["Cart", "Total"] stocking).fault.isNone = true by decide +kernel)
  obtain ⟨f, hf, hpair⟩ := (Option.any_eq_true _ _).mp
    (show (ofBare ["Cart", "Total"] stocking).state.features[0]?.any (fun f =>
      (ofBare ["Cart", "Total"] stocking).state.features[1]?.any fun k =>
        f.Apart k ∧ f.common k = {"Cart"}) = true by decide +kernel)
  obtain ⟨k, hk, hpair⟩ := (Option.any_eq_true _ _).mp hpair
  obtain ⟨hapart, hcommon⟩ := of_decide_eq_true hpair
  refine ⟨_, f, k, hbuilt, hf, hk, hapart, hcommon, (mutual_of_build hbuilt hf hk hapart).2 ?_⟩
  intro c hc
  have hin : c ∈ stocking := hc.elim List.mem_of_getElem? List.mem_of_getElem?
  rcases List.mem_pair.mp hin with rfl | rfl
  all_goals exact Capability.namesOnce_naming (by decide) _

/-- A capability that names the cart twice: its feature shares the whole of it with the other one, and
that only half of it. -/
theorem not_mutual_restocking : ∃ (g : FeatureMap Rat) (f k : Feature Rat),
    ofBare ["Cart"] restocking = .done g ∧ g.features[0]? = some f ∧
    g.features[1]? = some k ∧ f.Apart k ∧
    (Relationship.between f k).toOption.join.map Relationship.weight = some (.complements, 1) ∧
    (Relationship.between k f).toOption.join.map Relationship.weight = some (.complements, 1 / 2) ∧
    ¬Relationship.Mutual f k := by
  have hbuilt := Progress.eq_done_of_isNone
    (show (ofBare ["Cart"] restocking).fault.isNone = true by decide +kernel)
  obtain ⟨f, hf, hpair⟩ := (Option.any_eq_true _ _).mp
    (show (ofBare ["Cart"] restocking).state.features[0]?.any (fun f =>
      (ofBare ["Cart"] restocking).state.features[1]?.any fun k => f.Apart k ∧
        (Relationship.between f k).toOption.join.map Relationship.weight = some (.complements, 1) ∧
        (Relationship.between k f).toOption.join.map Relationship.weight =
          some (.complements, 1 / 2)) = true by decide +kernel)
  obtain ⟨k, hk, hpair⟩ := (Option.any_eq_true _ _).mp hpair
  obtain ⟨hapart, hthere, hback⟩ := of_decide_eq_true hpair
  refine ⟨_, f, k, hbuilt, hf, hk, hapart, hthere, hback, ?_⟩
  intro ⟨r, s, hr, hs, hweight, _⟩
  rw [hr] at hthere
  rw [hs] at hback
  have hhalf : some (RelationshipKind.complements, (1 : Rat)) = some (.complements, 1 / 2) :=
    hthere.symm.trans (hweight.trans hback)
  revert hhalf
  decide +kernel

end FeatureMap

end BusinessAtlas
