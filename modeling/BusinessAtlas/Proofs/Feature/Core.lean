import BusinessAtlas.Proofs.Feature.Domains

/-!
# The core of a domain

What holds a domain together are the components that come up more than once among what its features
refer to. Two features that refer to a component bring it there, but so does a single feature whose
capability names the component twice.
-/

namespace BusinessAtlas

section

variable {ι κ : Type} [DecidableEq κ]

private theorem one_lt_count_flatMap_iff {f : ι → List κ} {items : List ι} {k : κ} :
    1 < (items.flatMap f).count k ↔
      (1 < items.countP fun x => k ∈ f x) ∨ ∃ x ∈ items, 1 < (f x).count k := by
  induction items with
  | nil => simp
  | cons x rest ih =>
    have hrest : 0 < (rest.flatMap f).count k ↔ 0 < rest.countP fun x => k ∈ f x := by
      simp [List.count_pos_iff, List.countP_pos_iff]
    have hsum : 1 < (f x).count k + (rest.flatMap f).count k ↔ 1 < (f x).count k ∨
        1 < (rest.flatMap f).count k ∨ 0 < (f x).count k ∧ 0 < (rest.flatMap f).count k := by
      omega
    rw [List.flatMap_cons, List.count_append, List.countP_cons, List.exists_mem_cons_iff, hsum, ih,
      hrest, List.count_pos_iff]
    by_cases hx : k ∈ f x
    · rw [if_pos (decide_eq_true hx), Nat.lt_add_left_iff_pos]
      grind
    · rw [if_neg (by simpa using hx), Nat.add_zero]
      grind

end

variable {α : Type}

namespace Domain

theorem nodup_coreComponents (features : List (Feature α)) : (coreComponents features).Nodup :=
  List.filter_sublist.nodup (nodup_distinctItems _)

theorem mem_coreComponents {features : List (Feature α)} {name : String} :
    name ∈ coreComponents features ↔ 1 < features.countP (fun f => name ∈ f.references) ∨
      ∃ f ∈ features, 1 < f.references.count name := by
  have hmem (hmany : 1 < (features.flatMap Feature.references).count name) :
      name ∈ features.flatMap Feature.references := List.count_pos_iff.mp (Nat.lt_of_succ_lt hmany)
  rw [coreComponents, List.mem_filter, mem_distinctItems, decide_eq_true_eq,
    and_iff_right_of_imp hmem, one_lt_count_flatMap_iff]

end Domain

namespace FeatureMap

/-- How many features of the domain refer to a component. -/
def sharers (label : Labelling) (g : FeatureMap α) (d : Domain) (name : String) : Nat :=
  (g.within label d.name).countP fun f => name ∈ f.references

/-- The core of the domain lists, each once, what at least two of its features refer to. -/
def CoreShared (label : Labelling) (g : FeatureMap α) (d : Domain) : Prop :=
  d.core.Nodup ∧ ∀ name, name ∈ d.core ↔ 2 ≤ g.sharers label d name

/-- A capability whose feature is in the domain names a component of the map more than once. -/
def NamedAgain (capabilities : List Capability) (label : Labelling) (g : FeatureMap α) (d : Domain)
    (name : String) : Prop :=
  ∃ (i : Nat) (f : Feature α) (c : Capability) (m : Mapping), g.features[i]? = some f ∧
    f.domain label = d.name ∧ capabilities[i]? = some c ∧ m ∈ g.mappings ∧ m.name = name ∧
    1 < c.mentions name

variable [Scalar α] {g : FeatureMap α} {capabilities : List Capability}

/-- The core of a domain lists, each once, the components that at least two of its features refer to
and those that one of its capabilities names more than once. So it lists what features share and
nothing else exactly if each component that a capability repeats is one that features share. -/
theorem core_of_build {p : Project} {table : Classifier} {label : Labelling}
    {stories : List (Story α)} (h : buildBy p table label stories capabilities = .done g)
    {d : Domain} (hd : d ∈ g.domains) :
    d.core.Nodup ∧
    (∀ name, name ∈ d.core ↔
      2 ≤ g.sharers label d name ∨ NamedAgain capabilities label g d name) ∧
    (g.CoreShared label d ↔
      ∀ name, NamedAgain capabilities label g d name → 2 ≤ g.sharers label d name) := by
  have howns := ownsOnce_of_build h
  have hrefers := referring_of_build h
  have hcore := ((gathered_of_build h).gathers d hd).core_eq
  have hnodup : d.core.Nodup := by
    rw [hcore]
    exact Domain.nodup_coreComponents _
  have hagain (name : String) : (∃ f ∈ g.within label d.name, 1 < f.references.count name) ↔
      NamedAgain capabilities label g d name := by
    constructor
    · intro ⟨f, hf, hmany⟩
      obtain ⟨hf, hdomain⟩ := List.mem_filter.mp hf
      obtain ⟨i, hi⟩ := List.mem_iff_getElem?.mp hf
      obtain ⟨c, m, hc, hm, hname, hmany⟩ := (one_lt_count_references howns hrefers hi name).mp hmany
      exact ⟨i, f, c, m, hi, of_decide_eq_true hdomain, hc, hm, hname, hmany⟩
    · intro ⟨i, f, c, m, hi, hdomain, hc, hm, hname, hmany⟩
      have hin : f ∈ g.within label d.name :=
        List.mem_filter.mpr ⟨List.mem_of_getElem? hi, decide_eq_true hdomain⟩
      exact ⟨f, hin, (one_lt_count_references howns hrefers hi name).mpr ⟨c, m, hc, hm, hname, hmany⟩⟩
  have hmem (name : String) : name ∈ d.core ↔
      2 ≤ g.sharers label d name ∨ NamedAgain capabilities label g d name := by
    rw [hcore, Domain.mem_coreComponents, hagain]
    rfl
  refine ⟨hnodup, hmem, ?_, ?_⟩
  · intro hshared name hname
    exact (hshared.2 name).mp ((hmem name).mpr (.inr hname))
  · intro hshared
    refine ⟨hnodup, ?_⟩
    intro name
    rw [hmem, or_iff_left_of_imp (hshared name)]

/-- Two features of one domain that refer to the cart. -/
private def sharing : List Capability :=
  [.naming "tasks" "Task board" ["Cart"], .naming "todos" "Todo archive" ["Cart", "Total"]]

/-- The only feature of its domain, whose capability names the cart twice. -/
private def repeating : List Capability :=
  [.naming "sales" "Sales" ["Cart"], .naming "account" "User account" ["Cart", "Cart"]]

private theorem namesOnce_sharing {c : Capability} (h : c ∈ sharing) (table : List Mapping) :
    c.NamesOnce table := by
  rcases List.mem_pair.mp h with rfl | rfl
  all_goals exact Capability.namesOnce_naming (by decide) table

theorem core_of_build_sharing : ∃ (g : FeatureMap Rat) (d : Domain),
    ofBare ["Cart", "Total"] sharing = .done g ∧ d ∈ g.domains ∧ d.name = "Task Management" ∧
    d.core = ["Cart"] ∧ g.CoreShared Classifier.featureDomain d := by
  have hbuilt := Progress.eq_done_of_isNone
    (show (ofBare ["Cart", "Total"] sharing).fault.isNone = true by decide +kernel)
  obtain ⟨d, hd, hdomain⟩ := List.any_eq_true.mp
    (show (ofBare ["Cart", "Total"] sharing).state.domains.any
      (fun d => d.name = "Task Management" ∧ d.core = ["Cart"]) = true by decide +kernel)
  obtain ⟨hname, hcore⟩ := of_decide_eq_true hdomain
  refine ⟨_, d, hbuilt, hd, hname, hcore, (core_of_build hbuilt hd).2.2.mpr ?_⟩
  intro name ⟨i, f, c, m, _, _, hc, hm, hname, hmany⟩
  have honce := namesOnce_sharing (List.mem_of_getElem? hc) _ m hm
  exact absurd hmany (Nat.not_lt.mpr (hname ▸ honce))

/-- A capability that names the cart twice: only its feature refers to the cart in its domain, and the
cart is the core of that. -/
theorem not_coreShared_repeating : ∃ (g : FeatureMap Rat) (d : Domain),
    ofBare ["Cart"] repeating = .done g ∧ d ∈ g.domains ∧ d.name = "User Management" ∧
    d.core = ["Cart"] ∧ g.sharers Classifier.featureDomain d "Cart" = 1 ∧
    ¬g.CoreShared Classifier.featureDomain d := by
  have hbuilt := Progress.eq_done_of_isNone
    (show (ofBare ["Cart"] repeating).fault.isNone = true by decide +kernel)
  obtain ⟨d, hd, hdomain⟩ := List.any_eq_true.mp
    (show (ofBare ["Cart"] repeating).state.domains.any
      (fun d => d.name = "User Management" ∧ d.core = ["Cart"]) = true by decide +kernel)
  obtain ⟨hname, hcore⟩ := of_decide_eq_true hdomain
  have hone : sharers Classifier.featureDomain (ofBare ["Cart"] repeating).state d "Cart" = 1 := by
    rw [sharers, hname]
    decide +kernel
  refine ⟨_, d, hbuilt, hd, hname, hcore, hone, ?_⟩
  intro hshared
  have htwo := (hshared.2 "Cart").mp (hcore ▸ List.mem_singleton_self "Cart")
  rw [hone] at htwo
  exact absurd htwo (by decide)

end FeatureMap

end BusinessAtlas
