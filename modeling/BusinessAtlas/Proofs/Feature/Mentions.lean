import BusinessAtlas.Proofs.Feature.Owner

/-!
# What features refer to

The feature of a capability refers to the components that the capability names, each as often as it is
named. The first mention of a component by any capability makes it owned, and every later mention puts
it among what is shared. So a feature shares what features before it own, and also what it owns itself
if its capability names that again.
-/

namespace BusinessAtlas

/-- How often a capability names a component. -/
def Capability.mentions (name : String) (c : Capability) : Nat :=
  c.components.countP (Json.text name).isOne

/-- No component of the table is named twice by the capability. -/
def Capability.NamesOnce (table : List Mapping) (c : Capability) : Prop :=
  ∀ m ∈ table, c.mentions m.name ≤ 1

theorem Capability.mentions_pos {name : String} {c : Capability} :
    0 < c.mentions name ↔ c.namesComponent name = true := by
  rw [mentions, List.countP_pos_iff, namesComponent, Json.isAmong, List.any_eq_true]

/-- A project of which nothing is known but the names of its components. -/
def Project.bare (names : List String) : Project :=
  ⟨names.map fun name => ⟨.text name, .text "", .text "function", [], [], [], []⟩, [], []⟩

/-- A capability of which nothing is known but its id, its name and the components that it names. -/
def Capability.naming (id name : String) (names : List String) : Capability :=
  ⟨.text id, .text name, .text "", [], names.map .text, [], [], .text "core", .record []⟩

theorem Capability.mentions_naming (id name : String) (names : List String) (n : String) :
    (naming id name names).mentions n = names.count n := by
  rw [mentions, naming, List.countP_map, List.count]
  apply List.countP_congr
  intro s _
  rw [Function.comp_apply, Json.isOne_text, Json.text.injEq, beq_iff_eq]

theorem Capability.namesOnce_naming {id name : String} {names : List String} (h : names.Nodup)
    (table : List Mapping) : (naming id name names).NamesOnce table := by
  intro m _
  rw [mentions_naming]
  exact List.nodup_iff_count_le_one.mp h m.name

theorem count_namedComponents {refs : List Json} {names : List String}
    (h : namedComponents refs = .ok names) (name : String) :
    names.count name = refs.countP (Json.text name).isOne := by
  obtain ⟨idents, hi, hnames⟩ := bind_eq_ok.mp h
  cases hnames
  clear h
  induction refs generalizing idents with
  | nil =>
    cases hi
    rfl
  | cons v rest ih =>
    obtain ⟨i, others, hv, hrest, rfl⟩ := mapM_cons_eq_ok.mp hi
    have hcount := ih others hrest
    cases v with
    | text s =>
      cases hv
      simp [List.countP_cons, List.count_cons, Json.isOne_text, hcount]
    | list items => cases hv
    | record fields => cases hv
    | _ =>
      cases hv
      simp [Json.isOne_text, hcount]

namespace Share

theorem perm_ofNames (table : List Mapping) (taken names : List String) :
    ((ofNames table taken names).owned.map (·.name) ++ (ofNames table taken names).referred).Perm
      (names.filter fun n => n ∈ table.map (·.name)) := by
  induction names generalizing taken with
  | nil => exact .refl _
  | cons name rest ih =>
    cases hm : findMapping name table with
    | none =>
      have hmissing : name ∉ table.map (·.name) := findMapping_eq_none_iff.mp hm
      rw [List.filter_cons, if_neg (by simpa using hmissing)]
      simpa only [ofNames, hm] using ih taken
    | some m =>
      have hname := name_of_findMapping hm
      have hmapped : name ∈ table.map (·.name) := hname ▸ List.mem_map_of_mem (mem_of_findMapping hm)
      rw [List.filter_cons, if_pos (decide_eq_true hmapped)]
      by_cases ht : taken.contains name = true
      · simp only [ofNames, hm, if_pos ht, refer]
        exact List.perm_middle.trans ((ih taken).cons name)
      · simp only [ofNames, hm, if_neg ht, own, List.map_cons, List.cons_append, hname]
        exact (ih _).cons name

end Share

variable {α : Type}

/-- The feature refers to the mapped components that the capability names, as often as it names
them. -/
def Feature.Refers (table : List Mapping) (c : Capability) (f : Feature α) : Prop :=
  ∀ name, f.references.count name = if name ∈ table.map (·.name) then c.mentions name else 0

namespace FeatureMap

/-- What the features refer to, position by position: the feature of a capability to what the
capability names, the one after those to nothing but what it owns. -/
structure Referring (capabilities : List Capability) (g : FeatureMap α) : Prop where
  refers : ∀ {i : Nat} {c : Capability} {f : Feature α}, capabilities[i]? = some c →
    g.features[i]? = some f → f.Refers g.mappings c
  alone : ∀ {i : Nat} {f : Feature α}, capabilities[i]? = none → g.features[i]? = some f →
    f.shared = []

variable [Scalar α] {g g' : FeatureMap α} {capabilities : List Capability}

private theorem refers_of_capability {table : List Mapping} {stories : List (Story α)}
    {taken taken' : List String} {c : Capability} {f : Feature α}
    (h : Feature.ofCapability table stories taken c = .ok (f, taken')) : f.Refers table c := by
  obtain ⟨-, names, hnames, howned, hshared, -⟩ := ofCapability_eq_ok h
  intro name
  have hperm : f.references.Perm (names.filter fun n => n ∈ table.map (·.name)) := by
    rw [Feature.references, Feature.componentNames, howned, hshared]
    exact Share.perm_ofNames table taken names
  rw [hperm.count_eq, Capability.mentions, ← count_namedComponents hnames]
  split
  · next hmapped => exact List.count_filter (decide_eq_true hmapped)
  · next hmissing =>
    apply List.count_eq_zero_of_not_mem
    intro hmem
    exact hmissing (of_decide_eq_true (List.mem_filter.mp hmem).2)

private theorem refers_takeCapabilities {stories : List (Story α)} {taken : List String}
    (hf : g.features = []) (h : takeCapabilities stories capabilities g = .done (g', taken)) :
    List.Forall₂ (Feature.Refers g'.mappings) capabilities g'.features := by
  have hkept : List.Forall₂ (Feature.Refers g.mappings) capabilities g'.features ∧
      g'.mappings = g.mappings := by
    refine Progress.each_eq_done (P := fun before s =>
      List.Forall₂ (Feature.Refers g.mappings) before s.1.features ∧ s.1.mappings = g.mappings) h
      ⟨by rw [hf]; exact .nil, rfl⟩ ?_
    rintro before c ⟨k, taken⟩ s' ⟨hk, hm⟩ hs
    obtain ⟨⟨f, taken'⟩, hc, hs⟩ := bind_eq_ok.mp (Progress.step_eq_done.mp hs)
    cases hs
    exact ⟨List.rel_append hk (.cons (hm ▸ refers_of_capability hc) .nil), hm⟩
  rw [hkept.2]
  exact hkept.1

omit [Scalar α] in
private theorem referring_of_forall₂
    (h : List.Forall₂ (Feature.Refers g.mappings) capabilities g.features) :
    Referring capabilities g := by
  constructor
  · intro i c f hc hf
    obtain ⟨hi, rfl⟩ := List.getElem?_eq_some_iff.mp hc
    obtain ⟨hj, rfl⟩ := List.getElem?_eq_some_iff.mp hf
    exact h.get hi hj
  · intro i f hc hf
    rw [List.getElem?_eq_none_iff, h.length_eq] at hc
    rw [List.getElem?_eq_none hc] at hf
    cases hf

omit [Scalar α] in
private theorem Referring.addFeature (h : Referring capabilities g) {f : Feature α}
    (hlength : capabilities.length = g.features.length) (hf : f.shared = []) :
    Referring capabilities (g.addFeature f) := by
  have hlast {i : Nat} {k : Feature α} (hk : (g.addFeature f).features[i]? = some k) :
      g.features[i]? = some k ∨ i = capabilities.length ∧ k = f := by
    rw [FeatureMap.addFeature, List.getElem?_append] at hk
    split at hk
    · exact .inl hk
    · next hi =>
      obtain ⟨hi', rfl⟩ := List.getElem?_eq_some_iff.mp hk
      rw [List.length_singleton] at hi'
      exact .inr ⟨by omega, List.getElem_singleton _⟩
  constructor
  · intro i c k hc hk
    rcases hlast hk with hk | ⟨rfl, -⟩
    · exact h.refers hc hk
    · rw [List.getElem?_eq_none (Nat.le_refl _)] at hc
      cases hc
  · intro i k hc hk
    rcases hlast hk with hk | ⟨-, rfl⟩
    · exact h.alone hc hk
    · exact hf

private theorem referring_addFeatures {stories : List (Story α)} (hf : g.features = [])
    (h : addFeatures stories capabilities g = .done g') : Referring capabilities g' := by
  obtain ⟨⟨last, taken'⟩, hw, rfl⟩ := Progress.within_eq_done.mp h
  obtain ⟨⟨k, taken⟩, hk, h⟩ := Progress.andThen_eq_done.mp hw
  have htaken := refers_takeCapabilities hf hk
  cases hi : (Feature.infrastructure k.mappings taken : Option (Feature α)) with
  | none =>
    simp only [hi] at h
    cases h
    exact referring_of_forall₂ htaken
  | some f =>
    simp only [hi] at h
    cases h
    refine (referring_of_forall₂ htaken).addFeature htaken.length_eq ?_
    unfold Feature.infrastructure at hi
    split at hi <;> cases hi
    rfl

/-- In a map that was built, the features refer to what their capabilities name. -/
theorem referring_of_build {p : Project} {table : Classifier} {label : Labelling}
    {stories : List (Story α)} (h : buildBy p table label stories capabilities = .done g) :
    Referring capabilities g := by
  obtain ⟨mapped, featured, related, grouped, hmapped, hfeatured, hrelated, hgrouped, rfl⟩ :=
    passes_of_build h
  have hreferring := referring_addFeatures (mapComponents_eq_done hmapped).2 hfeatured
  have hmappings : grouped.mappings = featured.mappings :=
    (addDomains_eq_done hgrouped).1.trans (relate_eq_done hrelated).1
  have hfeatures : grouped.features = featured.features :=
    (addDomains_eq_done hgrouped).2.trans (relate_eq_done hrelated).2
  have hmeasured {i : Nat} {f : Feature α} (hf : grouped.measure.features[i]? = some f) :
      ∃ k, featured.features[i]? = some k ∧ f = k.measured := by
    rw [measure, List.getElem?_map, hfeatures, Option.map_eq_some_iff] at hf
    obtain ⟨k, hk, rfl⟩ := hf
    exact ⟨k, hk, rfl⟩
  constructor
  · intro i c f hc hf
    obtain ⟨k, hk, rfl⟩ := hmeasured hf
    have hrefers := hreferring.refers hc hk
    rw [← hmappings] at hrefers
    exact hrefers
  · intro i f hc hf
    obtain ⟨k, hk, rfl⟩ := hmeasured hf
    have halone := hreferring.alone hc hk
    exact halone

section

variable {i : Nat} {f : Feature α} {m : Mapping}

omit [Scalar α]

theorem OwnsOnce.mem_componentNames (h : OwnsOnce capabilities g) (hf : g.features[i]? = some f)
    (hm : m ∈ g.mappings) : m.name ∈ f.componentNames ↔ g.OwnsAt i m := by
  constructor
  · intro hname
    obtain ⟨k, hk, hkm⟩ := List.mem_map.mp hname
    have hmapped : k ∈ g.mappings := h.perm_components.mem_iff.mp
      (List.mem_flatMap.mpr ⟨f, List.mem_of_getElem? hf, hk⟩)
    have hnames : (g.mappings.map (·.name)).Nodup := h.perm.nodup_iff.mp h.nodup
    rw [List.inj_on_of_nodup_map hnames hm hmapped hkm.symm]
    exact ⟨f, hf, hk⟩
  · rintro ⟨k, hk, hkm⟩
    rw [hf, Option.some_inj] at hk
    rw [hk]
    exact List.mem_map_of_mem hkm

theorem OwnsOnce.nodup_componentNames (h : OwnsOnce capabilities g) (hf : g.features[i]? = some f) :
    f.componentNames.Nodup :=
  (List.nodup_flatMap.mp h.nodup).1 f (List.mem_of_getElem? hf)

theorem OwnsOnce.le_of_names (h : OwnsOnce capabilities g) {c : Capability} {j : Nat}
    (hc : capabilities[i]? = some c) (hm : m ∈ g.mappings) (hnames : c.namesComponent m.name = true)
    (hj : g.OwnsAt j m) : j ≤ i := by
  rw [h.owner m hm] at hj
  obtain ⟨hi, rfl⟩ := List.getElem?_eq_some_iff.mp hc
  by_contra hlt
  rw [hj, Nat.not_le] at hlt
  have hnot := List.not_of_lt_findIdx hlt
  simp [hnames] at hnot

theorem count_shared (howns : OwnsOnce capabilities g) (hrefers : Referring capabilities g)
    {c : Capability} (hc : capabilities[i]? = some c) (hf : g.features[i]? = some f)
    (hm : m ∈ g.mappings) :
    (g.OwnsAt i m → f.shared.count m.name + 1 = c.mentions m.name) ∧
      (¬g.OwnsAt i m → f.shared.count m.name = c.mentions m.name) := by
  have hcount := hrefers.refers hc hf m.name
  rw [if_pos (List.mem_map_of_mem hm), Feature.references, List.count_append] at hcount
  rw [← howns.mem_componentNames hf hm]
  constructor
  · intro hown
    rw [List.count_eq_one_of_mem (howns.nodup_componentNames hf) hown] at hcount
    omega
  · intro hother
    rw [List.count_eq_zero_of_not_mem hother] at hcount
    omega

/-- A feature refers to a component more than once exactly if its capability names that more than
once. -/
theorem one_lt_count_references (howns : OwnsOnce capabilities g)
    (hrefers : Referring capabilities g) (hf : g.features[i]? = some f) (name : String) :
    1 < f.references.count name ↔
      ∃ c m, capabilities[i]? = some c ∧ m ∈ g.mappings ∧ m.name = name ∧ 1 < c.mentions name := by
  cases hc : capabilities[i]? with
  | none =>
    have hle : f.references.count name ≤ 1 := by
      rw [Feature.references, hrefers.alone hc hf, List.append_nil]
      exact List.nodup_iff_count_le_one.mp (howns.nodup_componentNames hf) name
    simp [hle]
  | some c =>
    rw [hrefers.refers hc hf name]
    constructor
    · intro hmany
      split at hmany
      · next hmapped =>
        obtain ⟨m, hm, hname⟩ := List.mem_map.mp hmapped
        exact ⟨c, m, rfl, hm, hname, hmany⟩
      · cases hmany
    · intro ⟨c', m, hc', hm, hname, hmany⟩
      cases hc'
      rw [if_pos (hname ▸ List.mem_map_of_mem hm)]
      exact hmany

theorem nodup_references (howns : OwnsOnce capabilities g) (hrefers : Referring capabilities g)
    (hf : g.features[i]? = some f) (honce : ∀ c, capabilities[i]? = some c → c.NamesOnce g.mappings) :
    f.references.Nodup := by
  rw [List.nodup_iff_count_le_one]
  intro name
  by_contra hmany
  obtain ⟨c, m, hc, hm, rfl, hmany⟩ :=
    (one_lt_count_references howns hrefers hf name).mp (Nat.lt_of_not_le hmany)
  exact Nat.not_lt.mpr (honce c hc m hm) hmany

theorem exists_of_mem_shared (hrefers : Referring capabilities g) {name : String}
    (hf : g.features[i]? = some f) (hname : name ∈ f.shared) :
    ∃ c m, capabilities[i]? = some c ∧ m ∈ g.mappings ∧ m.name = name := by
  cases hc : capabilities[i]? with
  | none =>
    rw [hrefers.alone hc hf] at hname
    cases hname
  | some c =>
    have hcount := hrefers.refers hc hf name
    have hpos : 0 < f.references.count name :=
      List.count_pos_iff.mpr (List.mem_append_right _ hname)
    by_cases hmapped : name ∈ g.mappings.map (·.name)
    · obtain ⟨m, hm, hmn⟩ := List.mem_map.mp hmapped
      exact ⟨c, m, rfl, hm, hmn⟩
    · rw [if_neg hmapped] at hcount
      omega

/-- What a feature shares is what its capability names and a feature before it owns, and what it owns
itself and its capability names more than once. -/
theorem mem_shared_iff (howns : OwnsOnce capabilities g) (hrefers : Referring capabilities g)
    (hf : g.features[i]? = some f) (name : String) : name ∈ f.shared ↔
      ∃ c m j, capabilities[i]? = some c ∧ m ∈ g.mappings ∧ m.name = name ∧ g.OwnsAt j m ∧
        (j < i ∧ c.namesComponent name = true ∨ j = i ∧ 1 < c.mentions name) := by
  constructor
  · intro hname
    obtain ⟨c, m, hc, hm, rfl⟩ := exists_of_mem_shared hrefers hf hname
    obtain ⟨hown, hother⟩ := count_shared howns hrefers hc hf hm
    have hpos := List.count_pos_iff.mpr hname
    have hat : g.OwnsAt _ m := (howns.owner m hm _).mpr rfl
    refine ⟨c, m, _, hc, hm, rfl, hat, ?_⟩
    by_cases hself : g.OwnsAt i m
    · have hmentions := hown hself
      exact .inr ⟨((howns.owner m hm i).mp hself).symm, by omega⟩
    · have hnames : c.namesComponent m.name = true :=
        Capability.mentions_pos.mp (hother hself ▸ hpos)
      have hle := howns.le_of_names hc hm hnames hat
      exact .inl ⟨Nat.lt_of_le_of_ne hle fun he => hself (he ▸ hat), hnames⟩
  · rintro ⟨c, m, j, hc, hm, rfl, hat, hcase⟩
    obtain ⟨hown, hother⟩ := count_shared howns hrefers hc hf hm
    apply List.count_pos_iff.mp
    rcases hcase with ⟨hlt, hnames⟩ | ⟨rfl, hmany⟩
    · have hself : ¬g.OwnsAt i m := by
        intro hi
        rw [howns.owner m hm] at hat hi
        omega
      rw [hother hself]
      exact Capability.mentions_pos.mpr hnames
    · have hmentions := hown hat
      omega

end

/-- All that the feature at a position shares is owned by features before it and not by itself. -/
def SharesApart (g : FeatureMap α) (i : Nat) : Prop :=
  ∀ f, g.features[i]? = some f → ∀ name ∈ f.shared,
    (∃ m ∈ g.mappings, m.name = name ∧ ∃ j < i, g.OwnsAt j m) ∧ name ∉ f.componentNames

/-- A feature shares exactly the components that its capability names and that either a feature before
it owns, or it owns itself and its capability names more than once. So it shares what others own and
nothing else exactly if its capability names once each component that it owns. -/
theorem shared_of_build {p : Project} {table : Classifier} {label : Labelling}
    {stories : List (Story α)} (h : buildBy p table label stories capabilities = .done g) (i : Nat) :
    (∀ f name, g.features[i]? = some f → (name ∈ f.shared ↔
      ∃ c m j, capabilities[i]? = some c ∧ m ∈ g.mappings ∧ m.name = name ∧ g.OwnsAt j m ∧
        (j < i ∧ c.namesComponent name = true ∨ j = i ∧ 1 < c.mentions name))) ∧
    (g.SharesApart i ↔
      ∀ c m, capabilities[i]? = some c → g.OwnsAt i m → c.mentions m.name = 1) := by
  have howns := ownsOnce_of_build h
  have hrefers := referring_of_build h
  refine ⟨fun f name hf => mem_shared_iff howns hrefers hf name, ?_, ?_⟩
  · intro hapart c m hc hat
    obtain ⟨f, hf, hmf⟩ := hat
    have hm : m ∈ g.mappings := howns.perm_components.mem_iff.mp
      (List.mem_flatMap.mpr ⟨f, List.mem_of_getElem? hf, hmf⟩)
    have hnone : f.shared.count m.name = 0 := by
      apply List.count_eq_zero_of_not_mem
      intro hname
      exact (hapart f hf m.name hname).2 (List.mem_map_of_mem hmf)
    have hmentions := (count_shared howns hrefers hc hf hm).1 ⟨f, hf, hmf⟩
    omega
  · intro honce f hf name hname
    obtain ⟨c, m, j, hc, hm, rfl, hat, hcase⟩ := (mem_shared_iff howns hrefers hf name).mp hname
    rcases hcase with ⟨hlt, -⟩ | ⟨rfl, hmany⟩
    · refine ⟨⟨m, hm, rfl, j, hlt, hat⟩, ?_⟩
      intro hself
      rw [howns.mem_componentNames hf hm, howns.owner m hm] at hself
      rw [howns.owner m hm] at hat
      omega
    · have hmentions := honce c m hc hat
      omega

/-- The map of components of which only the names are known, computed exactly. -/
abbrev ofBare (names : List String) (capabilities : List Capability) : Progress (FeatureMap Rat) :=
  build (.bare names) .bundled [] capabilities

/-- The second capability names the cart of the first one again. -/
private def twoNaming : List Capability :=
  [.naming "sales" "Sales" ["Cart"], .naming "stock" "Stock" ["Cart", "Total"]]

private def oneNamingTwice : List Capability := [.naming "sales" "Sales" ["Cart", "Cart"]]

theorem shared_of_build_counter : ∃ (g : FeatureMap Rat) (f : Feature Rat),
    ofBare ["Cart", "Total"] twoNaming = .done g ∧ g.features[1]? = some f ∧
    f.componentNames = ["Total"] ∧ f.shared = ["Cart"] ∧
    ∃ c m j, twoNaming[1]? = some c ∧ m ∈ g.mappings ∧ m.name = "Cart" ∧ g.OwnsAt j m ∧
      (j < 1 ∧ c.namesComponent "Cart" = true ∨ j = 1 ∧ 1 < c.mentions "Cart") := by
  have hbuilt := Progress.eq_done_of_isNone
    (show (ofBare ["Cart", "Total"] twoNaming).fault.isNone = true by decide +kernel)
  obtain ⟨f, hf, hlists⟩ := (Option.any_eq_true _ _).mp
    (show (ofBare ["Cart", "Total"] twoNaming).state.features[1]?.any
      (fun f => f.componentNames = ["Total"] ∧ f.shared = ["Cart"]) = true by decide +kernel)
  obtain ⟨howned, hshared⟩ := of_decide_eq_true hlists
  have hcart : "Cart" ∈ f.shared := hshared ▸ List.mem_singleton_self "Cart"
  exact ⟨_, f, hbuilt, hf, howned, hshared, ((shared_of_build hbuilt 1).1 f "Cart" hf).mp hcart⟩

/-- A capability that names the cart twice: its feature owns the cart and shares it with itself. -/
theorem not_sharesApart_twice : ∃ (g : FeatureMap Rat) (f : Feature Rat),
    ofBare ["Cart"] oneNamingTwice = .done g ∧ g.features[0]? = some f ∧
    f.componentNames = ["Cart"] ∧ f.shared = ["Cart"] ∧ ¬g.SharesApart 0 := by
  have hbuilt := Progress.eq_done_of_isNone
    (show (ofBare ["Cart"] oneNamingTwice).fault.isNone = true by decide +kernel)
  obtain ⟨f, hf, hlists⟩ := (Option.any_eq_true _ _).mp
    (show (ofBare ["Cart"] oneNamingTwice).state.features[0]?.any
      (fun f => f.componentNames = ["Cart"] ∧ f.shared = ["Cart"]) = true by decide +kernel)
  obtain ⟨howned, hshared⟩ := of_decide_eq_true hlists
  refine ⟨_, f, hbuilt, hf, howned, hshared, ?_⟩
  intro hapart
  have hcart : "Cart" ∈ f.shared := hshared ▸ List.mem_singleton_self "Cart"
  apply (hapart f hf "Cart" hcart).2
  rw [howned]
  exact List.mem_singleton_self "Cart"

end FeatureMap

end BusinessAtlas
