import BusinessAtlas.Journey.Trace

/-!
# What a walk comes to

The steps of a walk cover what can be reached from its entry point through components with mappings:
every such component that offers an interaction has one block of steps, and no other component has a
step. A component that is passed over because it was visited loses nothing, for all that lies below
it was visited with it or stands on the stack.
-/

namespace BusinessAtlas

/-- The project as a walk sees it that starts at a component: under its name, the entry point itself
is found. -/
def Project.enteredAt (p : Project) (entry : Component) : Project :=
  { p with components := entry :: p.components }

namespace Project

variable {p : Project} {entry d : Component} {name : Json}

theorem component?_eq_some : p.component? name = .ok (some d) ↔
    ∃ k, name.key? = some k ∧ p.find? k = some d := by
  unfold component?
  constructor
  · intro h
    obtain ⟨i, hi, h⟩ := bind_eq_ok.mp h
    exact ⟨i.key, Json.key?_of_asIdent hi, Except.ok.inj h⟩
  · rintro ⟨k, hk, h⟩
    obtain ⟨i, hi, rfl⟩ := Json.key?_eq_some.mp hk
    exact bind_eq_ok.mpr ⟨i, hi, congrArg Except.ok h⟩

theorem exists_component? (p : Project) (h : name.key?.isSome = true) :
    ∃ o, p.component? name = .ok o := by
  obtain ⟨k, hk⟩ := Option.isSome_iff_exists.mp h
  obtain ⟨i, hi, -⟩ := Json.key?_eq_some.mp hk
  exact ⟨_, bind_eq_ok.mpr ⟨i, hi, rfl⟩⟩

theorem key_of_component? {o : Option Component} (h : p.component? name = .ok o) :
    name.key?.isSome = true := by
  obtain ⟨i, hi, -⟩ := bind_eq_ok.mp h
  rw [Json.key?_of_asIdent hi]
  rfl

theorem key_of_find? {k : Key} (h : p.find? k = some d) : d.name.key? = some k := by
  unfold find? at h
  simpa using List.find?_some h

theorem find?_enteredAt_of_ne {k : Key} (h : entry.name.key? ≠ some k) :
    (p.enteredAt entry).find? k = p.find? k :=
  List.find?_cons_of_neg (by simpa using h)

theorem find?_enteredAt_self {k : Key} (h : entry.name.key? = some k) :
    (p.enteredAt entry).find? k = some entry :=
  List.find?_cons_of_pos (by simpa using h)

theorem component?_enteredAt (h : p.component? entry.name = .ok (some entry)) (name : Json) :
    (p.enteredAt entry).component? name = p.component? name := by
  obtain ⟨k, hk, hf⟩ := component?_eq_some.mp h
  have hfind (l : Key) : (p.enteredAt entry).find? l = p.find? l := by
    by_cases hl : entry.name.key? = some l
    · have hkl : k = l := Option.some.inj (hk.symm.trans hl)
      rw [find?_enteredAt_self hl, ← hkl, hf]
    · exact find?_enteredAt_of_ne hl
  unfold component?
  cases name.asIdent with
  | error f => rfl
  | ok i => exact congrArg Except.ok (hfind i.key)

theorem component?_enteredAt_iff {names : List Key} (hentry : entry.keyAmong names = true)
    (hd : d.keyAmong names = false) :
    (p.enteredAt entry).component? name = .ok (some d) ↔ p.component? name = .ok (some d) := by
  have hfind {k : Key} (hk : d.name.key? = some k) : (p.enteredAt entry).find? k = p.find? k := by
    refine find?_enteredAt_of_ne fun he => ?_
    rw [Component.keyAmong_iff he, ← Component.keyAmong_iff hk, hd] at hentry
    cases hentry
  rw [component?_eq_some, component?_eq_some]
  constructor
  · rintro ⟨k, hk, hf⟩
    exact ⟨k, hk, (hfind (key_of_find? hf)).symm.trans hf⟩
  · rintro ⟨k, hk, hf⟩
    exact ⟨k, hk, (hfind (key_of_find? hf)).trans hf⟩

theorem exists_placesIn (entry : Component) {c : Component}
    (h : ∀ name ∈ c.children, name.key?.isSome = true) : ∃ ds, p.placesIn entry c = .ok ds := by
  obtain ⟨found, hfound⟩ := exists_mapM fun name hn => p.exists_component? (h name hn)
  have hchildren : p.childrenOf c = .ok (found.filterMap id) := by
    rw [childrenOf, hfound]
    rfl
  cases hd : p.placesIn entry c with
  | ok ds => exact ⟨ds, rfl⟩
  | error f =>
    rw [← p.map_placesIn entry, hd] at hchildren
    cases hchildren

theorem key_of_placesIn {c : Component} {ds : List (Place p entry)}
    (h : p.placesIn entry c = .ok ds) (hn : name ∈ c.children) : name.key?.isSome = true := by
  obtain ⟨found, hf, -⟩ := bind_eq_ok.mp (childrenOf_of_placesIn h)
  obtain ⟨o, ho⟩ := exists_of_mapM hf hn
  exact key_of_component? ho

end Project

namespace Terrain

variable {α : Type} [Scalar α] {t : Terrain} {entry : Component}

theorem mapping?_eq_some {name : Json} {m : Mapping} : t.mapping? name = .ok (some m) ↔
    ∃ s, name = .text s ∧ findMapping s t.mappings = some m := by
  constructor
  · intro h
    obtain ⟨i, hi, h⟩ := bind_eq_ok.mp h
    cases i with
    | text s =>
      have hname := Json.key?_eq_some_text.mp (Json.key?_of_asIdent hi)
      exact ⟨s, hname, Except.ok.inj h⟩
    | null => cases h
    | bool b => cases h
    | number n => cases h
  · rintro ⟨s, rfl, h⟩
    exact congrArg Except.ok h

theorem exists_mapping? (t : Terrain) {name : Json} (h : name.key?.isSome = true) :
    ∃ o, t.mapping? name = .ok o := by
  obtain ⟨k, hk⟩ := Option.isSome_iff_exists.mp h
  obtain ⟨i, hi, -⟩ := Json.key?_eq_some.mp hk
  cases i <;> exact ⟨_, bind_eq_ok.mpr ⟨_, hi, rfl⟩⟩

/-- A component is reached from an entry point by a path of children whose components before the
last one all have mappings. -/
inductive Reaches (t : Terrain) (entry : Component) : Component → Prop where
  | entry : Reaches t entry entry
  | child {c d m name} : Reaches t entry c → t.mapping? c.name = .ok (some m) →
    name ∈ c.children → (t.project.enteredAt entry).component? name = .ok (some d) →
    Reaches t entry d

/-- Every name that is looked up on the way can identify something. -/
structure Walkable (t : Terrain) (entry : Component) : Prop where
  start : entry.name.key?.isSome = true
  children : ∀ c m, t.Reaches entry c → t.mapping? c.name = .ok (some m) →
    ∀ name ∈ c.children, name.key?.isSome = true

/-- The steps cover what is reached from the entry point. -/
structure Covers (t : Terrain) (entry : Component) (steps : List (Pattern × Step α)) : Prop where
  /-- There is a step exactly at the components that are reached and offer an interaction. -/
  reached : ∀ name, name ∈ steps.map (·.2.component) ↔ ∃ c m, t.Reaches entry c ∧
    c.name = .text name ∧ t.mapping? c.name = .ok (some m) ∧ m.patterns ≠ []
  /-- The steps at a component that is reached stand together, one for each interaction by its
  number, and there is no other step at it. -/
  block : ∀ c m, t.Reaches entry c → t.mapping? c.name = .ok (some m) → ∃ before after order,
    steps = before ++ (m.patterns.mapIdx fun i p =>
      (p, Step.ofPattern t.tables c.name.shown p i (order + i))) ++ after ∧
    ∀ s ∈ before ++ after, s.2.component ≠ c.name.shown

/-- What is reached is what its name stands for. -/
theorem Reaches.find? {c : Component} {k : Key} (h : t.Reaches entry c)
    (hk : c.name.key? = some k) : (t.project.enteredAt entry).find? k = some c := by
  cases h with
  | entry => exact Project.find?_enteredAt_self hk
  | child _ _ _ hd =>
    obtain ⟨l, _, hf⟩ := Project.component?_eq_some.mp hd
    have hkl : k = l := Option.some.inj (hk.symm.trans (Project.key_of_find? hf))
    exact hkl ▸ hf

theorem Reaches.eq_of_key {c d : Component} {k : Key} (hc : t.Reaches entry c)
    (hd : t.Reaches entry d) (hck : c.name.key? = some k) (hdk : d.name.key? = some k) : c = d :=
  Option.some.inj ((hc.find? hck).symm.trans (hd.find? hdk))

theorem Walkable.key {c : Component} (h : t.Walkable entry) (hc : t.Reaches entry c) :
    c.name.key?.isSome = true := by
  cases hc with
  | entry => exact h.start
  | child _ _ _ hd =>
    obtain ⟨k, _, hf⟩ := Project.component?_eq_some.mp hd
    rw [Project.key_of_find? hf]
    rfl

/-- How far a walk has come: it is at its start, or it has visited the entry point; everything below
what it made steps at was visited or stands on the stack. -/
structure Covering (w : Walk t.project entry) : Prop where
  stack : ∀ e ∈ w.stack, t.Reaches entry e.1.1
  made : ∀ v ∈ w.made, t.Reaches entry v.component ∧
    t.mapping? v.component.name = .ok (some v.mapping)
  nodup : (w.made.map (·.component.name.key?)).Nodup
  seen : ∀ v ∈ w.made, v.component.keyAmong w.seen = true
  met : ∀ c m, t.Reaches entry c → c.keyAmong w.seen = true →
    t.mapping? c.name = .ok (some m) → ∃ v ∈ w.made, v.component = c
  named : ∀ v ∈ w.made, ∀ name ∈ v.component.children, name.key?.isSome = true
  closed : ∀ v ∈ w.made, ∀ name ∈ v.component.children, ∀ d,
    (t.project.enteredAt entry).component? name = .ok (some d) →
      d.keyAmong w.seen = true ∨ ∃ e ∈ w.stack, e.1.1 = d
  entry : w = t.start entry ∨ entry.keyAmong w.seen = true

namespace Covering

variable {w w' : Walk t.project entry}

theorem start : Covering (t.start entry) where
  stack e he := by
    rw [List.mem_singleton.mp he]
    exact .entry
  made v hv := absurd hv List.not_mem_nil
  nodup := List.nodup_nil
  seen v hv := absurd hv List.not_mem_nil
  met c m _ hc := by simp [Terrain.start, Component.keyAmong] at hc
  named v hv := absurd hv List.not_mem_nil
  closed v hv := absurd hv List.not_mem_nil
  entry := .inl rfl

private theorem seen_of_pop {stack : List (Place t.project entry × Nat)}
    {c : Place t.project entry} {o : Nat} {k : Key} {seen seen' : List Key} {d : Component}
    (hk : c.1.name.key? = some k) (hmem : k ∈ seen') (hsub : seen ⊆ seen')
    (h : d.keyAmong seen = true ∨ ∃ e ∈ (c, o) :: stack, e.1.1 = d) :
    d.keyAmong seen' = true ∨ ∃ e ∈ stack, e.1.1 = d := by
  rcases h with h | ⟨e, he, rfl⟩
  · exact .inl (Component.keyAmong_mono hsub h)
  · rcases List.mem_cons.mp he with rfl | he
    · exact .inl ((Component.keyAmong_iff hk).mpr hmem)
    · exact .inr ⟨e, he, rfl⟩

private theorem entry_seen (h : Covering w) {c : Place t.project entry} {o : Nat}
    {stack : List (Place t.project entry × Nat)} {k : Key} {seen' : List Key}
    (hw : w.stack = (c, o) :: stack) (hk : c.1.name.key? = some k) (hmem : k ∈ seen')
    (hsub : w.seen ⊆ seen') : entry.keyAmong seen' = true := by
  rcases h.entry with rfl | h
  · have hc : (⟨entry, List.mem_cons_self⟩ : Place t.project entry) = c := by
      simp only [Terrain.start, List.cons.injEq, Prod.mk.injEq] at hw
      exact hw.1.1
    subst hc
    exact (Component.keyAmong_iff hk).mpr hmem
  · exact Component.keyAmong_mono hsub h

private theorem met_cons (h : Covering w) {c d : Component} {k : Key} {m : Mapping}
    (hc : t.Reaches entry c) (hk : c.name.key? = some k) (hd : t.Reaches entry d)
    (hs : d.keyAmong (k :: w.seen) = true) (hm : t.mapping? d.name = .ok (some m)) :
    d = c ∨ ∃ v ∈ w.made, v.component = d := by
  obtain ⟨l, hl, hdl⟩ := List.any_eq_true.mp hs
  rcases List.mem_cons.mp hl with rfl | hl
  · exact .inl (hd.eq_of_key hc (eq_of_beq hdl) hk)
  · exact .inr (h.met d m hd (List.any_eq_true.mpr ⟨l, hl, hdl⟩) hm)

private theorem pass (h : Covering w) {c : Place t.project entry} {o : Nat}
    {stack : List (Place t.project entry × Nat)} {k : Key} (hw : w.stack = (c, o) :: stack)
    (hk : c.1.name.key? = some k) (hs : k ∈ w.seen) : Covering { w with stack } where
  stack e he := h.stack e (hw ▸ List.mem_cons_of_mem _ he)
  made := h.made
  nodup := h.nodup
  seen := h.seen
  met := h.met
  named := h.named
  closed v hv name hn d hd := seen_of_pop hk hs (List.Subset.refl _)
    (hw ▸ h.closed v hv name hn d hd)
  entry := .inr (h.entry_seen hw hk hs (List.Subset.refl _))

private theorem skip (h : Covering w) {c : Place t.project entry} {o : Nat}
    {stack : List (Place t.project entry × Nat)} {k : Key} (hw : w.stack = (c, o) :: stack)
    (hk : c.1.name.key? = some k) (hm : t.mapping? c.1.name = .ok none) :
    Covering { w with seen := k :: w.seen, stack } where
  stack e he := h.stack e (hw ▸ List.mem_cons_of_mem _ he)
  made := h.made
  nodup := h.nodup
  seen v hv := Component.keyAmong_mono (List.subset_cons_self _ _) (h.seen v hv)
  met d m hd hs hdm := by
    have hc : t.Reaches entry c.1 := h.stack (c, o) (hw ▸ List.mem_cons_self)
    rcases h.met_cons hc hk hd hs hdm with rfl | hv
    · rw [hm] at hdm
      cases hdm
    · exact hv
  named := h.named
  closed v hv name hn d hd := seen_of_pop hk List.mem_cons_self (List.subset_cons_self _ _)
    (hw ▸ h.closed v hv name hn d hd)
  entry := .inr (h.entry_seen hw hk List.mem_cons_self (List.subset_cons_self _ _))

private theorem visit (h : Covering w) {c : Place t.project entry} {o : Nat}
    {stack : List (Place t.project entry × Nat)} {k : Key} {m : Mapping}
    {ds : List (Place t.project entry)} (hw : w.stack = (c, o) :: stack)
    (hk : c.1.name.key? = some k) (hs : k ∉ w.seen) (hm : t.mapping? c.1.name = .ok (some m))
    (hd : t.project.placesIn entry c.1 = .ok ds) :
    Covering ⟨k :: w.seen, (ds.filter fun d => !d.1.keyAmong (k :: w.seen)).map
        (fun d => (d, o + m.patterns.length)) ++ stack, w.made ++ [⟨c.1, m, o⟩]⟩ := by
  have hc : t.Reaches entry c.1 := h.stack (c, o) (hw ▸ List.mem_cons_self)
  have hsub : w.seen ⊆ k :: w.seen := List.subset_cons_self _ _
  have hentry : entry.keyAmong (k :: w.seen) = true := h.entry_seen hw hk List.mem_cons_self hsub
  have hchildren := Project.childrenOf_of_placesIn hd
  have hmade (P : Visit → Prop) (hP : ∀ v ∈ w.made, P v) (hv : P ⟨c.1, m, o⟩) :
      ∀ v ∈ w.made ++ [⟨c.1, m, o⟩], P v :=
    List.forall_mem_append.mpr ⟨hP, List.forall_mem_singleton.mpr hv⟩
  have hpushed : ∀ d ∈ ds, d.1.keyAmong (k :: w.seen) = false → t.Reaches entry d.1 := by
    intro d hmem hnot
    obtain ⟨name, hn, hfound⟩ := (Project.mem_childrenOf hchildren).mp (List.mem_map_of_mem hmem)
    exact .child hc hm hn ((Project.component?_enteredAt_iff hentry hnot).mpr hfound)
  have hbelow : ∀ name ∈ c.1.children, ∀ d,
      (t.project.enteredAt entry).component? name = .ok (some d) →
        d.keyAmong (k :: w.seen) = true ∨ ∃ e ∈ (ds.filter fun d => !d.1.keyAmong (k :: w.seen)).map
          (fun d => (d, o + m.patterns.length)) ++ stack, e.1.1 = d := by
    intro name hn d hfound
    cases hkey : d.keyAmong (k :: w.seen) with
    | true => exact .inl rfl
    | false =>
      have hmem := (Project.mem_childrenOf hchildren).mpr
        ⟨name, hn, (Project.component?_enteredAt_iff hentry hkey).mp hfound⟩
      obtain ⟨place, hplace, rfl⟩ := List.mem_map.mp hmem
      refine .inr ⟨(place, o + m.patterns.length), List.mem_append_left _ ?_, rfl⟩
      exact List.mem_map_of_mem (List.mem_filter.mpr ⟨hplace, by rw [hkey]; rfl⟩)
  refine ⟨?_, hmade _ h.made ⟨hc, hm⟩, ?_, ?_, ?_, ?_, ?_, .inr hentry⟩
  · intro e he
    rcases List.mem_append.mp he with he | he
    · obtain ⟨d, hmem, rfl⟩ := List.mem_map.mp he
      obtain ⟨hmem, hnot⟩ := List.mem_filter.mp hmem
      exact hpushed d hmem (by simpa using hnot)
    · exact h.stack e (hw ▸ List.mem_cons_of_mem _ he)
  · rw [List.map_append, List.nodup_append]
    refine ⟨h.nodup, by simp, ?_⟩
    rintro key hkey other hother rfl
    obtain ⟨v, hv, hvk⟩ := List.mem_map.mp hkey
    have hck : v.component.name.key? = some k := by
      rw [hvk, List.mem_singleton.mp hother]
      exact hk
    exact hs ((Component.keyAmong_iff hck).mp (h.seen v hv))
  · refine hmade _ (fun v hv => Component.keyAmong_mono hsub (h.seen v hv)) ?_
    exact (Component.keyAmong_iff hk).mpr List.mem_cons_self
  · intro d md hreach hkey hmd
    rcases h.met_cons hc hk hreach hkey hmd with rfl | ⟨v, hv, rfl⟩
    · exact ⟨_, List.mem_append_right _ (List.mem_singleton_self _), rfl⟩
    · exact ⟨v, List.mem_append_left _ hv, rfl⟩
  · exact hmade _ h.named fun name hn => Project.key_of_placesIn hd hn
  · refine hmade _ (fun v hv name hn d hfound => ?_) hbelow
    have hold := hw ▸ h.closed v hv name hn d hfound
    rcases seen_of_pop hk List.mem_cons_self hsub hold with hkey | ⟨e, he, hed⟩
    · exact .inl hkey
    · exact .inr ⟨e, List.mem_append_right _ he, hed⟩

/-- Every look keeps what is covered. -/
theorem advance (h : Covering w) (ha : t.advance w = .ok (some w')) : Covering w' := by
  obtain ⟨c, o, stack, k, hw, hk, hcases⟩ := advance_cases ha
  rcases hcases with ⟨hs, rfl⟩ | ⟨_, hm, rfl⟩ | ⟨hs, m, ds, hm, hd, rfl⟩
  · exact h.pass hw hk hs
  · exact h.skip hw hk hm
  · exact h.visit hw hk hs hm hd

/-- A walk that came to its end covers something with an empty stack. -/
theorem run {vs : List Visit} (h : Covering w) (hr : t.run w = .ok vs) :
    ∃ seen, Covering (⟨seen, [], vs⟩ : Walk t.project entry) := by
  induction w using Terrain.run.induct t with
  | case1 w f ha =>
    rw [run_eq, ha] at hr
    cases hr
  | case2 w ha =>
    rw [run_eq, ha] at hr
    cases hr
    obtain ⟨seen, stack, made⟩ := w
    cases (stack_of_advance_none ha : stack = [])
    exact ⟨seen, h⟩
  | case3 w w' ha ih =>
    rw [run_eq, ha] at hr
    exact ih (h.advance ha) hr

private theorem exists_advance (h : Covering w) (hw : t.Walkable entry) :
    ∃ o, t.advance w = .ok o := by
  unfold Terrain.advance
  split
  · exact ⟨none, rfl⟩
  · rename_i c o stack hstack
    have hc : t.Reaches entry c.1 := h.stack (c, o) (hstack ▸ List.mem_cons_self)
    obtain ⟨k, hk⟩ := Option.isSome_iff_exists.mp (hw.key hc)
    obtain ⟨m?, hm⟩ := t.exists_mapping? (hw.key hc)
    simp only [hk, hm, ok_bind]
    split
    · exact ⟨_, rfl⟩
    · cases m? with
      | none => exact ⟨_, rfl⟩
      | some m =>
        obtain ⟨ds, hd⟩ := Project.exists_placesIn entry (hw.children c.1 m hc hm)
        exact ⟨_, bind_eq_ok.mpr ⟨ds, hd, rfl⟩⟩

theorem exists_run (h : Covering w) (hw : t.Walkable entry) : ∃ vs, t.run w = .ok vs := by
  induction w using Terrain.run.induct t with
  | case1 w f ha =>
    obtain ⟨o, ho⟩ := h.exists_advance hw
    rw [ho] at ha
    cases ha
  | case2 w ha => exact ⟨w.made, by rw [run_eq, ha]⟩
  | case3 w w' ha ih =>
    obtain ⟨vs, hvs⟩ := ih (h.advance ha)
    exact ⟨vs, by rw [run_eq, ha]; exact hvs⟩

variable {seen : List Key} {vs : List Visit}

/-- Nothing is left out: what is reached was visited, by induction on the way to it. -/
private theorem keyAmong_seen (h : Covering (⟨seen, [], vs⟩ : Walk t.project entry)) {c : Component}
    (hc : t.Reaches entry c) : c.keyAmong seen = true := by
  induction hc with
  | entry =>
    rcases h.entry with hw | he
    · cases hw
    · exact he
  | child hc hm hn hd ih =>
    obtain ⟨v, hv, rfl⟩ := h.met _ _ hc ih hm
    rcases h.closed v hv _ hn _ hd with hkey | ⟨e, he, -⟩
    · exact hkey
    · exact absurd he List.not_mem_nil

theorem mem_made (h : Covering (⟨seen, [], vs⟩ : Walk t.project entry)) {c : Component}
    {m : Mapping} (hc : t.Reaches entry c) (hm : t.mapping? c.name = .ok (some m)) :
    ∃ v ∈ vs, v.component = c ∧ v.mapping = m := by
  obtain ⟨v, hv, rfl⟩ := h.met c m hc (h.keyAmong_seen hc) hm
  refine ⟨v, hv, rfl, ?_⟩
  have hv' := (h.made v hv).2
  rw [hm] at hv'
  cases hv'
  rfl

theorem walkable (h : Covering (⟨seen, [], vs⟩ : Walk t.project entry)) : t.Walkable entry := by
  constructor
  · obtain ⟨k, _, hk⟩ := List.any_eq_true.mp (h.keyAmong_seen .entry)
    rw [eq_of_beq hk]
    rfl
  · intro c m hc hm
    obtain ⟨v, hv, rfl, -⟩ := h.mem_made hc hm
    exact h.named v hv

end Covering

theorem component_of_mem_steps {v : Visit} {s : Pattern × Step α}
    (h : s ∈ v.steps t.tables) : s.2.component = v.component.name.shown := by
  obtain ⟨i, hi, rfl⟩ := List.mem_mapIdx.mp h
  rfl

private theorem steps_eq_nil {v : Visit} :
    (v.steps t.tables : List (Pattern × Step α)) = [] ↔ v.mapping.patterns = [] :=
  List.mapIdx_eq_nil_iff

/-- Every step was made at a visit to a component that is reached. -/
theorem exists_visit_of_stepsFrom {steps : List (Pattern × Step α)}
    (h : t.stepsFrom entry = .ok steps) {s : Pattern × Step α} (hs : s ∈ steps) :
    ∃ v : Visit, t.Reaches entry v.component ∧
      t.mapping? v.component.name = .ok (some v.mapping) ∧ s ∈ v.steps t.tables := by
  obtain ⟨vs, hvs, hsteps⟩ := bind_eq_ok.mp h
  cases hsteps
  obtain ⟨seen, hcovering⟩ := Covering.start.run hvs
  obtain ⟨v, hv, hs⟩ := List.mem_flatMap.mp hs
  obtain ⟨hreach, hm⟩ := hcovering.made v hv
  exact ⟨v, hreach, hm, hs⟩

/-- No two visits are at components that are shown alike. -/
theorem Covering.nodup_shown {seen : List Key} {vs : List Visit}
    (h : Covering (⟨seen, [], vs⟩ : Walk t.project entry)) :
    (vs.map (·.component.name.shown)).Nodup := by
  refine List.pairwise_map.mpr ((List.pairwise_map.mp h.nodup).imp_of_mem fun hu hv hne he => hne ?_)
  obtain ⟨s, hs, -⟩ := mapping?_eq_some.mp (h.made _ hu).2
  obtain ⟨s', hs', -⟩ := mapping?_eq_some.mp (h.made _ hv).2
  rw [hs, hs', Json.shown_text, Json.shown_text] at he
  rw [hs, hs', he]

private theorem Covering.shown_ne {seen : List Key} {first last : List Visit} {u v : Visit}
    (h : Covering (⟨seen, [], first ++ v :: last⟩ : Walk t.project entry))
    (hu : u ∈ first ++ last) : u.component.name.shown ≠ v.component.name.shown := by
  have hperm : (first ++ v :: last).Perm (v :: (first ++ last)) := List.perm_middle
  have hnodup := (hperm.map (·.component.name.shown)).nodup_iff.mp h.nodup_shown
  intro he
  exact (List.nodup_cons.mp hnodup).1 (List.mem_map.mpr ⟨u, hu, he⟩)

private theorem Covering.covers {seen : List Key} {vs : List Visit}
    (h : Covering (⟨seen, [], vs⟩ : Walk t.project entry)) :
    t.Covers (α := α) entry (vs.flatMap (Visit.steps t.tables)) := by
  constructor
  · intro name
    simp only [List.mem_map, List.mem_flatMap]
    constructor
    · rintro ⟨s, ⟨v, hv, hs⟩, rfl⟩
      obtain ⟨hc, hm⟩ := h.made v hv
      obtain ⟨text, hname, -⟩ := mapping?_eq_some.mp hm
      refine ⟨v.component, v.mapping, hc, ?_, hm, fun hp => ?_⟩
      · rw [component_of_mem_steps hs, hname, Json.shown_text]
      · rw [steps_eq_nil.mpr hp] at hs
        cases hs
    · rintro ⟨c, m, hc, hname, hm, hp⟩
      obtain ⟨v, hv, rfl, rfl⟩ := h.mem_made hc hm
      obtain ⟨s, hs⟩ := List.exists_mem_of_ne_nil _ (mt (steps_eq_nil (α := α)).mp hp)
      exact ⟨s, ⟨v, hv, hs⟩, by rw [component_of_mem_steps hs, hname, Json.shown_text]⟩
  · intro c m hc hm
    obtain ⟨v, hv, rfl, rfl⟩ := h.mem_made hc hm
    obtain ⟨first, last, rfl⟩ := List.append_of_mem hv
    refine ⟨first.flatMap (Visit.steps t.tables), last.flatMap (Visit.steps t.tables), v.order,
      ?_, ?_⟩
    · rw [List.flatMap_append, List.flatMap_cons, List.append_assoc]
      rfl
    · intro s hs
      rw [← List.flatMap_append] at hs
      obtain ⟨u, hu, hs⟩ := List.mem_flatMap.mp hs
      rw [component_of_mem_steps hs]
      exact h.shown_ne hu

/-- A walk gives steps as long as every name it looks up can identify something, and they cover what
is reached. An entry point that the project has is nothing special to it. -/
theorem covers_stepsFrom (t : Terrain) (entry : Component) :
    ((∃ steps, t.stepsFrom (α := α) entry = .ok steps) ↔ t.Walkable entry) ∧
    (∀ steps, t.stepsFrom (α := α) entry = .ok steps → t.Covers entry steps) ∧
    (t.project.component? entry.name = .ok (some entry) → ∀ name,
      (t.project.enteredAt entry).component? name = t.project.component? name) := by
  refine ⟨⟨?_, fun hw => ?_⟩, fun steps hsteps => ?_, Project.component?_enteredAt⟩
  · rintro ⟨steps, hsteps⟩
    obtain ⟨vs, hvs, -⟩ := bind_eq_ok.mp hsteps
    obtain ⟨seen, h⟩ := Covering.start.run hvs
    exact h.walkable
  · obtain ⟨vs, hvs⟩ := Covering.start.exists_run hw
    exact ⟨_, bind_eq_ok.mpr ⟨vs, hvs, rfl⟩⟩
  · obtain ⟨vs, hvs, hsteps⟩ := bind_eq_ok.mp hsteps
    cases hsteps
    obtain ⟨seen, h⟩ := Covering.start.run hvs
    exact h.covers

private def placed (name : String) (children : List Json) : Component :=
  ⟨.text name, .null, .null, [], [], children, []⟩

private def offering (name : String) (patterns : List Pattern) : Mapping :=
  ⟨name, .functional, "", "", patterns, ⟨[], [], [], []⟩⟩

/-- The cart stands twice below the home page and contains the page that contains it; what is below
the badge is not reached, for the badge has no mapping. -/
private def shop : Terrain where
  project := ⟨[placed "Home" [.text "Cart", .text "Badge", .text "Cart"],
    placed "Cart" [.text "Home", .text "Ghost"], placed "Badge" [.text "Total"],
    placed "Total" []], [], []⟩
  mappings := [offering "Home" [],
    offering "Cart" [⟨.userInput, "", [], []⟩, ⟨.apiCall, "", [], []⟩],
    offering "Total" [⟨.display, "", [], []⟩]]
  tables := .bundled

theorem covers_stepsFrom_shop : ∃ home, shop.project.component? (.text "Home") = .ok (some home) ∧
    shop.Walkable home ∧ (∃ steps : List (Pattern × Step Rat), shop.stepsFrom home = .ok steps ∧
      steps.map (·.2.id) = ["step-Cart-0", "step-Cart-1"] ∧ shop.Covers home steps) ∧
    ∀ name, (shop.project.enteredAt home).component? name = shop.project.component? name := by
  let home := placed "Home" [.text "Cart", .text "Badge", .text "Cart"]
  have h := covers_stepsFrom (α := Rat) shop home
  obtain ⟨steps, hsteps, hids⟩ := map_eq_ok.mp (toOption_eq_some.mp
    (show (List.map (·.2.id) <$> shop.stepsFrom (α := Rat) home).toOption =
      some ["step-Cart-0", "step-Cart-1"] by decide +kernel))
  exact ⟨home, rfl, h.1.mp ⟨steps, hsteps⟩, ⟨steps, hsteps, hids, h.2.1 steps hsteps⟩, h.2.2 rfl⟩

end Terrain

end BusinessAtlas
