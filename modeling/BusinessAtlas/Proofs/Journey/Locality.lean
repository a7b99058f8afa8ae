import BusinessAtlas.Proofs.Journey.Reach

/-!
# What a walk looks at

A journey depends on nothing but what its entry point refers to. In two terrains that agree on these
names the walks go on side by side, for they look up the same names and find the same, so the steps
and the whole journey are the same whatever else is in the terrains.
-/

namespace BusinessAtlas

/-- The names that a component refers to: those of the components in it, and all that these refer
to. -/
inductive Project.Refers (p : Project) (c : Component) : Json → Prop where
  | child {name} : name ∈ c.children → Refers p c name
  | deeper {name d other} : Refers p c name → p.component? name = .ok (some d) →
    other ∈ d.children → Refers p c other

namespace Terrain

variable {α : Type} [Scalar α] {t t' : Terrain} {entry : Component}

/-- The terrains have the same tables and the same mapping of the entry point, and under every name
that it refers to both have the same component and the same mapping, or none. -/
structure Agrees (t t' : Terrain) (entry : Component) : Prop where
  tables : t.tables = t'.tables
  start : t.mapping? entry.name = t'.mapping? entry.name
  component : ∀ name, t.project.Refers entry name →
    t.project.component? name = t'.project.component? name
  mapping : ∀ name, t.project.Refers entry name → t.mapping? name = t'.mapping? name

theorem mapping?_congr {a b : Json} {k : Key} (ha : a.key? = some k) (hb : b.key? = some k) :
    t.mapping? a = t.mapping? b := by
  have hnone (v : Json) (hv : v.key? = some k) (hk : ∀ s, k ≠ .text s) :
      t.mapping? v = .ok none := by
    have hsome : v.key?.isSome = true := by rw [hv]; rfl
    obtain ⟨o, ho⟩ := t.exists_mapping? hsome
    cases o with
    | none => exact ho
    | some m =>
      obtain ⟨s, rfl, -⟩ := mapping?_eq_some.mp ho
      exact absurd (Option.some.inj hv).symm (hk s)
  by_cases hk : ∃ s, k = .text s
  · obtain ⟨s, rfl⟩ := hk
    rw [Json.key?_eq_some_text.mp ha, Json.key?_eq_some_text.mp hb]
  · have hk' : ∀ s, k ≠ .text s := fun s hs => hk ⟨s, hs⟩
    rw [hnone a ha hk', hnone b hb hk']

theorem Reaches.eq_or_refers {c : Component} (h : t.Reaches entry c) :
    c = entry ∨ ∃ name, t.project.Refers entry name ∧ t.project.component? name = .ok (some c) := by
  induction h with
  | entry => exact .inl rfl
  | @child c d m name hc hm hn hd ih =>
    obtain ⟨k, hk, hf⟩ := Project.component?_eq_some.mp hd
    by_cases he : entry.name.key? = some k
    · rw [Project.find?_enteredAt_self he] at hf
      exact .inl (Option.some.inj hf).symm
    · rw [Project.find?_enteredAt_of_ne he] at hf
      refine .inr ⟨name, ?_, Project.component?_eq_some.mpr ⟨k, hk, hf⟩⟩
      rcases ih with rfl | ⟨above, habove, hfound⟩
      · exact .child hn
      · exact .deeper habove hfound hn

namespace Agrees

variable {c : Component}

theorem mapping?_eq (h : t.Agrees t' entry) (hc : t.Reaches entry c) :
    t.mapping? c.name = t'.mapping? c.name := by
  rcases hc.eq_or_refers with rfl | ⟨name, hname, hfound⟩
  · exact h.start
  · obtain ⟨k, hk, hf⟩ := Project.component?_eq_some.mp hfound
    have hck : c.name.key? = some k := Project.key_of_find? hf
    calc t.mapping? c.name = t.mapping? name := mapping?_congr hck hk
      _ = t'.mapping? name := h.mapping name hname
      _ = t'.mapping? c.name := mapping?_congr hk hck

theorem childrenOf_eq (h : t.Agrees t' entry) (hc : t.Reaches entry c) :
    t.project.childrenOf c = t'.project.childrenOf c := by
  have hchildren : c.children.mapM t.project.component? =
      c.children.mapM t'.project.component? := by
    refine mapM_congr fun other hother => h.component other ?_
    rcases hc.eq_or_refers with rfl | ⟨name, hname, hfound⟩
    · exact .child hother
    · exact .deeper hname hfound hother
  rw [Project.childrenOf, Project.childrenOf, hchildren]

end Agrees

/-- Where a walk stands, apart from the project that its places belong to. -/
private def bare {p : Project} (w : Walk p entry) :
    List Key × List (Component × Nat) × List Visit :=
  (w.seen, w.stack.map fun e => (e.1.1, e.2), w.made)

private theorem map_below {p : Project} (ds : List (Place p entry)) (seen : List Key)
    (order : Nat) : ((ds.filter fun d => !d.1.keyAmong seen).map fun d => (d, order)).map
      (fun e => (e.1.1, e.2)) =
      ((ds.map Subtype.val).filter fun d => !d.keyAmong seen).map fun d => (d, order) := by
  rw [List.filter_map, List.map_map, List.map_map]
  rfl

namespace Agrees

variable {w : Walk t.project entry} {w' : Walk t'.project entry}

private theorem placesIn_eq (h : t.Agrees t' entry) {c : Component} (hc : t.Reaches entry c) :
    List.map Subtype.val <$> t.project.placesIn entry c =
      List.map Subtype.val <$> t'.project.placesIn entry c := by
  rw [Project.map_placesIn, Project.map_placesIn]
  exact h.childrenOf_eq hc

private theorem advance_eq (h : t.Agrees t' entry) (hw : Covering w) (he : bare w = bare w') :
    Option.map bare <$> t.advance w = Option.map bare <$> t'.advance w' := by
  obtain ⟨seen, stack, made⟩ := w
  obtain ⟨seen', stack', made'⟩ := w'
  simp only [bare, Prod.mk.injEq] at he
  obtain ⟨rfl, hstack, rfl⟩ := he
  rcases stack with _ | ⟨⟨⟨c, hc⟩, order⟩, stack⟩ <;>
    rcases stack' with _ | ⟨⟨⟨c', hc'⟩, order'⟩, stack'⟩
  · rfl
  · cases hstack
  · cases hstack
  · simp only [List.map_cons, List.cons.injEq, Prod.mk.injEq] at hstack
    obtain ⟨⟨rfl, rfl⟩, hstack⟩ := hstack
    have hreach : t.Reaches entry c := hw.stack (⟨c, hc⟩, order) List.mem_cons_self
    unfold advance
    dsimp only
    cases c.name.key? with
    | none => rfl
    | some k =>
      by_cases hk : k ∈ seen
      · simp only [if_pos hk, map_ok, Option.map_some, bare, hstack]
      · simp only [if_neg hk, h.mapping?_eq hreach]
        cases t'.mapping? c.name with
        | error f => rfl
        | ok m =>
          cases m with
          | none => simp [bare, hstack]
          | some m =>
            have hplaces := h.placesIn_eq hreach
            cases hds : t.project.placesIn entry c with
            | error f =>
              rw [hds, map_error] at hplaces
              rw [map_eq_error.mp hplaces.symm]
              rfl
            | ok ds =>
              rw [hds, map_ok] at hplaces
              obtain ⟨ds', hds', hplaces⟩ := map_eq_ok.mp hplaces.symm
              rw [hds']
              simp only [ok_bind, pure_eq_ok, map_ok, Option.map_some, bare, List.map_append,
                map_below, hplaces, hstack]

private theorem run_eq (h : t.Agrees t' entry) (hw : Covering w) (he : bare w = bare w') :
    t.run w = t'.run w' := by
  induction w using Terrain.run.induct t generalizing w' with
  | case1 w f ha =>
    have hlook := h.advance_eq hw he
    rw [ha, map_error] at hlook
    rw [Terrain.run_eq, Terrain.run_eq, ha, map_eq_error.mp hlook.symm]
  | case2 w ha =>
    have hlook := h.advance_eq hw he
    rw [ha, map_ok] at hlook
    obtain ⟨o, ho, hlook⟩ := map_eq_ok.mp hlook.symm
    rw [Terrain.run_eq, Terrain.run_eq, ha, ho, Option.map_eq_none_iff.mp hlook]
    have hmade : w.made = w'.made := congrArg (·.2.2) he
    exact congrArg Except.ok hmade
  | case3 w next ha ih =>
    have hlook := h.advance_eq hw he
    rw [ha, map_ok] at hlook
    obtain ⟨o, ho, hlook⟩ := map_eq_ok.mp hlook.symm
    obtain ⟨next', rfl, hnext⟩ := Option.map_eq_some_iff.mp hlook
    rw [Terrain.run_eq w, Terrain.run_eq w', ha, ho]
    exact ih (hw.advance ha) hnext.symm

theorem visits_eq (h : t.Agrees t' entry) : t.visits entry = t'.visits entry :=
  h.run_eq Covering.start rfl

theorem stepsFrom_eq (h : t.Agrees t' entry) :
    t.stepsFrom (α := α) entry = t'.stepsFrom entry := by
  rw [stepsFrom, stepsFrom, h.visits_eq, h.tables]

private theorem findMapping_eq (h : t.Agrees t' entry) {made : List (Pattern × Step α)}
    (hmade : t.stepsFrom entry = .ok made) {s : Pattern × Step α} (hs : s ∈ made) :
    findMapping s.2.component t.mappings = findMapping s.2.component t'.mappings := by
  obtain ⟨v, hreach, hm, hsteps⟩ := exists_visit_of_stepsFrom hmade hs
  obtain ⟨name, hname, -⟩ := mapping?_eq_some.mp hm
  have hsame := h.mapping?_eq hreach
  rw [hname] at hsame
  rw [component_of_mem_steps hsteps, hname, Json.shown_text]
  exact Except.ok.inj hsame

theorem finish_eq (h : t.Agrees t' entry) {made : List (Pattern × Step α)}
    (hmade : t.stepsFrom entry = .ok made) (j : Journey α) :
    t.finish j made = t'.finish j made := by
  have hdata : (chained (made.map (·.2))).map (Step.handled t.mappings) =
      (chained (made.map (·.2))).map (Step.handled t'.mappings) := by
    refine List.map_congr_left fun s hs => ?_
    have hcomponent := List.mem_map_of_mem (f := Step.component) hs
    rw [map_chained fun _ _ => rfl, List.map_map] at hcomponent
    obtain ⟨r, hr, hrs⟩ := List.mem_map.mp hcomponent
    have hfound : findMapping s.component t.mappings = findMapping s.component t'.mappings :=
      hrs ▸ h.findMapping_eq hmade hr
    rw [Step.handled, Step.handled, hfound]
  unfold finish
  dsimp only
  rw [hdata]

end Agrees

/-- Terrains that agree on what an entry point refers to give the same steps from it, count the same
on the way, and make the same journey of it. -/
theorem trace_local (t t' : Terrain) (entry : Component) (h : t.Agrees t' entry) :
    t.stepsFrom (α := α) entry = t'.stepsFrom entry ∧
    Tally.ofSteps <$> t.stepsFrom (α := α) entry = Tally.ofSteps <$> t'.stepsFrom (α := α) entry ∧
    ∀ taken, t.trace (α := α) taken entry = t'.trace taken entry := by
  have hsteps : t.stepsFrom (α := α) entry = t'.stepsFrom entry := h.stepsFrom_eq
  refine ⟨hsteps, congrArg _ hsteps, fun taken => ?_⟩
  have hgoal : t.journeyGoal entry = t'.journeyGoal entry := by
    rw [journeyGoal, journeyGoal, h.start, h.tables]
  have hname : t.journeyName entry = t'.journeyName entry := by
    rw [journeyName, journeyName, h.tables]
  unfold trace
  rw [← hgoal, ← hname, ← h.tables, ← hsteps]
  cases hmade : t.stepsFrom (α := α) entry with
  | error f => rfl
  | ok made => simp only [ok_bind, h.finish_eq hmade]

private def page (name : String) (children : List String) : Component :=
  ⟨.text name, .null, .null, [], [], children.map .text, []⟩

private def clicked (name : String) : Mapping :=
  ⟨name, .functional, "", "", [⟨.userInput, "", [], []⟩], ⟨[], [], [], []⟩⟩

private def kiosk : Terrain :=
  ⟨⟨[page "Home" ["Cart"], page "Cart" ["Home", "Ghost"]], [], []⟩,
    [clicked "Home", clicked "Cart"], .bundled⟩

/-- The same pages among others. -/
private def mall : Terrain :=
  ⟨⟨[page "Badge" ["Home"], page "Cart" ["Home", "Ghost"], page "Home" ["Cart"]], [], []⟩,
    [clicked "Badge", clicked "Cart", clicked "Home"], .bundled⟩

private theorem refers_kiosk {name : Json} (h : kiosk.project.Refers (page "Home" ["Cart"]) name) :
    name = .text "Home" ∨ name = .text "Cart" ∨ name = .text "Ghost" := by
  have hcart (other : Json) (h : other ∈ [Json.text "Cart"]) :
      other = .text "Home" ∨ other = .text "Cart" ∨ other = .text "Ghost" :=
    .inr (.inl (List.mem_singleton.mp h))
  induction h with
  | child h => exact hcart _ h
  | deeper _ hd hother ih =>
    rcases ih with rfl | rfl | rfl <;> cases hd
    · exact hcart _ hother
    · rcases List.mem_cons.mp hother with h | h
      · exact .inl h
      · exact .inr (.inr (List.mem_singleton.mp h))

private theorem agrees_kiosk_mall : kiosk.Agrees mall (page "Home" ["Cart"]) where
  tables := rfl
  start := rfl
  component name h := by rcases refers_kiosk h with rfl | rfl | rfl <;> rfl
  mapping name h := by rcases refers_kiosk h with rfl | rfl | rfl <;> rfl

theorem trace_local_kiosk : kiosk.mappings ≠ mall.mappings ∧ ∃ home,
    kiosk.Agrees mall home ∧ kiosk.stepsFrom (α := Rat) home = mall.stepsFrom home ∧
    Tally.ofSteps <$> kiosk.stepsFrom (α := Rat) home =
      Tally.ofSteps <$> mall.stepsFrom (α := Rat) home ∧
    ∀ taken, kiosk.trace (α := Rat) taken home = mall.trace taken home :=
  ⟨by simp [kiosk, mall], _, agrees_kiosk_mall, trace_local kiosk mall _ agrees_kiosk_mall⟩

end Terrain

end BusinessAtlas
