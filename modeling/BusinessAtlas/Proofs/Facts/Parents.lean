import BusinessAtlas.Journey.Inference
import BusinessAtlas.Proofs.Facts.Table
import BusinessAtlas.Proofs.Json.Identity

/-!
# Which components have a parent

The table keeps the first record of each name, and with it what that record lists as its children. So a
component has a parent if the first record of another name lists it. What a later record of a name
lists is left out, and a component that is nested only there counts as one without a parent.
-/

namespace BusinessAtlas

open Json (lookup)

namespace Component

/-- A record has something under its children. -/
def Lists (v item : Json) : Prop := ∃ items, v.pickItems ["children"] = .ok items ∧ item ∈ items

section

variable {v w : Json} {c : Component}

theorem lists_of_nests (h : Nests v w) : Lists v w := by
  obtain ⟨fields, items, rfl, hlookup, hw, -⟩ := h
  have hgiven : Json.given "children" fields = some (.list items) := by
    rw [Json.given, hlookup]
    rfl
  refine ⟨items, ?_, hw⟩
  rw [Json.pickItems, Json.pickD_record, List.findSome?_cons, hgiven]
  rfl

theorem eq_nameOf {name : Json} (h : nameUnder "name" v = .ok name) : name = nameOf v := by
  cases v with
  | text s => exact (Except.ok.inj h).symm
  | record fields => exact (Except.ok.inj h).symm
  | _ => cases h

theorem mem_children (h : ofJson v = .ok c) {name : Json} :
    name ∈ c.children ↔ ∃ item, Lists v item ∧ nameOf item = name := by
  obtain ⟨items, hitems, hchildren⟩ := (named_of_ofJson h).2
  rw [mem_of_mapM hchildren]
  constructor
  · rintro ⟨item, hitem, hname⟩
    exact ⟨item, ⟨items, hitems, hitem⟩, (eq_nameOf hname).symm⟩
  · rintro ⟨item, ⟨items', hitems', hitem⟩, rfl⟩
    rw [hitems] at hitems'
    cases hitems'
    obtain ⟨name, hname⟩ := exists_of_mapM hchildren hitem
    exact ⟨item, hitem, eq_nameOf hname ▸ hname⟩

end

end Component

namespace Project

open Component (nameOf nameKey levelOrder objects Within Nests Lists)

section

variable {p : Project} {fields : List (String × Json)} {roots : List Json}

theorem exists_nameKey (hroots : (Json.record fields).pickItems ["components"] = .ok roots)
    (hbuilt : ofJson (.record fields) = .ok p) {w : Json} (hw : w ∈ levelOrder (objects roots)) :
    ∃ i, (nameOf w).asIdent = .ok i := by
  obtain ⟨cs, hcs, htable⟩ := components_of_ofJson hroots hbuilt
  obtain ⟨c, hc⟩ := exists_of_mapM hcs hw
  have hnames := (gives_distinct []).mp ⟨p.components, htable, trivial⟩
  have hname := hnames c ((mem_of_mapM hcs).mpr ⟨w, hw, hc⟩)
  rw [(Component.named_of_ofJson hc).1] at hname
  exact Json.identifies_iff.mp hname

theorem hasParent_iff (hroots : (Json.record fields).pickItems ["components"] = .ok roots)
    (hbuilt : ofJson (.record fields) = .ok p) {c : Component} (hc : c ∈ p.components) :
    p.hasParent c = true ↔ ∃ v ∈ firstPer nameKey (levelOrder (objects roots)),
      (nameOf v).same c.name = false ∧ ∃ item, Lists v item ∧ nameKey item = c.name.key? := by
  have hentries := (tabulates_of_ofJson hroots hbuilt).entries
  obtain ⟨w, hw, hwc⟩ := (mem_of_mapM hentries).mp hc
  obtain ⟨i, hi⟩ := exists_nameKey hroots hbuilt (mem_of_mem_firstPer hw)
  have hkey : c.name.key? = some i.key := by
    rw [(Component.named_of_ofJson hwc).1]
    exact Json.key?_of_asIdent hi
  unfold hasParent
  rw [List.any_eq_true]
  simp only [Bool.and_eq_true, Bool.not_eq_true', Json.isAmong_iff hkey, hkey]
  constructor
  · rintro ⟨d, hd, hsame, name, hname, hnamed⟩
    obtain ⟨v, hv, hvd⟩ := (mem_of_mapM hentries).mp hd
    obtain ⟨item, hitem, rfl⟩ := (Component.mem_children hvd).mp hname
    rw [(Component.named_of_ofJson hvd).1] at hsame
    exact ⟨v, hv, hsame, item, hitem, hnamed⟩
  · rintro ⟨v, hv, hsame, item, hitem, hnamed⟩
    obtain ⟨d, hvd⟩ := exists_of_mapM hentries hv
    have hd := (mem_of_mapM hentries).mpr ⟨v, hv, hvd⟩
    rw [← (Component.named_of_ofJson hvd).1] at hsame
    exact ⟨d, hd, hsame, nameOf item, (Component.mem_children hvd).mpr ⟨item, hitem, rfl⟩, hnamed⟩

theorem hasParent_of_nests (hroots : (Json.record fields).pickItems ["components"] = .ok roots)
    (hbuilt : ofJson (.record fields) = .ok p) {v w : Json}
    (hv : v ∈ firstPer nameKey (levelOrder (objects roots))) (hw : Nests v w)
    (hname : (nameOf v).same (nameOf w) = false) {c : Component} (hc : c ∈ p.components)
    (hkey : c.name.key? = nameKey w) : p.hasParent c = true := by
  refine (hasParent_iff hroots hbuilt hc).mpr ⟨v, hv, ?_, w, Component.lists_of_nests hw, hkey.symm⟩
  obtain ⟨i, hi⟩ := exists_nameKey hroots hbuilt (mem_of_mem_firstPer hv)
  have hvkey := Json.key?_of_asIdent hi
  rw [Bool.eq_false_iff, Ne, Json.same_iff hvkey] at hname ⊢
  rw [hkey]
  exact hname

theorem mem_entryPoints_of_hasParent {t : Terrain} {entries : List Component}
    (h : t.entryPoints = .ok entries) {c : Component} (hc : c ∈ t.project.components)
    (hparent : t.project.hasParent c = true) :
    c ∈ entries ↔ t.tables.entry.classifyValue c.name = .ok (some "route") := by
  rw [Terrain.mem_entryPoints h, Terrain.isEntryPoint, hparent]
  simp only [hc, true_and, bind_eq_ok]
  constructor
  · rintro ⟨kind, hkind, hentry⟩
    rw [hkind]
    split at hentry
    · rfl
    · cases hentry
    · cases hentry
    · cases hentry
  · intro hkind
    exact ⟨some "route", hkind, rfl⟩

/-- Every nested record gives its name to a component. If the record that it is nested in is the first
one of its name, and the names differ, then the component has a parent, and it has one just if this
is so of some record that lists its name. A component with a parent is an entry point only if its name
is that of a route, so no nested form or list with such a parent is one. -/
theorem exists_parent (hroots : (Json.record fields).pickItems ["components"] = .ok roots)
    (hbuilt : ofJson (.record fields) = .ok p) :
    (∀ root ∈ objects roots, ∀ v w, Within root v → Nests v w →
      ∃ c ∈ p.components, p.component? (nameOf w) = .ok (some c) ∧
        (v ∈ firstPer nameKey (levelOrder (objects roots)) →
          (nameOf v).same (nameOf w) = false → p.hasParent c = true)) ∧
    (∀ c ∈ p.components, p.hasParent c = true ↔ ∃ v ∈ firstPer nameKey (levelOrder (objects roots)),
      (nameOf v).same c.name = false ∧ ∃ item, Lists v item ∧ nameKey item = c.name.key?) ∧
    ∀ (t : Terrain) entries, t.project = p → t.entryPoints = .ok entries → ∀ c ∈ p.components,
      p.hasParent c = true →
        (c ∈ entries ↔ t.tables.entry.classifyValue c.name = .ok (some "route")) := by
  refine ⟨?_, ?_, ?_⟩
  · intro root hroot v w hv hw
    have hwithin : Within root w := hv.tail hw
    have htable := tabulates_of_ofJson hroots hbuilt
    obtain ⟨i, hi⟩ := exists_nameKey hroots hbuilt (Component.mem_levelOrder.mpr ⟨root, hroot, hwithin⟩)
    have hkey : nameKey w = some i.key := Json.key?_of_asIdent hi
    obtain ⟨c, hc, hck⟩ := List.mem_map.mp ((htable.named _).mpr ⟨root, hroot, w, hwithin, hkey⟩)
    refine ⟨c, hc, (htable.exact _ i hi c).mpr ⟨hc, hck⟩, ?_⟩
    intro hfirst hname
    exact hasParent_of_nests hroots hbuilt hfirst hw hname hc (hck.trans hkey.symm)
  · intro c hc
    exact hasParent_iff hroots hbuilt hc
  · rintro t entries rfl hentries c hc hparent
    exact mem_entryPoints_of_hasParent hentries hc hparent

private def shell (children : List Json) : Json :=
  .record [("name", .text "Shell"), ("children", .list children)]

private def form : Json := .record [("name", .text "LoginForm")]

private theorem nests_shell : Nests (shell [form]) form :=
  ⟨_, [form], rfl, rfl, List.mem_cons_self, rfl⟩

private def terrainOf (p : Project) : Terrain := ⟨p, [], .bundled⟩

private theorem name_of_found {c : Component} (htable : p.Tabulates roots)
    (h : p.component? (nameOf form) = .ok (some c)) : c.name = .text "LoginForm" :=
  Json.key?_eq_some_text.mp ((htable.exact (nameOf form) (.text "LoginForm") rfl c).mp h).2

private theorem kind_of_form :
    (terrainOf p).tables.entry.classifyValue (.text "LoginForm") = .ok (some "form") :=
  toOption_eq_some.mp (by
    change (Classifier.classifyValue .entryPoint (.text "LoginForm")).toOption = some (some "form")
    decide +kernel)

/-- The form is nested in the first one of two shells. -/
theorem exists_parent_shell : ∃ p c entries,
    (Json.record [("components", .list [shell [form], shell []])]).pickItems ["components"] =
      .ok [shell [form], shell []] ∧
    ofJson (.record [("components", .list [shell [form], shell []])]) = .ok p ∧
    p.component? (nameOf form) = .ok (some c) ∧ p.hasParent c = true ∧
    (terrainOf p).entryPoints = .ok entries ∧ c ∉ entries := by
  obtain ⟨p, hbuilt, hp⟩ := exists_of_any (show
    (ofJson (.record [("components", .list [shell [form], shell []])])).toOption.any (fun p =>
      (terrainOf p).entryPoints.toOption.isSome) = true by decide +kernel)
  obtain ⟨entries, hentries⟩ := Option.isSome_iff_exists.mp hp
  have hentries := toOption_eq_some.mp hentries
  have hroots : (Json.record [("components", .list [shell [form], shell []])]).pickItems
      ["components"] = .ok [shell [form], shell []] := rfl
  obtain ⟨hnested, -, hstart⟩ := exists_parent hroots hbuilt
  obtain ⟨c, hc, hfound, hparent⟩ :=
    hnested (shell [form]) List.mem_cons_self (shell [form]) form .refl nests_shell
  have hparent := hparent List.mem_cons_self (by decide +kernel)
  have hname := name_of_found (tabulates_of_ofJson hroots hbuilt) hfound
  refine ⟨p, c, entries, hroots, hbuilt, hfound, hparent, hentries, ?_⟩
  rw [hstart _ entries rfl hentries c hc hparent, hname, kind_of_form]
  simp

/-- What a shell that is not the first one lists is left out, and the form that is nested in it is an
entry point. -/
theorem not_hasParent_shell : ∃ p c entries,
    ofJson (.record [("components", .list [shell [], shell [form]])]) = .ok p ∧
    Nests (shell [form]) form ∧ (nameOf (shell [form])).same (nameOf form) = false ∧
    p.component? (nameOf form) = .ok (some c) ∧ p.hasParent c = false ∧
    (terrainOf p).entryPoints = .ok entries ∧ c ∈ entries := by
  obtain ⟨p, hbuilt, hp⟩ := exists_of_any (show
    (ofJson (.record [("components", .list [shell [], shell [form]])])).toOption.any (fun p =>
      (terrainOf p).entryPoints.toOption.isSome && p.components.all fun c => !p.hasParent c) = true by
        decide +kernel)
  obtain ⟨hstarts, hparents⟩ := Bool.and_eq_true_iff.mp hp
  obtain ⟨entries, hentries⟩ := Option.isSome_iff_exists.mp hstarts
  have hentries := toOption_eq_some.mp hentries
  have hroots : (Json.record [("components", .list [shell [], shell [form]])]).pickItems
      ["components"] = .ok [shell [], shell [form]] := rfl
  have htable := tabulates_of_ofJson hroots hbuilt
  have hkey : some (.text "LoginForm") ∈ p.components.map fun c => c.name.key? :=
    (htable.named _).mpr ⟨shell [form], List.mem_cons_of_mem _ List.mem_cons_self, form,
      .single nests_shell, rfl⟩
  obtain ⟨c, hc, hk⟩ := List.mem_map.mp hkey
  have hfound : p.component? (nameOf form) = .ok (some c) :=
    (htable.exact (nameOf form) (.text "LoginForm") rfl c).mpr ⟨hc, hk⟩
  have hparent : p.hasParent c = false := by simpa using List.all_eq_true.mp hparents c hc
  refine ⟨p, c, entries, hbuilt, nests_shell, by decide +kernel, hfound, hparent, hentries, ?_⟩
  refine (Terrain.mem_entryPoints hentries).mpr ⟨hc, ?_⟩
  rw [Terrain.isEntryPoint, name_of_found htable hfound, kind_of_form, ok_bind]
  change Except.ok (!p.hasParent c) = _
  rw [hparent]
  rfl

end

end Project

end BusinessAtlas
