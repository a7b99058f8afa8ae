import BusinessAtlas.Grouping
import BusinessAtlas.Proofs.Facts.Collected

/-!
# The component table

The table of components holds one entry for each name that is given to a record anywhere in the facts:
what the first record with the name, level by level, is read as. A component that is only named, where
it is listed, does not get an entry from that.
-/

namespace BusinessAtlas

open Json (lookup listWeight)

namespace Component

/-- The name that a value gives to a component: a text is the name itself. -/
def nameOf : Json → Json
  | .text s => .text s
  | .record fields => (lookup "name" fields).getD (.text "")
  | _ => .text ""

/-- The key of the name that a value gives to a component. -/
def nameKey (v : Json) : Option Key := (nameOf v).key?

/-- A component has the name that its record gives and the names of what is listed as its children. -/
theorem named_of_ofJson {v : Json} {c : Component} (h : ofJson v = .ok c) : c.name = nameOf v ∧
    ∃ items, v.pickItems ["children"] = .ok items ∧ items.mapM (nameUnder "name") = .ok c.children := by
  obtain ⟨fields, rfl, -⟩ := gives_ofJson.mp ⟨c, h, trivial⟩
  simp only [ofJson, bind_eq_ok, pure_eq_ok] at h
  obtain ⟨_, -, _, -, _, -, _, -, _, -, _, -, name, hname, _, -, _, -, items, hitems, children,
    hchildren, h⟩ := h
  cases h
  rw [Json.getD_record] at hname
  exact ⟨(Except.ok.inj hname).symm, items, hitems, hchildren⟩

end Component

theorem mapM_firstPer {ε α β κ : Type} [DecidableEq κ] {f : α → Except ε β} {key : α → κ}
    {key' : β → κ} {xs : List α} {ys : List β} (h : xs.mapM f = .ok ys)
    (hkey : ∀ x y, f x = .ok y → key' y = key x) :
    (firstPer key xs).mapM f = .ok (firstPer key' ys) := by
  suffices hall : ∀ seen : List κ, (firstFrom key seen xs).mapM f = .ok (firstFrom key' seen ys) from
    hall []
  intro seen
  induction xs generalizing ys seen with
  | nil => cases h; rfl
  | cons x rest ih =>
    obtain ⟨y, later, hy, hlater, rfl⟩ := mapM_cons_eq_ok.mp h
    rw [firstFrom, firstFrom, hkey x y hy]
    split
    · exact ih hlater seen
    · exact mapM_cons_eq_ok.mpr ⟨y, _, hy, ih hlater _, rfl⟩

namespace Project

open Component (nameKey levelOrder Within Drains objects)

theorem distinct_eq {seen : List Key} {cs table : List Component} (h : distinct seen cs = .ok table) :
    table = firstFrom (fun c => c.name.key?) (seen.map some) cs := by
  induction cs generalizing seen table with
  | nil => cases h; rfl
  | cons c rest ih =>
    obtain ⟨name, hname, h⟩ := bind_eq_ok.mp h
    have hkey := Json.key?_of_asIdent hname
    by_cases hseen : seen.contains name.key = true
    · rw [if_pos hseen] at h
      have hmem : c.name.key? ∈ seen.map some := by
        rw [hkey]
        exact List.mem_map_of_mem (by simpa using hseen)
      rw [firstFrom, if_pos hmem]
      exact ih h
    · rw [if_neg hseen] at h
      obtain ⟨later, hlater, h⟩ := bind_eq_ok.mp h
      cases h
      have hmem : c.name.key? ∉ seen.map some := by
        rw [hkey]
        simpa using hseen
      rw [firstFrom, if_neg hmem, ih hlater, hkey]
      rfl

/-- The component table is that of a forest of records: there is one entry for each name that is given
in it, and each is what the first record with the name, level by level, is read as. -/
structure Tabulates (p : Project) (roots : List Json) : Prop where
  entries : (firstPer nameKey (levelOrder roots)).mapM Component.ofJson = .ok p.components
  distinct : (p.components.map fun c => c.name.key?).Nodup
  named : ∀ k, k ∈ p.components.map (fun c => c.name.key?) ↔
    ∃ root ∈ roots, ∃ w, Within root w ∧ nameKey w = k
  found : ∀ name i, name.asIdent = .ok i → ∀ c, p.component? name = .ok (some c) ↔
    ∃ w, (levelOrder roots).find? (fun w => nameKey w = some i.key) = some w ∧
      Component.ofJson w = .ok c
  exact : ∀ name i, name.asIdent = .ok i → ∀ c, p.component? name = .ok (some c) ↔
    c ∈ p.components ∧ c.name.key? = some i.key
  missing : ∀ name i, name.asIdent = .ok i → (p.component? name = .ok none ↔
    ∀ root ∈ roots, ∀ w, Within root w → nameKey w ≠ some i.key)

variable {p : Project} {fields : List (String × Json)} {roots : List Json}

private theorem component?_eq_ok {name : Json} {i : Ident} (h : name.asIdent = .ok i)
    {o : Option Component} : p.component? name = .ok o ↔
      p.components.find? (fun c => decide (c.name.key? = some i.key)) = o := by
  have hfind : p.component? name = .ok (p.find? i.key) := by
    rw [component?, h]
    rfl
  have hdecide : p.find? i.key =
      p.components.find? fun c => decide (c.name.key? = some i.key) := by
    simp only [find?, beq_eq_decide]
  rw [hfind, Except.ok.injEq, hdecide]

theorem tabulates_of_entries {cs : List Component}
    (hcs : (levelOrder roots).mapM Component.ofJson = .ok cs)
    (htable : p.components = firstPer (fun c => c.name.key?) cs) : p.Tabulates roots := by
  have hkey (w : Json) (c : Component) (hc : Component.ofJson w = .ok c) :
      c.name.key? = nameKey w := by
    rw [(Component.named_of_ofJson hc).1, nameKey]
  have hnodup : (p.components.map fun c => c.name.key?).Nodup := by
    rw [htable]
    exact nodup_map_firstPer _ cs
  have hnamed (k : Option Key) : k ∈ p.components.map (fun c => c.name.key?) ↔
      ∃ root ∈ roots, ∃ w, Within root w ∧ nameKey w = k := by
    rw [htable, mem_map_firstPer, map_of_mapM hcs fun w _ c hc => hkey w c hc, List.mem_map]
    simp only [Component.mem_levelOrder]
    constructor
    · rintro ⟨w, ⟨root, hroot, hw⟩, hk⟩
      exact ⟨root, hroot, w, hw, hk⟩
    · rintro ⟨root, hroot, w, hw, hk⟩
      exact ⟨w, ⟨root, hroot, hw⟩, hk⟩
  refine ⟨?_, hnodup, hnamed, ?_, ?_, ?_⟩
  · rw [htable]
    exact mapM_firstPer hcs hkey
  · intro name i hname c
    rw [component?_eq_ok hname, htable, find?_firstPer (fun c => c.name.key?) cs (some i.key)]
    apply find?_of_mapM hcs
    intro w d hd
    rw [hkey w d hd]
  · intro name i hname c
    rw [component?_eq_ok hname]
    constructor
    · intro h
      exact ⟨List.mem_of_find?_eq_some h, by simpa using List.find?_some h⟩
    · rintro ⟨hc, hk⟩
      rw [htable] at hc ⊢
      rw [find?_firstPer (fun c => c.name.key?) cs (some i.key), ← hk]
      exact find?_of_mem_firstPer hc
  · intro name i hname
    have hnone : p.component? name = .ok none ↔
        some i.key ∉ p.components.map fun c => c.name.key? := by
      rw [component?_eq_ok hname]
      simp [List.find?_eq_none, List.mem_map]
    rw [hnone, hnamed]
    simp only [not_exists, not_and]

/-- The components of a project that is built are the first ones of those that are read level by
level. -/
theorem components_of_ofJson (hroots : (Json.record fields).pickItems ["components"] = .ok roots)
    (hbuilt : ofJson (.record fields) = .ok p) :
    ∃ cs, (levelOrder (objects roots)).mapM Component.ofJson = .ok cs ∧
      distinct [] cs = .ok p.components := by
  obtain ⟨roots', hroots', hbuilt⟩ := bind_eq_ok.mp hbuilt
  rw [hroots] at hroots'
  cases hroots'
  obtain ⟨cs, hcs, hbuilt⟩ := bind_eq_ok.mp hbuilt
  have hweight : listWeight (objects roots) ≤ (Json.record fields).weight :=
    Nat.le_of_lt (Json.listWeight_pickItems_lt (fun _ => rfl) roots hroots)
  obtain ⟨records, -, hbuilt⟩ := bind_eq_ok.mp hbuilt
  obtain ⟨files, -, hbuilt⟩ := bind_eq_ok.mp hbuilt
  obtain ⟨flows, -, hbuilt⟩ := bind_eq_ok.mp hbuilt
  obtain ⟨transfers, -, hbuilt⟩ := bind_eq_ok.mp hbuilt
  obtain ⟨table, htable, hbuilt⟩ := bind_eq_ok.mp hbuilt
  obtain ⟨paths, -, hbuilt⟩ := bind_eq_ok.mp hbuilt
  cases hbuilt
  exact ⟨cs, (Component.collect_eq hweight).symm.trans hcs, htable⟩

theorem tabulates_of_ofJson (hroots : (Json.record fields).pickItems ["components"] = .ok roots)
    (hbuilt : ofJson (.record fields) = .ok p) : p.Tabulates (objects roots) := by
  obtain ⟨cs, hcs, htable⟩ := components_of_ofJson hroots hbuilt
  exact tabulates_of_entries hcs (distinct_eq htable)

/-- If the components of the facts can be read, the queue that they are taken from comes to its end,
with what the records level by level are read as. A project is built if the facts are legible, and its
component table is then that of the records that are listed, at any depth. -/
theorem tabulates_objects (hroots : (Json.record fields).pickItems ["components"] = .ok roots)
    (hread : ∀ root ∈ objects roots, ∀ w, Within root w → ∃ c, Component.ofJson w = .ok c) :
    (∃ cs, (levelOrder (objects roots)).mapM Component.ofJson = .ok cs ∧
      (∀ ds, Drains roots ds ↔ ds = cs) ∧
      ∀ fuel, listWeight (objects roots) ≤ fuel →
        Component.collect fuel (objects roots) = .ok cs) ∧
    ((∃ p, ofJson (.record fields) = .ok p) ↔ Legible fields) ∧
    ∀ p, ofJson (.record fields) = .ok p → p.Tabulates (objects roots) := by
  have hall : ∀ w ∈ levelOrder (objects roots), ∃ c, Component.ofJson w = .ok c := by
    intro w hw
    obtain ⟨root, hroot, hw⟩ := Component.mem_levelOrder.mp hw
    exact hread root hroot w hw
  obtain ⟨cs, hcs⟩ := exists_mapM hall
  refine ⟨⟨cs, hcs, ?_, ?_⟩, ?_, ?_⟩
  · intro ds
    rw [Component.drains_iff, hcs, Except.ok.injEq, eq_comm]
  · intro fuel hfuel
    rw [Component.collect_eq hfuel, hcs]
  · rw [← gives_ofJson]
    simp only [Gives, and_true]
  · intro p hp
    exact tabulates_of_ofJson hroots hp

private def page (name path : String) (children : List Json) : Json :=
  .record [("name", .text name), ("filePath", .text path), ("children", .list children)]

/-- A page that is nested in the first component and listed as the second one. -/
private def site : List Json :=
  [.text "Sidebar", page "App" "app.tsx" [page "Page" "nested.tsx" [page "Button" "" []], .text "Footer"],
    page "Page" "listed.tsx" []]

/-- The entry of the page is the one that is listed, as the other one is nested deeper. -/
theorem tabulates_objects_site : ∃ p, ofJson (.record [("components", .list site)]) = .ok p ∧
    (∀ root ∈ objects site, ∀ w, Within root w → ∃ c, Component.ofJson w = .ok c) ∧
    p.Tabulates (objects site) ∧
    p.components.map (fun c => (c.name.shown, c.path.shown)) =
      [("App", "app.tsx"), ("Page", "listed.tsx"), ("Button", "")] := by
  have hall : ∀ w ∈ levelOrder (objects site), (Component.ofJson w).toOption.isSome = true := by
    decide +kernel
  have hread : ∀ root ∈ objects site, ∀ w, Within root w → ∃ c, Component.ofJson w = .ok c := by
    intro root hroot w hw
    have hsome := hall w (Component.mem_levelOrder.mpr ⟨root, hroot, hw⟩)
    obtain ⟨c, hc⟩ := Option.isSome_iff_exists.mp hsome
    exact ⟨c, toOption_eq_some.mp hc⟩
  have hsite : (Json.record [("components", .list site)]).pickItems ["components"] = .ok site := rfl
  obtain ⟨-, -, htable⟩ := tabulates_objects hsite hread
  obtain ⟨p, hp, hentries⟩ := exists_of_any (show
    (ofJson (.record [("components", .list site)])).toOption.any (fun p =>
      p.components.map (fun c => (c.name.shown, c.path.shown)) ==
        [("App", "app.tsx"), ("Page", "listed.tsx"), ("Button", "")]) = true by decide +kernel)
  exact ⟨p, hp, hread, htable p hp, eq_of_beq hentries⟩

end Project

end BusinessAtlas
