import BusinessAtlas.Proofs.Facts.Levels

/-!
# Components collected from nested records

The components of a project are collected from the records it lists and those nested in them, however
deep. Collecting goes through exactly if every record on the way can be read.
-/

namespace BusinessAtlas

namespace Component

theorem gives_collect {pending : List Json} {fuel : Nat} {P : Component → Prop}
    (hfuel : Json.listWeight pending ≤ fuel) :
    Gives (collect fuel pending) (fun cs => ∀ c ∈ cs, P c) ↔
      ∀ v ∈ pending, ∀ w, Within v w → Gives (ofJson w) P := by
  rw [collect_eq hfuel, gives_mapM]
  simp only [mem_levelOrder]
  constructor
  · intro h v hv w hw
    exact h w ⟨v, hv, hw⟩
  · rintro h w ⟨v, hv, hw⟩
    exact h v hv w hw

end Component

namespace Project

open Json (FirstOffers IsRecordOf)

/-- What the structural facts are asked for: a component is named only or it can be read with all
that is nested in it. -/
@[mk_iff]
structure Legible (fields : List (String × Json)) : Prop where
  components : FirstOffers ["components"] (fun root => root.isText = true ∨
    ∀ v, Component.Within root v → v.IsRecordOf Component.Legible) fields
  files : FirstOffers ["files"] (IsRecordOf SourceFile.Legible) fields
  transfers : FirstOffers ["dataFlows", "data_flows"] (fun v => v.isRecord = true) fields

theorem gives_distinct (seen : List Key) {cs : List Component} :
    Gives (distinct seen cs) (fun _ => True) ↔ ∀ c ∈ cs, c.name.Identifies := by
  induction cs generalizing seen with
  | nil => simp [distinct]
  | cons c rest ih =>
    rw [distinct, gives_bind, List.forall_mem_cons, Json.identifies_iff]
    constructor
    · rintro ⟨name, hname, h⟩
      refine ⟨⟨name, hname⟩, ?_⟩
      split at h
      · exact (ih seen).mp h
      · obtain ⟨ds, hds, -⟩ := gives_bind.mp h
        exact (ih _).mp ⟨ds, hds, trivial⟩
    · rintro ⟨⟨name, hname⟩, h⟩
      refine ⟨name, hname, ?_⟩
      dsimp only
      split
      · exact (ih seen).mpr h
      · obtain ⟨ds, hds, -⟩ := (ih (name.key :: seen)).mpr h
        exact ⟨c :: ds, bind_eq_ok.mpr ⟨ds, hds, rfl⟩, trivial⟩

private theorem gives_paths {files : List SourceFile} :
    Gives (files.mapM fun f => f.path.asIdent) (fun _ => True) ↔ ∀ f ∈ files, f.path.Identifies := by
  rw [gives_mapM_and]
  simp only [Gives, and_true, Json.identifies_iff]

private theorem gives_roots {roots : List Json} {fuel : Nat}
    (hfuel : Json.listWeight (roots.filter fun r => !r.isText) ≤ fuel) :
    Gives (Component.collect fuel (roots.filter fun r => !r.isText))
        (fun cs => ∀ c ∈ cs, c.name.Identifies) ↔
      ∀ root ∈ roots, root.isText = true ∨
        ∀ v, Component.Within root v → v.IsRecordOf Component.Legible := by
  simp only [Component.gives_collect hfuel, Component.gives_identified, List.mem_filter,
    Bool.not_eq_true', and_imp, ← Bool.not_eq_true, or_iff_not_imp_left]

theorem gives_ofJson {fields : List (String × Json)} :
    Gives (ofJson (.record fields)) (fun _ => True) ↔ Legible fields := by
  have hfuel (roots : List Json) (h : (Json.record fields).pickItems ["components"] = .ok roots) :
      Json.listWeight (roots.filter fun r => !r.isText) ≤ (Json.record fields).weight :=
    Nat.le_of_lt (Json.listWeight_pickItems_lt (fun _ => rfl) roots h)
  simp only [legible_iff, Json.firstOffers_iff]
  constructor
  · rintro ⟨p, hp, -⟩
    obtain ⟨roots, hroots, hp⟩ := bind_eq_ok.mp hp
    obtain ⟨cs, hcs, hp⟩ := bind_eq_ok.mp hp
    obtain ⟨records, hrecords, hp⟩ := bind_eq_ok.mp hp
    obtain ⟨files, hfiles, hp⟩ := bind_eq_ok.mp hp
    obtain ⟨flows, hflows, hp⟩ := bind_eq_ok.mp hp
    obtain ⟨transfers, htransfers, hp⟩ := bind_eq_ok.mp hp
    obtain ⟨table, htable, hp⟩ := bind_eq_ok.mp hp
    obtain ⟨paths, hpaths, -⟩ := bind_eq_ok.mp hp
    have hnames := (gives_distinct []).mp ⟨table, htable, trivial⟩
    have hidentified := gives_paths.mp ⟨paths, hpaths, trivial⟩
    refine ⟨⟨roots, hroots, (gives_roots (hfuel roots hroots)).mp ⟨cs, hcs, hnames⟩⟩,
      ⟨records, hrecords, fun r hr => ?_⟩, ⟨flows, hflows, fun v hv => ?_⟩⟩
    · exact SourceFile.gives_ofJson.mp (gives_mapM.mp ⟨files, hfiles, hidentified⟩ r hr)
    · obtain ⟨t, ht⟩ := exists_of_mapM htransfers hv
      exact Transfer.gives_ofJson.mp ⟨t, ht, trivial⟩
  · rintro ⟨⟨roots, hroots, hlegible⟩, ⟨records, hrecords, hfiles⟩, ⟨flows, hflows, htransfers⟩⟩
    obtain ⟨cs, hcs, hnames⟩ := (gives_roots (hfuel roots hroots)).mpr hlegible
    obtain ⟨files, hfiles, hidentified⟩ :=
      gives_mapM.mpr fun r hr => SourceFile.gives_ofJson.mpr (hfiles r hr)
    obtain ⟨transfers, htransfers, -⟩ :=
      gives_mapM.mpr fun v hv => Transfer.gives_ofJson.mpr (htransfers v hv)
    obtain ⟨table, htable, -⟩ := (gives_distinct []).mpr hnames
    obtain ⟨paths, hpaths, -⟩ := gives_paths.mpr hidentified
    refine ⟨⟨table, files, transfers⟩, ?_, trivial⟩
    simp only [ofJson, ofParts, hroots, hcs, hrecords, hfiles, hflows, htransfers, htable, hpaths,
      ok_bind, pure_eq_ok]

end Project

end BusinessAtlas
