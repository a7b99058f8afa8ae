import BusinessAtlas.Proofs.Journey.Finite
import BusinessAtlas.Proofs.Run
import BusinessAtlas.Bundle

/-!
# A report of any facts

A table can be written unless a column of decimal numbers holds an integer beyond the range of
doubles. No table of a report does: its cells are texts, counts and the durations of journeys, and a
column of counts has nothing but counts. So there is a report about every atlas of facts that are what
they are declared to be.
-/

namespace BusinessAtlas

namespace Cell

variable {cells : List Json}

/-- No cell is an integer beyond the range of doubles. -/
def Moderate (cells : List Json) : Prop := ∀ v ∈ cells, ∀ n, v = .number n → n.overflows = false

/-- All cells are integers. -/
def Counts (cells : List Json) : Prop := ∀ v ∈ cells, ∃ n, v = .number (.int n)

theorem exists_text_of_moderate {kind : CellKind} {v : Json}
    (h : ∀ n, v = .number n → n.overflows = false) : ∃ t, text kind v = .ok t := by
  have hdecimal : ∃ t, decimalText v = .ok t := by
    cases v with
    | number n =>
      rw [decimalText, h n rfl]
      exact ⟨_, rfl⟩
    | _ => exact ⟨_, rfl⟩
  unfold text
  split
  · exact ⟨_, rfl⟩
  · exact ⟨_, rfl⟩
  · split
    · exact hdecimal
    · exact ⟨_, rfl⟩

theorem exists_text_of_ne {kind : CellKind} (h : kind ≠ .decimal) (v : Json) :
    ∃ t, text kind v = .ok t := by
  unfold text
  split
  · exact ⟨_, rfl⟩
  · exact ⟨_, rfl⟩
  · rw [if_neg (by simpa using h)]
    exact ⟨_, rfl⟩

theorem columnKind_of_counts (h : Counts cells) : columnKind cells ≠ .decimal := by
  have hrank (kind : CellKind) (hkind : kind.rank ≤ CellKind.whole.rank) :
      ((cells.map Cell.kind).foldl .join kind).rank ≤ CellKind.whole.rank := by
    induction cells generalizing kind with
    | nil => exact hkind
    | cons v rest ih =>
      obtain ⟨⟨n, rfl⟩, hrest⟩ := List.forall_mem_cons.mp h
      refine ih hrest _ ?_
      rw [CellKind.rank_join]
      exact Nat.max_le.mpr ⟨hkind, Nat.le_refl _⟩
  intro hdecimal
  have hle := hrank .truth (by decide)
  rw [columnKind] at hdecimal
  rw [hdecimal] at hle
  exact absurd hle (by decide)

end Cell

/-- The cells of a column can be written. -/
def Column.Writable (cells : List Json) : Prop := Cell.Moderate cells ∨ Cell.Counts cells

theorem Column.exists_ofCells (header : String) {cells : List Json} (h : Writable cells) :
    ∃ c, ofCells header cells = .ok c := by
  have htexts : ∃ texts, cells.mapM (Cell.text (Cell.columnKind cells)) = .ok texts := by
    refine exists_mapM fun v hv => ?_
    rcases h with hmoderate | hcounts
    · exact Cell.exists_text_of_moderate (hmoderate v hv)
    · exact Cell.exists_text_of_ne (Cell.columnKind_of_counts hcounts) v
  obtain ⟨texts, htexts⟩ := htexts
  exact ⟨_, bind_eq_ok.mpr ⟨texts, htexts, rfl⟩⟩

theorem Table.exists_text {ι : Type} (headers : List String) (cells : List (ι → Json)) (items : List ι)
    (hlength : headers.length = cells.length) (h : ∀ cell ∈ cells, Column.Writable (items.map cell)) :
    ∃ t, text headers (items.map fun x => cells.map (· x)) = .ok t := by
  unfold text lines
  split
  · exact ⟨_, rfl⟩
  · refine exists_bind (exists_bind (exists_mapM fun c hc => ?_) fun columns _ => ⟨_, rfl⟩)
      fun lines _ => ⟨_, rfl⟩
    obtain ⟨i, hi, rfl⟩ := List.mem_mapIdx.mp hc
    have hcell : i < cells.length := hlength ▸ hi
    apply Column.exists_ofCells
    rw [List.map_map]
    have hcolumn : ((fun row : List Json => row.getD i .null) ∘ fun x => cells.map (· x)) = cells[i] := by
      funext x
      simp [hcell]
    rw [hcolumn]
    exact h _ (List.getElem_mem hcell)

namespace Column

variable {ι : Type} {items : List ι}

theorem writable_texts {cell : ι → Json} (h : ∀ x ∈ items, (cell x).isText = true) :
    Writable (items.map cell) := by
  refine .inl fun v hv n hn => ?_
  obtain ⟨x, hx, rfl⟩ := List.mem_map.mp hv
  have htext := h x hx
  rw [hn] at htext
  cases htext

theorem writable_counts (count : ι → Nat) : Writable (items.map fun x => .nat (count x)) := by
  refine .inr fun v hv => ?_
  obtain ⟨x, -, rfl⟩ := List.mem_map.mp hv
  exact ⟨_, rfl⟩

end Column

namespace Report

open Column (writable_texts writable_counts)

private theorem exists_capabilities {cs : List Capability} (h : ∀ c ∈ cs, c.Typed) :
    ∃ t, capabilities cs = .ok t := by
  refine exists_bind (Table.exists_text _ [(·.name), (·.value), fun c => .nat c.operations.length,
    fun c => .nat c.components.length] cs rfl ?_) fun t _ => ⟨_, rfl⟩
  simp only [List.forall_mem_cons]
  exact ⟨writable_texts fun c hc => (h c hc).name, writable_texts fun c hc => (h c hc).value,
    writable_counts _, writable_counts _, nofun⟩

private theorem exists_features {fs : List (Feature Number)} (h : ∀ f ∈ fs, f.Typed) :
    ∃ t, features fs = .ok t := by
  refine exists_bind (Table.exists_text _ [(·.name), fun f => .text f.category.name,
    fun f => .nat f.value, fun f => .nat f.complexity, fun f => .nat f.components.length,
    fun f => .nat f.stories.length, fun f => .nat f.metrics.codeLines] fs rfl ?_) fun t _ => ⟨_, rfl⟩
  simp only [List.forall_mem_cons]
  exact ⟨writable_texts fun f hf => (h f hf).name, writable_texts fun f _ => rfl,
    writable_counts _, writable_counts _, writable_counts _, writable_counts _, writable_counts _,
    nofun⟩

private theorem exists_journeys {m : JourneyMap Number}
    (h : ∀ j ∈ m.journeys, j.metrics.duration.overflows = false) : ∃ t, journeys m = .ok t := by
  refine exists_bind (Table.exists_text _ [fun j => .text j.name, fun j => .text j.persona,
    fun j => .nat j.steps.length, fun j => .number j.metrics.duration,
    fun j => .text (j.metrics.complexity.fixed 1 ++ "/10"),
    fun j => .text (number j.metrics.effort ++ "/10")] m.journeys rfl ?_) fun t _ => ⟨_, rfl⟩
  have hdurations : Column.Writable (m.journeys.map fun j => .number j.metrics.duration) := by
    refine .inl fun v hv n hn => ?_
    obtain ⟨j, hj, rfl⟩ := List.mem_map.mp hv
    cases hn
    exact h j hj
  simp only [List.forall_mem_cons]
  exact ⟨writable_texts fun _ _ => rfl, writable_texts fun _ _ => rfl, writable_counts _, hdurations,
    writable_texts fun _ _ => rfl, writable_texts fun _ _ => rfl, nofun⟩

private theorem exists_personas {ps : List Persona} (h : ∀ p ∈ ps, p.Typed) :
    ∃ t, personas ps = .ok t := by
  refine exists_bind (exists_mapM fun p hp => ?_) fun parts _ => ⟨_, rfl⟩
  obtain ⟨goals, hgoals⟩ := Json.exists_joinTexts ", " fun goal hgoal =>
    (h p hp).goals goal (List.mem_of_mem_take hgoal)
  unfold persona
  split
  · exact ⟨_, rfl⟩
  · exact ⟨_, bind_eq_ok.mpr ⟨goals, hgoals, rfl⟩⟩

private theorem exists_entities {es : List Entity} (h : ∀ e ∈ es, e.Typed) :
    ∃ t, entities es = .ok t := by
  refine exists_bind (Table.exists_text _ [(·.name), (·.purpose), fun e => .nat e.attributes.length,
    fun e => .nat e.operations.length] es rfl ?_) fun t _ => ⟨_, rfl⟩
  simp only [List.forall_mem_cons]
  exact ⟨writable_texts fun e he => (h e he).name, writable_texts fun e he => (h e he).purpose,
    writable_counts _, writable_counts _, nofun⟩

private theorem exists_counts (name count : String) (cs : List (String × Nat)) :
    ∃ t, counts [name, count] cs = .ok t := by
  refine Table.exists_text _ [fun c : String × Nat => .text c.1, fun c => .nat c.2] _ rfl ?_
  simp only [List.forall_mem_cons]
  exact ⟨writable_texts fun _ _ => rfl, writable_counts _, nofun⟩

private theorem exists_statistics (s : Statistics Number) : ∃ t, statistics s = .ok t :=
  exists_bind (exists_counts _ _ _) fun _ _ => exists_bind (exists_counts _ _ _) fun _ _ => ⟨_, rfl⟩

private theorem exists_analysis {a : Analysis}
    (h : ∀ s ∈ a.topBy .betweenness, s.1.toJson.isText = true) : ∃ t, analysis a = .ok t := by
  refine exists_bind (exists_counts _ _ _) fun gaps _ => ?_
  dsimp only
  split
  · exact ⟨_, rfl⟩
  · refine exists_bind (Table.exists_text _ [fun s : Ident × Number => s.1.toJson,
      fun s => .text (s.2.fixed 3)] _ rfl ?_) fun t _ => ⟨_, rfl⟩
    simp only [List.forall_mem_cons]
    exact ⟨writable_texts h, writable_texts fun _ _ => rfl, nofun⟩

private theorem exists_domains {ds : List Domain} (h : ∀ d ∈ ds, d.Typed) :
    ∃ t, domains ds = .ok t := by
  refine exists_bind (exists_mapM fun d hd => ?_) fun parts _ => ⟨_, rfl⟩
  refine exists_bind (Json.exists_joinTexts ", " fun word hword => ?_) fun words _ => ⟨_, rfl⟩
  obtain ⟨t, ht, rfl⟩ := List.mem_map.mp hword
  exact h d hd t ht

end Report

theorem perm_of_ranked {scores best : List (Ident × Number)} (h : ranked scores = .ok best) :
    best.Perm scores := by
  unfold ranked at h
  dsimp only at h
  split at h
  · cases h
  · cases h
    exact List.mergeSort_perm _ _

theorem Network.mem_of_centrality {n : Network Number} {results : List MeasureResult}
    (h : n.centrality = .ok results) {r : MeasureResult} (hr : r ∈ results) {s : Ident × Number}
    (hs : s ∈ r.top) : s.1 ∈ n.nodes.map (·.id) := by
  obtain ⟨m, -, hm⟩ := (mem_of_mapM h).mp hr
  obtain ⟨best, hbest, hm⟩ := bind_eq_ok.mp hm
  cases hm
  exact (List.of_mem_zip ((perm_of_ranked hbest).mem_iff.mp (List.mem_of_mem_take hs))).1

namespace Atlas

variable {a : Atlas}

private theorem exists_report_of_parts (hc : a.sources.context.Typed) (hf : a.sources.features.Typed)
    (hj : ∀ j ∈ a.sources.journeys.journeys, j.metrics.duration.overflows = false)
    (htop : ∀ found, a.analysis = some found →
      ∀ s ∈ found.topBy .betweenness, s.1.toJson.isText = true) (source : String)
    (names : List String) : ∃ t, a.report source names = .ok t := by
  unfold report
  refine exists_bind (Report.exists_capabilities hc.capabilities) fun _ _ =>
    exists_bind (Report.exists_features hf.features) fun _ _ =>
    exists_bind (Report.exists_journeys hj) fun _ _ =>
    exists_bind (Report.exists_personas hc.personas) fun _ _ =>
    exists_bind (Report.exists_entities hc.entities) fun _ _ =>
    exists_bind (Report.exists_statistics _) fun _ _ => ?_
  have hdomains := Report.exists_domains hf.domains
  split
  · next found hfound =>
    exact exists_bind (Report.exists_analysis (htop found hfound)) fun _ _ =>
      exists_bind hdomains fun _ _ => ⟨_, rfl⟩
  · exact exists_bind ⟨"", rfl⟩ fun _ _ => exists_bind hdomains fun _ _ => ⟨_, rfl⟩

section

variable {config : Config} {now : Moment} {analyse : Bool} {p : Project} {c : Context Number}

private theorem analysis_of_make (h : make config now analyse p c = .ok a) {found : Analysis}
    (hfound : a.analysis = some found) : a.network.analyse now = .ok found := by
  obtain ⟨sources, -, h⟩ := bind_eq_ok.mp h
  obtain ⟨graph, -, h⟩ := bind_eq_ok.mp h
  obtain ⟨network, -, h⟩ := bind_eq_ok.mp h
  split at h
  · obtain ⟨analysis, hanalysis, h⟩ := bind_eq_ok.mp h
    obtain ⟨other, hother, rfl⟩ := map_eq_ok.mp hanalysis
    cases h
    cases hfound
    exact hother
  · cases h
    cases hfound

private theorem text_of_topBy (hids : ∀ id ∈ c.ids, id.isText = true)
    (h : make config now analyse p c = .ok a) {found : Analysis} (hfound : a.analysis = some found)
    (m : Measure) : ∀ s ∈ found.topBy m, s.1.toJson.isText = true := by
  intro s hs
  obtain ⟨rfl, hsources, hbuilt, hnetwork⟩ := stages_of_make h
  obtain ⟨gaps, -, hanalysis⟩ := bind_eq_ok.mp (analysis_of_make h hfound)
  obtain ⟨results, hresults, hanalysis⟩ := bind_eq_ok.mp hanalysis
  obtain ⟨communities, -, hanalysis⟩ := bind_eq_ok.mp hanalysis
  cases hanalysis
  unfold Analysis.topBy at hs
  dsimp only at hs
  cases hresult : results.find? (·.measure == m) with
  | none =>
    rw [hresult] at hs
    cases hs
  | some r =>
    rw [hresult] at hs
    have hr : r ∈ results := List.mem_of_find?_eq_some hresult
    obtain ⟨v, hv, hid⟩ := List.mem_map.mp (Network.mem_of_centrality hresults hr hs)
    obtain ⟨t, ht⟩ := Graph.text_of_network hsources hids hbuilt hnetwork v hv
    rw [← hid, ht]
    rfl

/-- There is a report about every atlas of facts that are what they are declared to be, as long as no
journey has more steps than a list can have. -/
theorem exists_report {v w : Json} (hv : Project.Declared v) (hw : Context.Declared w)
    (hp : Project.ofJson v = .ok p) (hc : Context.ofJson w = .ok c)
    (h : make config now analyse p c = .ok a)
    (hsteps : ∀ j ∈ a.sources.journeys.journeys, j.steps.length < 2 ^ 60) (source : String)
    (names : List String) : ∃ t, a.report source names = .ok t := by
  obtain ⟨p', hp', hproject⟩ := Project.exists_ofJson hv
  obtain rfl : p' = p := Except.ok.inj (hp'.symm.trans hp)
  obtain ⟨c', hc', hcontext⟩ := Context.exists_ofJson hw
  obtain rfl : c' = c := Except.ok.inj (hc'.symm.trans hc)
  obtain ⟨hsame, hfeatures, hjourneys⟩ := Graph.Sources.stages_of_project (parts_of_make h).1
  obtain ⟨features, hbuilt, htyped⟩ :=
    FeatureMap.exists_build (α := Number) hproject .bundled hcontext.stories hcontext.capabilities
  have hmap : features = a.sources.features :=
    congrArg Progress.state (hbuilt.symm.trans hfeatures)
  refine exists_report_of_parts (hsame ▸ hcontext) (hmap ▸ htyped) (fun j hj => ?_)
    (fun found hfound => text_of_topBy hcontext.ids h hfound .betweenness) source names
  exact (JourneyMap.below_duration_of_build hjourneys hsteps j hj).overflows (by decide)

end

end Atlas

end BusinessAtlas
