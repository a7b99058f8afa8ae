import BusinessAtlas.CommandLine.Session
import BusinessAtlas.Outcome
import BusinessAtlas.Proofs.Graph.Found
import BusinessAtlas.Proofs.Network.Finite

/-!
# Written files

The files of data of a run, and when they are JSON texts. A file is one exactly if all numbers in the
value that it shows are finite, and this holds of every file but the analysis if the facts and the
settings are finite and of moderate size.
-/

namespace BusinessAtlas

/-- The titles of the settings are finite, and no number of the layout is so large that placing the
nodes leaves the range of a double. -/
structure Config.Moderate (c : Config) : Prop where
  title : c.title.Finite
  description : c.description.Finite
  layout : c.layout.Bounded 800

theorem Config.moderate_default : Config.default.Moderate := by
  have hplace {n : Nat} (h : n < 2 ^ 10) : (Json.number (.int n)).Bounded 800 :=
    Json.bounded_number.mpr ((Number.below_nat h).mono (by decide))
  exact ⟨Json.finite_text _, Json.finite_text _, hplace (n := 1000) (by decide),
    hplace (n := 150) (by decide), hplace (n := 100) (by decide), hplace (n := 100) (by decide)⟩

/-- No list of the atlas is longer than any list can be. -/
structure Atlas.Sized (a : Atlas) : Prop where
  nodes : a.graph.arena.nodes.length < 2 ^ 60
  edges : a.graph.arena.edges.length < 2 ^ 60
  domains : ∀ d ∈ a.sources.features.domains, d.features.length < 2 ^ 60
  journeys : a.sources.journeys.journeys.length < 2 ^ 60
  steps : ∀ j ∈ a.sources.journeys.journeys, j.steps.length < 2 ^ 60

instance : DecidablePred Atlas.Sized := fun a =>
  decidable_of_iff (a.graph.arena.nodes.length < 2 ^ 60 ∧ a.graph.arena.edges.length < 2 ^ 60 ∧
      (∀ d ∈ a.sources.features.domains, d.features.length < 2 ^ 60) ∧
      a.sources.journeys.journeys.length < 2 ^ 60 ∧
      ∀ j ∈ a.sources.journeys.journeys, j.steps.length < 2 ^ 60)
    ⟨fun ⟨h₁, h₂, h₃, h₄, h₅⟩ => ⟨h₁, h₂, h₃, h₄, h₅⟩,
      fun h => ⟨h.nodes, h.edges, h.domains, h.journeys, h.steps⟩⟩

/-- The value that a file of data shows. -/
def Atlas.content (a : Atlas) (settings : ExportSettings) : OutputFile → Option Json
  | .context => some a.sources.context.toJson
  | .mapping => some a.sources.features.toJson
  | .journeys => some a.sources.journeys.toJson
  | .graph f => some (a.graph.exported f (!settings.includeMetadata.isVacant)
      (!settings.includePositions.isVacant))
  | .network => some a.network.toJson
  | .analysis => a.analysis.map Analysis.toJson
  | .report => none

namespace Atlas

variable {a : Atlas} {settings : ExportSettings} {files : List WrittenFile}

theorem content_of_dataFiles (h : a.dataFiles settings = .ok files) :
    ∀ f ∈ files, ∃ v, a.content settings f.file = some v ∧
      f.text = v.render (!settings.prettyPrint.isVacant) := by
  obtain ⟨items, -, h⟩ := bind_eq_ok.mp h
  obtain ⟨formats, -, h⟩ := bind_eq_ok.mp h
  cases h
  intro f hf
  simp only [List.mem_append, List.mem_cons, List.not_mem_nil, or_false, List.mem_map,
    Option.mem_toList, Option.map_eq_some_iff] at hf
  rcases hf with (((rfl | rfl | rfl) | ⟨format, -, rfl⟩) | rfl) | ⟨found, hfound, rfl⟩
  · exact ⟨_, rfl, rfl⟩
  · exact ⟨_, rfl, rfl⟩
  · exact ⟨_, rfl, rfl⟩
  · exact ⟨_, rfl, rfl⟩
  · exact ⟨_, rfl, rfl⟩
  · exact ⟨_, by rw [content, hfound]; rfl, rfl⟩

theorem content_of_bundle {source : String} (h : a.bundle settings source = .ok files) :
    ∀ f ∈ files, f.file = .report ∨ ∃ v, a.content settings f.file = some v ∧
      f.text = v.render (!settings.prettyPrint.isVacant) := by
  obtain ⟨data, hdata, h⟩ := bind_eq_ok.mp h
  obtain ⟨report, -, h⟩ := bind_eq_ok.mp h
  cases h
  intro f hf
  rcases List.mem_append.mp hf with hf | hf
  · exact .inr (content_of_dataFiles hdata f hf)
  · rw [List.mem_singleton.mp hf]
    exact .inl rfl

section

variable {config : Config} {now : Moment} {analyse : Bool} {p : Project} {c : Context Number}

theorem bounded_sources (h : make config now analyse p c = .ok a)
    (hp : ∀ x ∈ p.components, x.Finite) (hc : c.Finite)
    (hconfidence : ∀ x ∈ c.stories, x.confidence.Below 800) (hsized : a.Sized) :
    a.sources.Bounded := by
  obtain ⟨hcontext, hfeatures, hjourneys⟩ := Graph.Sources.stages_of_project (parts_of_make h).1
  have hfinite := FeatureMap.finite_of_build hp hc.capabilities hfeatures
  exact ⟨hcontext.symm ▸ hc, hcontext.symm ▸ hconfidence, hfinite, hsized.domains,
    JourneyMap.finite_of_build hfinite.mappings hjourneys hsized.steps, hsized.journeys⟩

theorem finite_content (h : make config now analyse p c = .ok a)
    (hp : ∀ x ∈ p.components, x.Finite) (hc : c.Finite)
    (hconfidence : ∀ x ∈ c.stories, x.confidence.Below 800) (hconfig : config.Moderate)
    (hsized : a.Sized) {file : OutputFile} {v : Json} (hfile : file ≠ .analysis)
    (hv : a.content settings file = some v) : v.Finite := by
  obtain ⟨-, hbuilt, hnetwork⟩ := parts_of_make h
  have hsources := bounded_sources h hp hc hconfidence hsized
  have hgraph := Graph.bounded_of_build hsources hconfig.title hconfig.description hconfig.layout
    hbuilt hsized.nodes hsized.edges
  cases file with
  | context => cases hv; exact hsources.context.toJson
  | mapping => cases hv; exact hsources.features.toJson
  | journeys => cases hv; exact JourneyMap.finite_toJson hsources.journeys
  | graph f => cases hv; exact hgraph.exported f
  | network => cases hv; exact (Network.finite_ofGraph hgraph _ hnetwork).toJson
  | analysis => exact absurd rfl hfile
  | report => cases hv

end

end Atlas

namespace Session

variable {ε : Type} {reader : Yaml.Reader ε}

theorem parts_of_run {args : List String} {now : Moment} {look : String → Entry} {s : Session}
    {directory : String} {files : List WrittenFile} (h : runBy reader args now look = .ok s)
    (hs : s.ending = .written directory files) :
    ∃ a config p c atlas, Arguments.read args = .ok a ∧
      Config.loadBy reader (a.config.map fun path => (path, look path)) = .ok config ∧
      Document.loadFacts a.facts (look a.facts) = .ok (p, c) ∧
      Atlas.make (a.adjust config) now a.analyse p c = .ok atlas ∧
      atlas.bundle (a.adjust config).exports a.facts = .ok files := by
  unfold runBy at h
  split at h
  · cases h
    cases hs
  · next a ha =>
    unfold follow at h
    split at h
    · cases h
      cases hs
    · cases h
    · next config hconfig =>
      have h := mapError_eq_ok.mp h
      unfold proceed at h
      split at h
      · next p c hfacts =>
        obtain ⟨atlas, hatlas, h⟩ := bind_eq_ok.mp h
        obtain ⟨-, -, h⟩ := bind_eq_ok.mp h
        obtain ⟨found, hbundle, h⟩ := bind_eq_ok.mp h
        cases h
        cases hs
        exact ⟨a, config, p, c, atlas, ha, hconfig, hfacts, hatlas, hbundle⟩
      · split at h
        · cases h
          cases hs
        · cases h

theorem exists_run {args : List String} {now : Moment} {look : String → Entry} {a : Arguments}
    {config : Config} {p : Project} {c : Context Number} {atlas : Atlas} {files : List WrittenFile}
    (ha : Arguments.read args = .ok a)
    (hconfig : Config.loadBy reader (a.config.map fun path => (path, look path)) = .ok config)
    (hfacts : Document.loadFacts a.facts (look a.facts) = .ok (p, c))
    (hatlas : Atlas.make (a.adjust config) now a.analyse p c = .ok atlas)
    (hlook : checkOutput (Path.normal a.outputDir) (look a.outputDir) = .ok ())
    (hfiles : atlas.bundle (a.adjust config).exports a.facts = .ok files) :
    ∃ s, runBy reader args now look = .ok s ∧
      s.ending = .written (Path.normal a.outputDir) files := by
  have hbuild : ∃ s, build a now look config p c = .ok s ∧
      s.ending = .written (Path.normal a.outputDir) files := by
    unfold build
    dsimp only
    rw [hatlas, ok_bind, hlook, ok_bind, hfiles]
    exact ⟨_, rfl, rfl⟩
  obtain ⟨s, hs, hending⟩ := hbuild
  refine ⟨s, ?_, hending⟩
  rw [runBy_eq_follow ha, follow, hconfig]
  dsimp only
  rw [proceed, hfacts]
  exact mapError_eq_ok.mpr hs

/-- Every file of data that a run writes, with whatever reader for settings, is a JSON text exactly if all numbers that it shows are
finite. So is every such file but the analysis if the facts are finite, no story is too sure or too
unsure, and the settings and lists are of moderate size. -/
theorem strict_run {args : List String} {now : Moment} {look : String → Entry} {s : Session}
    {directory : String} {files : List WrittenFile} (h : runBy reader args now look = .ok s)
    (hs : s.ending = .written directory files) :
    ∃ a config facts p c atlas, Arguments.read args = .ok a ∧
      Config.loadBy reader (a.config.map fun path => (path, look path)) = .ok config ∧
      Document.load Document.factsLabel a.facts (look a.facts) = .ok facts ∧
      Document.loadFacts a.facts (look a.facts) = .ok (p, c) ∧
      Atlas.make (a.adjust config) now a.analyse p c = .ok atlas ∧
      (∀ f ∈ files, f.file = .report ∨
        ∃ v, atlas.content (a.adjust config).exports f.file = some v ∧
          (Json.Strict f.text ↔ v.Finite)) ∧
      (facts.Finite → (∀ x ∈ c.stories, x.confidence.Below 800) → config.Moderate → atlas.Sized →
        ∀ f ∈ files, f.file = .report ∨ f.file = .analysis ∨ Json.Strict f.text) := by
  obtain ⟨a, config, p, c, atlas, ha, hconfig, hfacts, hatlas, hbundle⟩ := parts_of_run h hs
  obtain ⟨facts, hload, hread⟩ := bind_eq_ok.mp hfacts
  have hstrict : ∀ f ∈ files, f.file = .report ∨
      ∃ v, atlas.content (a.adjust config).exports f.file = some v ∧
        (Json.Strict f.text ↔ v.Finite) := by
    intro f hf
    refine (Atlas.content_of_bundle hbundle f hf).imp_right ?_
    rintro ⟨v, hv, htext⟩
    exact ⟨v, hv, htext ▸ Json.strict_render _ v⟩
  refine ⟨a, config, facts, p, c, atlas, ha, hconfig, hload, hfacts, hatlas, hstrict, ?_⟩
  intro hfinite hconfidence hmoderate hsized f hf
  refine (hstrict f hf).imp_right ?_
  rintro ⟨v, hv, hiff⟩
  by_cases hfile : f.file = .analysis
  · exact .inl hfile
  · obtain ⟨-, -, hread⟩ := bind_eq_ok.mp hread
    obtain ⟨project, hproject, hread⟩ := bind_eq_ok.mp hread
    obtain ⟨context, hcontext, hread⟩ := bind_eq_ok.mp hread
    cases hread
    have hadjusted : (a.adjust config).Moderate :=
      ⟨hmoderate.title, hmoderate.description, hmoderate.layout⟩
    exact .inr (hiff.mpr (Atlas.finite_content hatlas (Project.finite_ofJson hfinite p hproject)
      (Context.finite_ofFacts hfinite c hcontext) hconfidence hadjusted hsized hfile hv))

section

private def plainArgs : List String := ["facts.json"]

private def quickArgs : List String := ["facts.json", "--compact", "--formats", "d3", "--no-positions"]

private def openingMinute : Moment := ⟨2024, 1, 2, 3, 4, 5, 0⟩

private def lookFor (facts path : String) : Entry :=
  if path == "facts.json" then .file facts.toUTF8 else .nothing

/-- A run over the facts of one story without edges, of which only the order of the counted kinds is
left open. -/
private def goesThrough (args : List String) (facts : String) (good : List WrittenFile → Bool) : Bool :=
  (Arguments.read args).toOption.any fun a =>
  (Config.loadBy Yaml.reader (a.config.map fun path => (path, lookFor facts path))).toOption.any
    fun config =>
  (Document.loadFacts a.facts (lookFor facts a.facts)).toOption.any fun pc =>
  (Atlas.make (a.adjust config) openingMinute a.analyse pc.1 pc.2).toOption.any fun atlas =>
  (checkOutput (Path.normal a.outputDir) (lookFor facts a.outputDir)).toOption.isSome &&
  (atlas.dataFiles (a.adjust config).exports).toOption.any good &&
  (Report.capabilities atlas.sources.context.capabilities).toOption.isSome &&
  (Report.features atlas.sources.features.features).toOption.isSome &&
  (Report.journeys atlas.sources.journeys).toOption.isSome &&
  (Report.personas atlas.sources.context.personas).toOption.isSome &&
  (Report.entities atlas.sources.context.entities).toOption.isSome &&
  (Report.domains atlas.sources.features.domains).toOption.isSome &&
  atlas.graph.statistics.nodesByKind == [(.story, 1)] &&
  atlas.graph.statistics.edgesByKind == [] && atlas.analysis.isNone

private theorem exists_of_goesThrough {args : List String} {facts : String}
    {good : List WrittenFile → Bool} (h : goesThrough args facts good = true) :
    ∃ s directory data report,
      run args openingMinute (lookFor facts) = .ok s ∧ good data = true ∧
      s.ending = .written directory (data ++ [⟨.report, report⟩]) := by
  unfold goesThrough at h
  obtain ⟨a, ha, h⟩ := exists_of_any h
  obtain ⟨config, hconfig, h⟩ := exists_of_any h
  obtain ⟨⟨p, c⟩, hfacts, h⟩ := exists_of_any h
  obtain ⟨atlas, hatlas, h⟩ := exists_of_any h
  simp only [Bool.and_eq_true, beq_iff_eq, Option.isSome_iff_exists, toOption_eq_some,
    Option.isNone_iff_eq_none] at h
  obtain ⟨⟨⟨⟨⟨⟨⟨⟨⟨⟨⟨u, hlook⟩, hdata⟩, r₁, hr₁⟩, r₂, hr₂⟩, r₃, hr₃⟩, r₄, hr₄⟩, r₅, hr₅⟩, r₆, hr₆⟩,
    hnodes⟩, hedges⟩, hanalysis⟩ := h
  obtain ⟨data, hdata, hgood⟩ := exists_of_any hdata
  -- The counted kinds are sorted by a well-founded recursion, which no evaluation opens; with one kind
  -- there is nothing to sort.
  have hstatistics : ∃ t, Report.statistics atlas.graph.statistics = .ok t := by
    unfold Report.statistics Report.counts
    rw [hnodes, hedges]
    simp only [List.map_cons, List.map_nil, List.mergeSort_singleton, List.mergeSort_nil]
    exact ⟨_, rfl⟩
  obtain ⟨r₇, hr₇⟩ := hstatistics
  have hreport (source : String) (names : List String) :
      ∃ t, atlas.report source names = .ok t := by
    unfold Atlas.report
    rw [hr₁, hr₂, hr₃, hr₄, hr₅, hr₆, hr₇, hanalysis]
    exact ⟨_, rfl⟩
  obtain ⟨report, hreport⟩ := hreport a.facts (data.map (·.file.name) ++ [OutputFile.report.name])
  have hbundle : atlas.bundle (a.adjust config).exports a.facts = .ok (data ++ [⟨.report, report⟩]) :=
    bind_eq_ok.mpr ⟨data, hdata, bind_eq_ok.mpr ⟨report, hreport, rfl⟩⟩
  obtain ⟨s, hrun, hending⟩ := exists_run ha hconfig hfacts hatlas hlook hbundle
  exact ⟨s, _, data, report, run_eq_ok.mpr hrun, hgood, hending⟩

/-- One story, of which nothing is said that is unsure. -/
private def sureFacts : String := "\x7b\"businessContext\": \x7b\"userStories\": " ++
  "[\x7b\"id\": \"pay\", \"title\": \"Pay\", \"confidence\": 0.5\x7d]\x7d\x7d"

/-- One story, of which nothing is as unsure. -/
private def doubtFacts : String := "\x7b\"businessContext\": \x7b\"userStories\": " ++
  "[\x7b\"id\": \"pay\", \"title\": \"Pay\", \"confidence\": \"-inf\"\x7d]\x7d\x7d"

/-- The facts are finite, their one story is half sure, and the settings are the defaults. -/
private def isModerate (args : List String) (facts : String) : Bool :=
  (Arguments.read args).toOption.all fun a => a.config.isNone &&
  (Document.load Document.factsLabel a.facts (lookFor facts a.facts)).toOption.all Json.isFinite &&
  (Document.loadFacts a.facts (lookFor facts a.facts)).toOption.all fun pc =>
  (pc.2.stories.all fun x => decide (x.confidence.Below 1)) &&
  (Atlas.make (a.adjust default) openingMinute a.analyse pc.1 pc.2).toOption.all fun atlas =>
  decide atlas.Sized

/-- A run over a story that is half sure writes nothing but JSON texts and the report. -/
theorem strict_run_sure : ∃ s directory files,
    run plainArgs openingMinute (lookFor sureFacts) = .ok s ∧ s.ending = .written directory files ∧
      ∀ f ∈ files, f.file = .report ∨ Json.Strict f.text := by
  have h : goesThrough plainArgs sureFacts (fun files => files.all (·.file != .analysis)) = true := by
    decide +kernel
  have hmoderate : isModerate plainArgs sureFacts = true := by decide +kernel
  obtain ⟨s, directory, data, report, hrun, hnone, hending⟩ := exists_of_goesThrough h
  obtain ⟨a, config, facts, p, c, atlas, ha, hconfig, hload, hfacts, hatlas, -, hstrict⟩ :=
    strict_run (run_eq_ok.mp hrun) hending
  simp only [isModerate, ha, Except.toOption, Option.all_some, Bool.and_eq_true, hload, hfacts,
    Option.isNone_iff_eq_none] at hmoderate
  obtain ⟨⟨hunset, hfinite⟩, hsure, hmade⟩ := hmoderate
  rw [hunset] at hconfig
  obtain rfl : default = config := Except.ok.inj hconfig
  rw [hatlas] at hmade
  have hsized : atlas.Sized := of_decide_eq_true hmade
  have hconfidence : ∀ x ∈ c.stories, x.confidence.Below 800 := fun x hx =>
    Number.Below.mono (of_decide_eq_true (List.all_eq_true.mp hsure x hx)) (by decide)
  have hfiles := hstrict ((Json.isFinite_iff facts).mp hfinite) hconfidence Config.moderate_default
    hsized
  refine ⟨s, directory, _, hrun, hending, fun f hf => ?_⟩
  rcases hfiles f hf with hfile | hfile | htext
  · exact .inl hfile
  · rcases List.mem_append.mp hf with hf | hf
    · exact absurd hfile (by simpa using List.all_eq_true.mp hnone f hf)
    · exact .inl (by rw [List.mem_singleton.mp hf])
  · exact .inr htext

/-- A run over a story with an infinite confidence ends well and writes a file that is no JSON
text. -/
theorem not_strict_run_doubt : ∃ s directory files,
    run quickArgs openingMinute (lookFor doubtFacts) = .ok s ∧ s.status = 0 ∧
      s.ending = .written directory files ∧
      ∃ f ∈ files, f.file = .graph .d3 ∧ ¬Json.Strict f.text := by
  have h : goesThrough quickArgs doubtFacts (fun files => files.any fun f =>
      f.file == .graph .d3 && (Json.Strict.bare .outside f.text.toList).contains 'I') = true := by
    decide +kernel
  obtain ⟨s, directory, data, report, hrun, hword, hending⟩ := exists_of_goesThrough h
  obtain ⟨f, hf, hword⟩ := List.any_eq_true.mp hword
  simp only [Bool.and_eq_true, beq_iff_eq, List.contains_iff_mem] at hword
  exact ⟨s, directory, _, hrun, by rw [status, hending], hending, f, List.mem_append_left _ hf,
    hword.1, fun hstrict => hstrict.wordless.2 hword.2⟩

end

end Session

end BusinessAtlas
