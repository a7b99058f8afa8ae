import BusinessAtlas.Proofs.Config.Exports
import BusinessAtlas.Proofs.Files
import BusinessAtlas.Proofs.Report
import Mathlib.Data.List.Count
import Mathlib.Data.List.Nodup
import Mathlib.Logic.Function.Basic

/-!
# The accounts of a bundle

A bundle tells three times what it holds: by the list of its files, by what it leaves on the disk and
by the last section of its report. The three agree, whatever formats the settings list. A format that
is listed again is exported again, to the same file, so the file comes up again in the list and in the
report; no other file comes up twice.
-/

namespace BusinessAtlas

namespace ExportFormat

/-- The format of a name, if it can be exported. -/
def named? (name : String) : Option ExportFormat := all.find? (·.name == name)

variable {f : ExportFormat} {name : String}

theorem named?_eq_some : named? name = some f ↔ f.name = name := by
  constructor
  · intro h
    have hfound := List.find?_some h
    exact eq_of_beq hfound
  · rintro rfl
    cases f <;> rfl

theorem named?_of_planned (h : name ∈ Config.declaredFormats) (hnone : named? name = none) :
    planned.contains name = true := by
  simp only [Config.declaredFormats, List.mem_cons, List.not_mem_nil, or_false] at h
  rcases h with rfl | rfl | rfl | rfl | rfl | rfl
  · cases hnone
  · cases hnone
  · cases hnone
  · rfl
  · rfl
  · rfl

theorem count_filterMap_named? (names : List String) :
    (names.filterMap named?).count f = names.count f.name := by
  induction names with
  | nil => rfl
  | cons name rest ih =>
    cases h : named? name with
    | none =>
      have hne : name ≠ f.name := by
        rintro rfl
        rw [named?_eq_some.mpr rfl] at h
        cases h
      rw [List.filterMap_cons_none h, List.count_cons_of_ne hne, ih]
    | some g =>
      obtain rfl := named?_eq_some.mp h
      have hsame : (g == f) = (g.name == f.name) := by
        cases g <;> cases f <;> rfl
      rw [List.filterMap_cons_some h, List.count_cons, List.count_cons, ih, hsame]

end ExportFormat

namespace OutputFile

theorem find?_name (file : OutputFile) : all.find? (·.name == file.name) = some file := by
  rcases file with _ | _ | _ | (_ | _ | _) | _ | _ | _ <;> rfl

theorem name_injective : Function.Injective name := by
  intro a b h
  have hsame := find?_name a
  rw [h, find?_name b] at hsame
  exact (Option.some.inj hsame).symm

theorem describe_name (file : OutputFile) : describe file.name = file.description := by
  rw [describe, find?_name]
  rfl

/-- The files that are written whatever is exported. -/
def fixed : List OutputFile := [context, mapping, journeys, network, report]

end OutputFile

/-- The line of a report about a file. -/
def Report.fileLine (file : OutputFile) : String :=
  item ("\x60" ++ file.name ++ "\x60: " ++ file.description)

theorem Report.files_eq {outputs : List OutputFile} (h : outputs ≠ []) :
    files (outputs.map OutputFile.name) =
      "\n## Files Generated\n\n" ++ String.join (outputs.map fileLine) := by
  have hnames : (outputs.map OutputFile.name).isEmpty = false := by
    rw [List.isEmpty_map, List.isEmpty_eq_false_iff]
    exact h
  unfold files
  rw [hnames, List.map_map]
  simp only [Function.comp_def, OutputFile.describe_name]
  rfl

/-- What is left on a disk, by file name, after some files are written one after another. -/
def WrittenFile.store (disk : String → Option String) (files : List WrittenFile) :
    String → Option String :=
  files.foldl (fun disk f => Function.update disk f.file.name (some f.text)) disk

namespace WrittenFile

variable {files : List WrittenFile} {disk : String → Option String} {name text : String}

theorem store_of_not_mem (h : name ∉ files.map (·.file.name)) : store disk files name = disk name := by
  induction files generalizing disk with
  | nil => rfl
  | cons f rest ih =>
    obtain ⟨hne, hrest⟩ := not_or.mp (mt List.mem_cons.mpr h)
    exact (ih hrest).trans (Function.update_of_ne hne _ _)

theorem store_of_forall (htext : ∀ f ∈ files, f.file.name = name → f.text = text)
    (h : disk name = some text ∨ name ∈ files.map (·.file.name)) :
    store disk files name = some text := by
  induction files generalizing disk with
  | nil => exact h.resolve_right List.not_mem_nil
  | cons f rest ih =>
    obtain ⟨hf, hrest⟩ := List.forall_mem_cons.mp htext
    refine ih hrest ?_
    dsimp only
    by_cases hname : f.file.name = name
    · exact .inl (by rw [hname, Function.update_self, hf hname])
    · rw [Function.update_of_ne (Ne.symm hname)]
      exact h.imp_right fun h => (List.mem_cons.mp h).resolve_left (Ne.symm hname)

end WrittenFile

namespace Atlas

variable {a : Atlas} {settings : ExportSettings} {names : List String} {files : List WrittenFile}
  {source : String}

/-- The files of a bundle in the order in which they are written. -/
def outputs (a : Atlas) (names : List String) : List OutputFile :=
  [.context, .mapping, .journeys] ++ (names.filterMap ExportFormat.named?).map .graph ++ [.network]
    ++ (if a.analysis.isSome then [.analysis] else []) ++ [.report]

/-- How often a file is written: a graph once for each time that its format is listed, the analysis if
there is one, and any other file once. -/
def times (a : Atlas) (names : List String) : OutputFile → Nat
  | .graph f => names.count f.name
  | .analysis => if a.analysis.isSome then 1 else 0
  | _ => 1

/-- The files of a bundle, the disk and the report are three accounts of what is written. -/
structure Accounts (a : Atlas) (names : List String) (files : List WrittenFile) : Prop where
  order : files.map (·.file) = a.outputs names
  written : ∀ file, file ∈ files.map (·.file) ↔ file ∈ OutputFile.fixed ∨
    (∃ f : ExportFormat, f.name ∈ names ∧ file = .graph f) ∨
    file = .analysis ∧ a.analysis.isSome = true
  times : ∀ file, (files.map (·.file)).count file = a.times names file
  distinct : (files.map (·.file.name)).Nodup ↔ ∀ f : ExportFormat, names.count f.name ≤ 1
  stored : ∀ disk, ∀ f ∈ files, WrittenFile.store disk files f.file.name = some f.text
  kept : ∀ disk name, name ∉ files.map (·.file.name) → WrittenFile.store disk files name = disk name
  /-- The report ends with a line for each file, in the order in which they are written. -/
  report : ∃ body, ∀ f ∈ files, f.file = .report → f.text =
    body ++ ("\n## Files Generated\n\n" ++ String.join (files.map fun g => Report.fileLine g.file))

theorem exportFormats_texts (h : ∀ name ∈ names, name ∈ Config.declaredFormats) :
    exportFormats (names.map .text) = .ok (names.filterMap ExportFormat.named?) := by
  induction names with
  | nil => rfl
  | cons name rest ih =>
    obtain ⟨hname, hrest⟩ := List.forall_mem_cons.mp h
    rw [List.map_cons, exportFormats, ih hrest]
    cases hformat : ExportFormat.named? name with
    | some f =>
      have hread : ExportFormat.ofJson (.text name) = .ok f := by
        unfold ExportFormat.ofJson
        dsimp only
        rw [← ExportFormat.named?, hformat]
      rw [hread, List.filterMap_cons_some hformat]
      rfl
    | none =>
      have hread : ExportFormat.ofJson (.text name) = .error (.unsupportedFormat name) := by
        unfold ExportFormat.ofJson
        dsimp only
        rw [← ExportFormat.named?, hformat]
        dsimp only
        rw [if_pos (ExportFormat.named?_of_planned hname hformat)]
      rw [hread, List.filterMap_cons_none hformat]

theorem exists_dataFiles (h : settings.Lists names) : ∃ files, a.dataFiles settings = .ok files ∧
    files.map (·.file) ++ [.report] = a.outputs names := by
  have hitems : settings.formats.items = .ok (names.map .text) := by
    rw [h.formats]
    rfl
  refine ⟨_, bind_eq_ok.mpr ⟨_, hitems, bind_eq_ok.mpr ⟨_, exportFormats_texts h.declared, rfl⟩⟩, ?_⟩
  cases hanalysis : a.analysis <;> simp [outputs, hanalysis]

theorem exists_body {text : String} (h : a.report source names = .ok text) :
    ∃ body, text = body ++ Report.files names := by
  unfold report at h
  obtain ⟨capabilities, -, h⟩ := bind_eq_ok.mp h
  obtain ⟨features, -, h⟩ := bind_eq_ok.mp h
  obtain ⟨journeys, -, h⟩ := bind_eq_ok.mp h
  obtain ⟨personas, -, h⟩ := bind_eq_ok.mp h
  obtain ⟨entities, -, h⟩ := bind_eq_ok.mp h
  obtain ⟨statistics, -, h⟩ := bind_eq_ok.mp h
  dsimp only at h
  split at h
  all_goals
    obtain ⟨analysis, -, h⟩ := bind_eq_ok.mp h
    obtain ⟨domains, -, h⟩ := bind_eq_ok.mp h
    exact ⟨_, (Except.ok.inj h).symm⟩

theorem mem_outputs {file : OutputFile} : file ∈ a.outputs names ↔
    file ∈ OutputFile.fixed ∨ (∃ f : ExportFormat, f.name ∈ names ∧ file = .graph f) ∨
      file = .analysis ∧ a.analysis.isSome = true := by
  have hgraphs : file ∈ (names.filterMap ExportFormat.named?).map .graph ↔
      ∃ f : ExportFormat, f.name ∈ names ∧ file = .graph f := by
    simp only [List.mem_map, List.mem_filterMap, ExportFormat.named?_eq_some]
    constructor
    · rintro ⟨f, ⟨name, hname, rfl⟩, rfl⟩
      exact ⟨f, hname, rfl⟩
    · rintro ⟨f, hname, rfl⟩
      exact ⟨f, ⟨_, hname, rfl⟩, rfl⟩
  have hanalysis : (file ∈ if a.analysis.isSome then [OutputFile.analysis] else []) ↔
      file = .analysis ∧ a.analysis.isSome = true := by
    split
    · next h => simp [h]
    · next h => simp [h]
  simp only [outputs, OutputFile.fixed, List.mem_append, List.mem_cons, List.not_mem_nil, or_false,
    hgraphs, hanalysis]
  exact iff_of_eq (by ac_rfl)

theorem count_outputs (a : Atlas) (names : List String) (file : OutputFile) :
    (a.outputs names).count file = a.times names file := by
  have hgraph (f : ExportFormat) :
      ((names.filterMap ExportFormat.named?).map OutputFile.graph).count (.graph f) =
        names.count f.name := by
    rw [List.count_map_of_injective _ _ fun _ _ h => OutputFile.graph.inj h,
      ExportFormat.count_filterMap_named?]
  have hother {file : OutputFile} (h : ∀ f, .graph f ≠ file) :
      ((names.filterMap ExportFormat.named?).map OutputFile.graph).count file = 0 := by
    refine List.count_eq_zero.mpr fun hmem => ?_
    obtain ⟨f, -, hf⟩ := List.mem_map.mp hmem
    exact h f hf
  simp only [outputs, List.count_append]
  cases file with
  | graph f =>
    rw [hgraph, times]
    cases a.analysis <;> simp
  | _ =>
    rw [hother (fun _ h => by cases h)]
    unfold times
    cases a.analysis <;> simp

theorem nodup_outputs : (a.outputs names).Nodup ↔ ∀ f : ExportFormat, names.count f.name ≤ 1 := by
  rw [List.nodup_iff_count_le_one]
  simp only [count_outputs]
  constructor
  · exact fun h f => h (.graph f)
  · intro h file
    cases file with
    | graph f => exact h f
    | analysis =>
      unfold times
      dsimp only
      split <;> omega
    | _ => exact Nat.le_refl 1

private theorem text_unique {data : List WrittenFile} (report : String)
    (hdata : a.dataFiles settings = .ok data) : ∀ f ∈ data ++ [⟨.report, report⟩],
      ∀ g ∈ data ++ [⟨.report, report⟩], f.file = g.file → f.text = g.text := by
  have hcontent : ∀ f ∈ data, ∃ v, a.content settings f.file = some v ∧
      f.text = v.render (!settings.prettyPrint.isVacant) := content_of_dataFiles hdata
  have hreport : ∀ f ∈ data, f.file ≠ .report := by
    intro f hf hfile
    obtain ⟨v, hv, -⟩ := hcontent f hf
    rw [hfile] at hv
    cases hv
  simp only [List.forall_mem_append, List.forall_mem_singleton]
  refine ⟨fun f hf => ⟨fun g hg hsame => ?_, fun hsame => absurd hsame (hreport f hf)⟩,
    fun g hg hsame => absurd hsame.symm (hreport g hg), fun _ => trivial⟩
  obtain ⟨v, hv, hf⟩ := hcontent f hf
  obtain ⟨w, hw, hg⟩ := hcontent g hg
  rw [hsame, hw] at hv
  cases hv
  rw [hf, hg]

theorem accounts_of_bundle (hs : settings.Lists names) (h : a.bundle settings source = .ok files) :
    a.Accounts names files := by
  obtain ⟨data, hdata, h⟩ := bind_eq_ok.mp h
  obtain ⟨text, htext, h⟩ := bind_eq_ok.mp h
  cases h
  have horder : (data ++ [⟨.report, text⟩] : List WrittenFile).map (·.file) = a.outputs names := by
    obtain ⟨data', hdata', hfiles⟩ := exists_dataFiles (a := a) hs
    obtain rfl : data' = data := Except.ok.inj (hdata'.symm.trans hdata)
    rw [List.map_append]
    exact hfiles
  have hnames : (data ++ [⟨.report, text⟩] : List WrittenFile).map (·.file.name) =
      (a.outputs names).map OutputFile.name := by
    rw [← horder, List.map_map]
    rfl
  have htexts := text_unique text hdata
  refine ⟨horder, fun file => ?_, fun file => ?_, ?_, fun disk f hf => ?_, fun disk name hname => ?_, ?_⟩
  · rw [horder, mem_outputs]
  · rw [horder, count_outputs]
  · rw [hnames, List.nodup_map_iff OutputFile.name_injective, nodup_outputs]
  · refine WrittenFile.store_of_forall (fun g hg hname => ?_) (.inr (List.mem_map_of_mem hf))
    exact htexts g hg f hf (OutputFile.name_injective hname)
  · exact WrittenFile.store_of_not_mem hname
  · have hsection : Report.files (data.map (·.file.name) ++ [OutputFile.report.name]) =
        "\n## Files Generated\n\n" ++ String.join ((a.outputs names).map Report.fileLine) := by
      have hsome : a.outputs names ≠ [] := by simp [outputs]
      rw [← Report.files_eq hsome, ← hnames, List.map_append]
      rfl
    obtain ⟨body, hbody⟩ := exists_body htext
    refine ⟨body, fun f hf hfile => ?_⟩
    rw [htexts f hf ⟨.report, text⟩ (List.mem_append_right data List.mem_cons_self) hfile]
    rw [hsection, ← horder, List.map_map] at hbody
    exact hbody

section

variable {v w : Json} {p : Project} {c : Context Number} {config : Config} {now : Moment}
  {analyse : Bool}

theorem exists_bundle (hs : settings.Lists names) (hreport : ∀ names, ∃ t, a.report source names = .ok t) :
    ∃ files, a.bundle settings source = .ok files := by
  obtain ⟨data, hdata, -⟩ := exists_dataFiles (a := a) hs
  obtain ⟨text, htext⟩ := hreport (data.map (·.file.name) ++ [OutputFile.report.name])
  exact ⟨_, bind_eq_ok.mpr ⟨data, hdata, bind_eq_ok.mpr ⟨text, htext, rfl⟩⟩⟩

/-- Settings that are loaded by any reader list declared formats, and whatever declared formats are listed, the
bundle of an atlas of facts that are what they are declared to be is written. Its list of files, the
disk and the report agree on it: the fixed files, the analysis if there is one, and the graph in every
listed format that can be exported, once for each time that it is listed. So the files are distinct
exactly if no such format is listed twice. -/
theorem accounts_of_lists (hv : Project.Declared v) (hw : Context.Declared w)
    (hp : Project.ofJson v = .ok p) (hc : Context.ofJson w = .ok c)
    (h : make config now analyse p c = .ok a)
    (hsteps : ∀ j ∈ a.sources.journeys.journeys, j.steps.length < 2 ^ 60) :
    (∀ (ε : Type) (reader : Yaml.Reader ε) file loaded,
      Config.loadBy reader file = .ok loaded → ∃ names, loaded.exports.Lists names) ∧
    ∀ settings names source, settings.Lists names →
      ∃ files, a.bundle settings source = .ok files ∧ a.Accounts names files := by
  refine ⟨fun ε reader file loaded => Config.lists_of_load, fun settings names source hlists => ?_⟩
  obtain ⟨files, hfiles⟩ :=
    exists_bundle hlists fun names => exists_report hv hw hp hc h hsteps source names
  exact ⟨files, hfiles, accounts_of_bundle hlists hfiles⟩

end

section

/-- A page that is submitted. -/
private def orderFacts : Json := .record [("components", .list [.record [
  ("name", .text "OrderPage"), ("props", .list [.text "onSubmit"])]])]

/-- A capability that is realised on the page, an entity and a persona with goals. -/
private def orderNeeds : Json := .record [
  ("capabilities", .list [.record [("id", .text "orders"), ("name", .text "Orders"),
    ("components", .list [.text "OrderPage"])]]),
  ("dataModel", .list [.record [("name", .text "Order")]]),
  ("personas", .list [.record [("id", .text "buyer"), ("goals", .list [.text "Buy", .text "Return"])]])]

private theorem declared_orderFacts : Project.Declared orderFacts := ⟨1, by decide +kernel⟩

private theorem declared_orderNeeds : Context.Declared orderNeeds where
  shape := by decide +kernel
  confidences stories h s hs := by
    cases h
    cases hs

private def lunch : Moment := ⟨2024, 1, 2, 12, 30, 0, 0⟩

private theorem exists_order : ∃ p c a, Project.ofJson orderFacts = .ok p ∧
    Context.ofJson orderNeeds = .ok c ∧ make .default lunch false p c = .ok a ∧ a.analysis = none ∧
    ∀ j ∈ a.sources.journeys.journeys, j.steps.length < 2 ^ 60 := by
  obtain ⟨a, hrun, ha⟩ := exists_of_any (show ((Project.ofJson orderFacts >>= fun p =>
      Context.ofJson orderNeeds >>= fun c => make .default lunch false p c).toOption.any fun a =>
        a.analysis.isNone && a.sources.journeys.journeys.all fun j => decide (j.steps.length < 2 ^ 60)) =
      true by decide +kernel)
  obtain ⟨p, hp, hrun⟩ := bind_eq_ok.mp hrun
  obtain ⟨c, hc, hrun⟩ := bind_eq_ok.mp hrun
  simp only [Bool.and_eq_true, Option.isNone_iff_eq_none, List.all_eq_true, decide_eq_true_iff] at ha
  exact ⟨p, c, a, hp, hc, hrun, ha.1, ha.2⟩

private def namesIn : Json → List String
  | .list items => items.map Json.shown
  | _ => []

/-- A file of settings that list formats. -/
private def formatsEntry (formats : String) : Entry :=
  .file ("export:\n  formats: [" ++ formats ++ "]").toUTF8

private def isLoaded (formats : String) (names : List String) : Bool :=
  (Config.load (some ("atlas.yaml", formatsEntry formats))).toOption.any fun config =>
    namesIn config.exports.formats == names

private theorem lists_of_isLoaded (formats : String) (names : List String)
    (h : isLoaded formats names = true) : ∃ config,
      Config.load (some ("atlas.yaml", formatsEntry formats)) = .ok config ∧
      config.exports.Lists names := by
  obtain ⟨config, hload, hnames⟩ := exists_of_any h
  obtain ⟨found, hlists⟩ := Config.lists_of_load (Config.load_eq_ok.mp hload)
  rw [hlists.formats] at hnames
  have hfound : namesIn (.texts found) = found := by
    simp [namesIn, Json.texts, Function.comp_def, Json.shown]
  rw [hfound] at hnames
  exact ⟨config, hload, eq_of_beq hnames ▸ hlists⟩

/-- A format that cannot be exported is passed over. -/
theorem accounts_of_lists_order : ∃ (p : Project) (c : Context Number) (config : Config) (a : Atlas)
      (files : List WrittenFile),
    Project.ofJson orderFacts = .ok p ∧ Context.ofJson orderNeeds = .ok c ∧
    make .default lunch false p c = .ok a ∧
    Config.load (some ("atlas.yaml", formatsEntry "json, gexf, d3")) = .ok config ∧
    a.bundle config.exports "facts.json" = .ok files ∧
    files.map (·.file) =
      [.context, .mapping, .journeys, .graph .json, .graph .d3, .network, .report] ∧
    (files.map (·.file.name)).Nodup := by
  obtain ⟨p, c, a, hp, hc, ha, hnone, hsteps⟩ := exists_order
  obtain ⟨config, hload, hlists⟩ := lists_of_isLoaded "json, gexf, d3" ["json", "gexf", "d3"]
    (by decide +kernel)
  obtain ⟨files, hfiles, haccounts⟩ := (accounts_of_lists declared_orderFacts declared_orderNeeds hp hc
    ha hsteps).2 config.exports ["json", "gexf", "d3"] "facts.json" hlists
  refine ⟨p, c, config, a, files, hp, hc, ha, hload, hfiles, ?_,
    haccounts.distinct.mpr fun f => ?_⟩
  · rw [haccounts.order, outputs, hnone]
    rfl
  · cases f <;> decide

/-- Settings that list a format twice are accepted, and the file of its graph is written twice. -/
theorem not_nodup_order : ∃ (p : Project) (c : Context Number) (config : Config) (a : Atlas)
      (files : List WrittenFile),
    Project.ofJson orderFacts = .ok p ∧ Context.ofJson orderNeeds = .ok c ∧
    make .default lunch false p c = .ok a ∧
    Config.load (some ("atlas.yaml", formatsEntry "json, json")) = .ok config ∧
    a.bundle config.exports "facts.json" = .ok files ∧ ¬(files.map (·.file.name)).Nodup := by
  obtain ⟨p, c, a, hp, hc, ha, hnone, hsteps⟩ := exists_order
  obtain ⟨config, hload, hlists⟩ := lists_of_isLoaded "json, json" ["json", "json"]
    (by decide +kernel)
  obtain ⟨files, hfiles⟩ := exists_bundle hlists fun names =>
    exists_report declared_orderFacts declared_orderNeeds hp hc ha hsteps "facts.json" names
  refine ⟨p, c, config, a, files, hp, hc, ha, hload, hfiles, fun hnodup => ?_⟩
  have hcount := (accounts_of_bundle hlists hfiles).distinct.mp hnodup .json
  exact absurd hcount (by decide)

end

end Atlas

end BusinessAtlas
