import BusinessAtlas.CommandLine.Session
import BusinessAtlas.Proofs.Config.Sections
import BusinessAtlas.Proofs.Yaml.Settled

/-!
# Settings files

What a settings file can lead to, by whatever reader it is read. A document that the reader refuses,
that is no mapping or that does not have the shape of settings is refused with a complaint, and what
is not refused is read. A directory, bytes that are no text and a reader that breaks off are not
answered for: they stop the run.
-/

namespace BusinessAtlas

namespace Config

theorem ofDocument_of_vacant (path : String) {doc : Yaml} (h : doc.isVacant = true) :
    ofDocument path doc = ofDocument path (.mapping []) := by
  unfold ofDocument
  rw [if_pos h]
  rfl

/-- A mapping is refused with a complaint, or it has its shape and is read. -/
theorem ofDocument_mapping (path : String) (pairs : List (Yaml × Yaml)) :
    (∃ fault, ofDocument path (.mapping pairs) = .error (.config fault)) ∨
      schema.accepts (.record (Yaml.pairsToJson pairs)) = true ∧
        ofDocument path (.mapping pairs) = ofJson (.record (Yaml.pairsToJson pairs)) := by
  have hdoc : (if (Yaml.mapping pairs).isVacant then .mapping [] else .mapping pairs) =
      Yaml.mapping pairs := by
    cases pairs <;> rfl
  unfold ofDocument
  rw [hdoc]
  dsimp only
  cases hworst : Json.Violation.worst (schema.violations (Yaml.mapping pairs).toJson) with
  | some v => exact .inl ⟨_, rfl⟩
  | none =>
    have hnone := (Json.Violation.worst_eq_none_iff _).mp hworst
    exact .inr ⟨List.isEmpty_iff.mpr hnone, rfl⟩

private theorem ofDocument_of_nodup (path : String) {pairs : List (Yaml × Yaml)}
    (hkeys : (Json.keys (Yaml.pairsToJson pairs)).Nodup) :
    (∃ c, ofDocument path (.mapping pairs) = .ok c) ∨
      ∃ fault, ofDocument path (.mapping pairs) = .error (.config fault) := by
  rcases ofDocument_mapping path pairs with hrefused | ⟨hshape, hread⟩
  · exact .inr hrefused
  · rw [hread]
    exact .inl (exists_ofJson hkeys hshape)

theorem ofDocument_settled (path : String) (doc : Yaml) :
    (∃ c, ofDocument path doc.settled = .ok c) ∨
      ∃ fault, ofDocument path doc.settled = .error (.config fault) := by
  cases hvacant : doc.settled.isVacant with
  | true =>
    rw [ofDocument_of_vacant path hvacant]
    exact ofDocument_of_nodup path List.nodup_nil
  | false =>
    cases hdoc : doc.settled with
    | mapping pairs => exact ofDocument_of_nodup path (Yaml.nodup_keys_of_settled hdoc)
    | _ =>
      rw [hdoc] at hvacant
      unfold ofDocument
      rw [hvacant]
      exact .inr ⟨_, rfl⟩

section

variable {ε : Type} {reader : Yaml.Reader ε} {file : Option (String × Entry)}

/-- The settings are loaded, or they are refused with a complaint. -/
def Settles (outcome : Except (Halt ε) Config) : Prop :=
  (∃ c, outcome = .ok c) ∨ ∃ fault, outcome = .error (.fault (.config fault))

/-- There is no file, or it holds a document that the reader reads or refuses. -/
def Readable (reader : Yaml.Reader ε) : Option (String × Entry) → Prop
  | some (_, .file bytes) =>
    (∃ doc, reader.ofBytes bytes = .ok doc) ∨ reader.ofBytes bytes = .error .malformed
  | some (_, .directory) => False
  | some (_, .nothing) | some (_, .behindFile) | none => True

/-- What stops the loading of settings and is not answered for. -/
inductive Stray (reader : Yaml.Reader ε) : Option (String × Entry) → Halt ε → Prop where
  | directory {path} :
    Stray reader (some (path, .directory)) (.fault (.directory (Path.normal path)))
  | undecodable {path bytes} : reader.ofBytes bytes = .error .undecodable →
    Stray reader (some (path, .file bytes)) (.fault .undecodable)
  | broken {path bytes fault} : reader.ofBytes bytes = .error (.broken fault) →
    Stray reader (some (path, .file bytes)) (.broken fault)

theorem loadBy_of_stray {halt : Halt ε} (h : Stray reader file halt) :
    loadBy reader file = .error halt := by
  cases h with
  | directory => rfl
  | undecodable h | broken h => rw [loadBy, h, ofReading]

theorem Stray.not_settles {halt : Halt ε} (h : Stray reader file halt) :
    ¬Settles (loadBy reader file) := by
  rw [loadBy_of_stray h]
  rintro (⟨c, hc⟩ | ⟨fault, hfault⟩)
  · cases hc
  · cases h <;> cases hfault

theorem settles_of_readable (h : Readable reader file) : Settles (loadBy reader file) := by
  match file with
  | none | some (_, .nothing) | some (_, .behindFile) => exact .inl ⟨_, rfl⟩
  | some (path, .file bytes) =>
    rw [loadBy]
    rcases h with ⟨doc, h⟩ | h
    · rw [h, ofReading]
      rcases ofDocument_settled (Path.normal path) doc with ⟨c, hc⟩ | ⟨fault, hfault⟩
      · exact .inl ⟨c, by rw [hc]; rfl⟩
      · exact .inr ⟨fault, by rw [hfault]; rfl⟩
    · exact .inr ⟨_, by rw [h, ofReading]⟩

theorem exists_stray (h : ¬Readable reader file) : ∃ halt, Stray reader file halt := by
  match file with
  | none | some (_, .nothing) | some (_, .behindFile) => exact absurd trivial h
  | some (path, .directory) => exact ⟨_, .directory⟩
  | some (path, .file bytes) =>
    cases hread : reader.ofBytes bytes with
    | ok doc => exact absurd (.inl ⟨doc, hread⟩) h
    | error fault =>
      cases fault with
      | malformed => exact absurd (.inr hread) h
      | undecodable => exact ⟨_, .undecodable hread⟩
      | broken fault => exact ⟨_, .broken hread⟩

end

end Config

namespace Session

/-- Settings are read or refused exactly if the reader reads or refuses what their file holds; a file of
bytes that are no text is at best refused. A run whose settings are refused complains, ends with the
status one and writes nothing; anything else that stops the loading stops the run as it is. -/
theorem run_settings {ε : Type} (reader : Yaml.Reader ε) (file : Option (String × Entry)) :
    (Config.Settles (Config.loadBy reader file) ↔ Config.Readable reader file) ∧
    (¬Config.Readable reader file → ∃ halt, Config.Stray reader file halt) ∧
    (∀ halt, Config.Stray reader file halt → Config.loadBy reader file = .error halt) ∧
    (∀ path bytes, file = some (path, .file bytes) → String.fromUTF8? bytes = none →
      (Config.Readable reader file ↔ reader.beforeStray bytes = some .malformed)) ∧
    ∀ args now look a, Arguments.read args = .ok a →
      (a.config.map fun path => (path, look path)) = file →
      (∀ fault, Config.loadBy reader file = .error (.fault (.config fault)) →
        ∃ s, runBy reader args now look = .ok s ∧ s.status = 1 ∧
          s.complaint = "ERROR: " ++ (Fault.config fault).message ++ "\n" ∧
          s.shown = [] ∧ s.files = []) ∧
      (∀ halt, Config.Stray reader file halt → runBy reader args now look = .error halt) := by
  refine ⟨⟨fun h => ?_, Config.settles_of_readable⟩, Config.exists_stray,
    fun _ => Config.loadBy_of_stray, ?_, fun args now look a ha hfile => ⟨?_, ?_⟩⟩
  · by_contra hnot
    obtain ⟨halt, hstray⟩ := Config.exists_stray hnot
    exact hstray.not_settles h
  · rintro path bytes rfl hbytes
    rw [Config.Readable, Yaml.Reader.ofBytes, hbytes]
    cases reader.beforeStray bytes with
    | none => simp
    | some fault => simp
  · intro fault hload
    refine ⟨⟨[], .refused (.config fault)⟩, ?_, rfl, rfl, rfl, rfl⟩
    rw [runBy_eq_follow ha, follow, hfile, hload]
  · intro halt hstray
    rw [runBy_eq_follow ha, follow, hfile, Config.loadBy_of_stray hstray]
    cases hstray <;> rfl

private def atlasArgs : List String := ["facts.json", "--config", "atlas.yaml"]

private theorem exists_atlasArgs :
    ∃ a, Arguments.read atlasArgs = .ok a ∧ a.config = some "atlas.yaml" := by
  obtain ⟨a, ha, hconfig⟩ := exists_of_any
    (show (Arguments.read atlasArgs).toOption.any (fun a => a.config == some "atlas.yaml") = true by
      decide +kernel)
  exact ⟨a, ha, eq_of_beq hconfig⟩

private def morning : Moment := ⟨2024, 1, 2, 3, 4, 5, 0⟩

private def isRefused {ε : Type} : Except (Config.Halt ε) Config → Bool
  | .error (.fault (.config _)) => true
  | _ => false

private theorem exists_of_isRefused {ε : Type} {x : Except (Config.Halt ε) Config}
    (h : isRefused x = true) : ∃ fault, x = .error (.fault (.config fault)) := by
  unfold isRefused at h
  split at h
  · exact ⟨_, rfl⟩
  · cases h

/-- Settings of which the layout is no record. -/
private def flatEntry : Entry := .file "layout: 5".toUTF8

theorem run_settings_flat : Config.Readable Yaml.reader (some ("atlas.yaml", flatEntry)) ∧
    ∃ s, runBy Yaml.reader atlasArgs morning (fun _ => flatEntry) = .ok s ∧ s.status = 1 ∧
      s.files = [] := by
  obtain ⟨a, ha, hconfig⟩ := exists_atlasArgs
  obtain ⟨fault, hload⟩ := exists_of_isRefused
    (show isRefused (Config.loadBy Yaml.reader (some ("atlas.yaml", flatEntry))) = true by
      decide +kernel)
  obtain ⟨hreadable, -, -, -, hrun⟩ := run_settings Yaml.reader (some ("atlas.yaml", flatEntry))
  have hfile : (a.config.map fun path => (path, flatEntry)) = some ("atlas.yaml", flatEntry) := by
    rw [hconfig, Option.map_some]
  obtain ⟨s, hs, hstatus, -, -, hfiles⟩ :=
    (hrun atlasArgs morning (fun _ => flatEntry) a ha hfile).1 fault hload
  exact ⟨hreadable.mp (.inr ⟨fault, hload⟩), s, hs, hstatus, hfiles⟩

/-- A settings file of one byte that is no text is not refused but stops the run. -/
theorem not_refused_stray_byte :
    ¬Config.Settles (Config.loadBy Yaml.reader (some ("atlas.yaml", .file ⟨#[0xff]⟩))) ∧
    run atlasArgs morning (fun _ => .file ⟨#[0xff]⟩) = .error .undecodable := by
  have hread : Yaml.reader.ofBytes ⟨#[0xff]⟩ = .error .undecodable := by
    have hbytes : String.fromUTF8? ⟨#[0xff]⟩ = none := by decide +kernel
    rw [Yaml.Reader.ofBytes, hbytes]
    rfl
  have hstray : Config.Stray Yaml.reader (some ("atlas.yaml", .file ⟨#[0xff]⟩))
      (.fault .undecodable) := .undecodable hread
  obtain ⟨a, ha, hconfig⟩ := exists_atlasArgs
  refine ⟨hstray.not_settles, ?_⟩
  rw [run, runBy_eq_follow ha, follow, hconfig, Option.map_some, Config.loadBy_of_stray hstray]
  rfl

end Session

end BusinessAtlas
