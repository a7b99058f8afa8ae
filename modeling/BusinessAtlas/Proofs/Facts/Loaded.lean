import BusinessAtlas.CommandLine.Session
import BusinessAtlas.Proofs.Facts.Collected
import BusinessAtlas.Proofs.Facts.Shape

/-!
# Facts files that are trusted

The shape of a facts file is checked at its outside only. What its lists hold is used as it is, and a
field that does not allow its use stops the reading with a fault that nothing answers for. So a file
of the right shape is read exactly if every record in it is legible.
-/

namespace BusinessAtlas

open Json (given lookup)

/-- The faults of using a value as something that it is not. -/
inductive Misuse : Fault → Prop where
  | notRecord : Misuse .notRecord
  | noItems : Misuse .noItems
  | noFields : Misuse .noFields
  | notIdentifier : Misuse .notIdentifier
  | notArithmetic : Misuse .notArithmetic
  | notNumber (text : String) : Misuse (.notNumber (.float text))
  | tooLarge : Misuse .tooLarge

theorem Misuse.not_complaint {fault : Fault} (h : Misuse fault) :
    Session.isComplaint fault = false := by
  cases h <;> rfl

namespace Json

variable {v d : Json} {key : String} {spellings : List String}

@[simp] theorem blames_items : Blames v.items Misuse := by
  cases v <;> simp [items, Misuse.noItems]

@[simp] theorem blames_asIdent : Blames v.asIdent Misuse := by
  unfold asIdent
  split <;> simp [Misuse.notIdentifier]

@[simp] theorem blames_get : Blames (v.get key) Misuse := by
  cases v <;> simp [get, Misuse.notRecord]

@[simp] theorem blames_getD : Blames (v.getD key d) Misuse := by
  simp [getD, blames_bind]

@[simp] theorem blames_getOr : Blames (v.getOr key d) Misuse := by
  simp [getOr, blames_bind]

@[simp] theorem blames_pick : Blames (v.pick spellings) Misuse := by
  have hword (word : String) : Blames (v.hasWord word) Misuse := by
    cases v <;> simp [hasWord, Misuse.noItems]
  induction spellings with
  | nil => simp [pick]
  | cons key rest ih =>
    unfold pick
    split
    · split <;> simp [ih]
    · refine blames_bind.mpr ⟨hword key, fun b _ => ?_⟩
      split
      · exact blames_error.mpr .noFields
      · exact ih

@[simp] theorem blames_pickD : Blames (v.pickD spellings d) Misuse := by
  simp [pickD, blames_bind]

@[simp] theorem blames_pickItems : Blames (v.pickItems spellings) Misuse := by
  simp [pickItems, blames_bind]

@[simp] theorem blames_itemsOf : Blames (v.itemsOf key) Misuse := by
  simp [itemsOf, blames_bind]

@[simp] theorem blames_asFloat : Blames v.asFloat Misuse := by
  unfold asFloat
  split
  · simp
  · split
    · split <;> simp [Misuse.tooLarge]
    · simp
    · split <;> simp [Misuse.notNumber]
    · simp [Misuse.notArithmetic]

end Json

section

variable {v : Json}

@[simp] theorem blames_nameUnder {key : String} : Blames (nameUnder key v) Misuse := by
  unfold nameUnder
  split <;> simp

@[simp] theorem Input.blames_ofJson : Blames (ofJson v) Misuse := by
  unfold ofJson
  split <;> simp [blames_bind]

@[simp] theorem Binding.blames_ofJson : Blames (ofJson v) Misuse := by
  unfold ofJson
  split <;> simp [blames_bind]

@[simp] theorem Component.blames_ofJson : Blames (ofJson v) Misuse := by
  simp [ofJson, blames_bind, blames_mapM]

@[simp] theorem Component.blames_nested : Blames (nested v) Misuse := by
  simp [nested, blames_bind]

@[simp] theorem Component.blames_collect {fuel : Nat} {pending : List Json} :
    Blames (collect fuel pending) Misuse := by
  induction fuel generalizing pending with
  | zero => cases pending <;> simp [collect]
  | succ fuel ih => cases pending <;> simp [collect, blames_bind, ih]

@[simp] theorem SourceFile.blames_ofJson : Blames (ofJson v) Misuse := by
  simp [ofJson, blames_bind, blames_mapM]

@[simp] theorem Transfer.blames_ofJson : Blames (ofJson v) Misuse := by
  simp [ofJson, blames_bind]

@[simp] theorem Project.blames_distinct {seen : List Key} {cs : List Component} :
    Blames (distinct seen cs) Misuse := by
  induction cs generalizing seen with
  | nil => simp [distinct]
  | cons c rest ih =>
    refine blames_bind.mpr ⟨Json.blames_asIdent, fun name _ => ?_⟩
    split <;> simp [blames_bind, ih]

theorem Project.blames_ofJson : Blames (ofJson v) Misuse := by
  simp [ofJson, ofParts, blames_bind, blames_mapM]

@[simp] theorem Story.blames_ofJson : Blames (ofJson v) Misuse := by
  simp [ofJson, blames_bind]

@[simp] theorem Capability.blames_ofJson : Blames (ofJson v) Misuse := by
  simp [ofJson, blames_bind]

@[simp] theorem Entity.blames_ofJson : Blames (ofJson v) Misuse := by
  simp [ofJson, blames_bind]

@[simp] theorem Rule.blames_ofJson : Blames (ofJson v) Misuse := by
  simp [ofJson, blames_bind]

@[simp] theorem Persona.blames_ofJson : Blames (ofJson v) Misuse := by
  simp [ofJson, blames_bind]

theorem Context.blames_ofFacts : Blames (ofFacts v) Misuse := by
  simp [ofFacts, ofJson, blames_bind, blames_mapM]

end

namespace Document

/-- What a facts document is asked for. -/
structure Legible (fields : List (String × Json)) : Prop where
  project : Project.Legible fields
  context : ∀ inner, ["businessContext", "business_context"].findSome? (given · fields) =
    some (.record inner) → Context.Legible inner

section

variable {fields : List (String × Json)}

private theorem exists_context (h : factsSchema.accepts (.record fields) = true) {w : Json}
    (hw : ["businessContext", "business_context"].findSome? (given · fields) = some w) :
    ∃ inner, w = .record inner := by
  obtain ⟨key, hkey, hgiven⟩ := List.exists_of_findSome?_eq_some hw
  have hlookup := Json.lookup_of_given hgiven
  have hfield := (Json.conforms_of_accepts h).tail.field
  simp only [List.forall_mem_cons] at hfield
  obtain ⟨-, -, -, -, hcontext, hcontext', -⟩ := hfield
  simp only [List.mem_cons, List.not_mem_nil, or_false] at hkey
  rcases hkey with rfl | rfl
  · exact (hcontext w hlookup).exists_fields
  · exact (hcontext' w hlookup).exists_fields

private theorem legible_nil : Context.Legible [] := by
  refine ⟨?_, ?_, ?_, ?_, ?_⟩ <;> intro w hw <;> cases hw

private theorem gives_ofFacts (h : factsSchema.accepts (.record fields) = true) :
    Gives (Context.ofFacts (.record fields)) (fun _ => True) ↔
      ∀ inner, ["businessContext", "business_context"].findSome? (given · fields) =
        some (.record inner) → Context.Legible inner := by
  rw [Context.ofFacts, Json.pickD_record, ok_bind]
  cases hw : ["businessContext", "business_context"].findSome? (given · fields) with
  | none => simp [Context.gives_ofJson, legible_nil]
  | some w =>
    obtain ⟨inner, rfl⟩ := exists_context h hw
    simp [Context.gives_ofJson]

variable {path : String} {entry : Entry} {v : Json}

private theorem loadFacts_eq (hload : load factsLabel path entry = .ok v)
    (hshape : factsSchema.accepts v = true) : loadFacts path entry = (do
      let project ← Project.ofJson v
      let context ← Context.ofFacts v
      return (project, context)) := by
  have hcheck : check v factsSchema factsLabel path = .ok () := by
    unfold check
    rw [(Json.Violation.worst_eq_none_iff _).mpr (List.isEmpty_iff.mp hshape)]
  rw [loadFacts, hload, ok_bind, hcheck, ok_bind]

private theorem gives_loadFacts (hload : load factsLabel path entry = .ok v)
    (hshape : factsSchema.accepts v = true) :
    Gives (loadFacts path entry) (fun _ => True) ↔ v.IsRecordOf Legible := by
  obtain ⟨fields, rfl⟩ := (Json.conforms_of_accepts hshape).exists_fields
  rw [loadFacts_eq hload hshape, Json.isRecordOf_record]
  constructor
  · rintro ⟨r, hr, -⟩
    obtain ⟨p, hp, hr⟩ := bind_eq_ok.mp hr
    obtain ⟨c, hc, -⟩ := bind_eq_ok.mp hr
    exact ⟨Project.gives_ofJson.mp ⟨p, hp, trivial⟩, (gives_ofFacts hshape).mp ⟨c, hc, trivial⟩⟩
  · rintro ⟨hproject, hcontext⟩
    obtain ⟨p, hp, -⟩ := Project.gives_ofJson.mpr hproject
    obtain ⟨c, hc, -⟩ := (gives_ofFacts hshape).mpr hcontext
    exact ⟨(p, c), bind_eq_ok.mpr ⟨p, hp, bind_eq_ok.mpr ⟨c, hc, rfl⟩⟩, trivial⟩

private theorem blames_loadFacts (hload : load factsLabel path entry = .ok v)
    (hshape : factsSchema.accepts v = true) : Blames (loadFacts path entry) Misuse := by
  rw [loadFacts_eq hload hshape]
  simp [blames_bind, Project.blames_ofJson, Context.blames_ofFacts]

end

end Document

namespace Session

/-- A facts document of the right shape is read exactly if it is legible. Any other document of that
shape is not refused: reading it stops with the fault of a value that is used as something that it is
not, and so does a run that gets to it. -/
theorem run_facts {path : String} {entry : Entry} {v : Json}
    (hload : Document.load Document.factsLabel path entry = .ok v)
    (hshape : Document.factsSchema.accepts v = true) :
    ((∃ p c, Document.loadFacts path entry = .ok (p, c)) ↔ v.IsRecordOf Document.Legible) ∧
    (¬v.IsRecordOf Document.Legible →
      ∃ fault, Misuse fault ∧ Document.loadFacts path entry = .error fault) ∧
    ∀ (ε : Type) (reader : Yaml.Reader ε) args now look a config, Arguments.read args = .ok a →
      a.facts = path → look path = entry →
      Config.loadBy reader (a.config.map fun file => (file, look file)) = .ok config →
      runBy reader args now look = (Document.loadFacts path entry >>= fun r =>
        build a now look config r.1 r.2).mapError .fault := by
  have hgives := Document.gives_loadFacts hload hshape
  have hblames := Document.blames_loadFacts hload hshape
  refine ⟨⟨fun ⟨p, c, h⟩ => hgives.mp ⟨(p, c), h, trivial⟩, fun h => ?_⟩, fun h => ?_, ?_⟩
  · obtain ⟨⟨p, c⟩, h, -⟩ := hgives.mpr h
    exact ⟨p, c, h⟩
  · cases hfacts : Document.loadFacts path entry with
    | ok r => exact absurd (hgives.mp ⟨r, hfacts, trivial⟩) h
    | error fault => exact ⟨fault, hblames fault hfacts, rfl⟩
  · rintro ε reader args now look a config ha rfl rfl hconfig
    rw [runBy_eq_follow ha, follow, hconfig]
    dsimp only
    rw [proceed]
    cases hfacts : Document.loadFacts a.facts (look a.facts) with
    | ok r => rfl
    | error fault =>
      simp only [(hblames fault hfacts).not_complaint]
      rfl

private def noon : Moment := ⟨2024, 1, 2, 12, 0, 0, 0⟩

/-- Fields of the wrong kind that are never used as what they are declared to be. -/
private def looseEntry : Entry := .file ("\x7b\"components\": [\x7b\"name\": null, \"props\": null, "
  ++ "\"type\": [], \"children\": [\x7b\"imports\": \"ab\"\x7d]\x7d]\x7d").toUTF8

theorem run_facts_loose : ∃ v,
    Document.load Document.factsLabel "facts.json" looseEntry = .ok v ∧
    Document.factsSchema.accepts v = true ∧ v.IsRecordOf Document.Legible ∧
    ∃ p c, Document.loadFacts "facts.json" looseEntry = .ok (p, c) ∧ p.components.length = 2 := by
  obtain ⟨v, hload, hshape⟩ := exists_of_any (show
    (Document.load Document.factsLabel "facts.json" looseEntry).toOption.any
      (fun v => Document.factsSchema.accepts v) = true by decide +kernel)
  obtain ⟨⟨p, c⟩, hfacts, hlength⟩ := exists_of_any (show
    (Document.loadFacts "facts.json" looseEntry).toOption.any
      (fun r => r.1.components.length == 2) = true by decide +kernel)
  have hlegible := (run_facts hload hshape).1.mp ⟨p, c, hfacts⟩
  exact ⟨v, hload, hshape, hlegible, p, c, hfacts, eq_of_beq hlength⟩

/-- A story with a confidence in words. -/
private def wordsEntry : Entry := .file ("\x7b\"businessContext\": \x7b\"userStories\": "
  ++ "[\x7b\"id\": \"pay\", \"confidence\": \"high\"\x7d]\x7d\x7d").toUTF8

private def wordsFacts : Json := .record [("businessContext", .record [("userStories",
  .list [.record [("id", .text "pay"), ("confidence", .text "high")]])])]

private def isWordsFacts : Json → Bool
  | .record [(a, .record [(b, .list [.record [(c, .text d), (e, .text f)]])])] =>
    a == "businessContext" && b == "userStories" && c == "id" && d == "pay" && e == "confidence" &&
      f == "high"
  | _ => false

private theorem eq_wordsFacts {v : Json} (h : isWordsFacts v = true) : v = wordsFacts := by
  unfold isWordsFacts at h
  split at h
  · simp only [Bool.and_eq_true, beq_iff_eq] at h
    obtain ⟨⟨⟨⟨⟨rfl, rfl⟩, rfl⟩, rfl⟩, rfl⟩, rfl⟩ := h
    rfl
  · cases h

private def blamesWord {α : Type} : Except Fault α → Bool
  | .error (.notNumber (.float s)) => s == "high"
  | _ => false

private theorem eq_of_blamesWord {α : Type} {x : Except Fault α} (h : blamesWord x = true) :
    x = .error (.notNumber (.float "high")) := by
  unfold blamesWord at h
  split at h
  · rw [eq_of_beq h]
  · cases h

/-- A document of the right shape whose lists hold records only stops the run at a confidence. -/
theorem not_loaded_words :
    Document.load Document.factsLabel "facts.json" wordsEntry = .ok wordsFacts ∧
    Document.factsSchema.accepts wordsFacts = true ∧
    Document.loadFacts "facts.json" wordsEntry = .error (.notNumber (.float "high")) ∧
    run ["facts.json"] noon (fun _ => wordsEntry) = .error (.notNumber (.float "high")) := by
  obtain ⟨v, hload, hv⟩ := exists_of_any (show
    (Document.load Document.factsLabel "facts.json" wordsEntry).toOption.any isWordsFacts = true by
      decide +kernel)
  cases eq_wordsFacts hv
  exact ⟨hload, by decide +kernel, eq_of_blamesWord (by decide +kernel),
    eq_of_blamesWord (by decide +kernel)⟩

end Session

end BusinessAtlas
