import BusinessAtlas.Proofs.Journey.Patterns
import BusinessAtlas.Proofs.Text.Separated

/-!
# Reading signatures

A pattern reads its steps off a signature, at the arrows, and their kinds at the first hyphens; its id
is the signature with the arrows made hyphens. The first words of steps are free text, which may hold
arrows and hyphens itself. The steps of a pattern are those of the runs that have its signature exactly
if no word of a run makes an arrow, and where, apart from that, no word goes on after a hyphen like a
kind of step, different patterns have different ids.
-/

namespace BusinessAtlas

variable {α : Type}

/-- The names of the kinds of step that interactions become. -/
def stepNames : List String := ["interaction", "process", "data_operation", "navigation"]

theorem PatternKind.name_stepKind_mem (k : PatternKind) : k.stepKind.name ∈ stepNames := by
  cases k <;> simp [stepKind, StepKind.name, stepNames]

theorem not_occurs_hyphen_of_mem {name : String} (h : name ∈ stepNames) :
    Text.occurs "-" name = false := by
  have hall : ∀ name ∈ stepNames, Text.occurs "-" name = false := by decide
  exact hall name h

private theorem unbordered_arrow : Text.Unbordered arrow.toList := ⟨'-', ['>'], by decide, by decide⟩

private theorem unbordered_hyphen : Text.Unbordered "-".toList := ⟨'-', [], by decide, by decide⟩

namespace Step

/-- The first word of what the step does. -/
def word (s : Step α) : String := Text.before " " s.description

/-- The first word makes an arrow in the signature, on its own or with the hyphen before it. -/
def ForgesArrow (s : Step α) : Prop :=
  Text.startsWith ">" s.word = true ∨ Text.occurs arrow s.word = true

/-- The first word goes on after a hyphen like a kind of step. -/
def ForgesKind (s : Step α) : Prop := ∃ part ∈ (Text.splitOn "-" s.word).tail, part ∈ stepNames

instance (s : Step α) : Decidable s.ForgesArrow := inferInstanceAs (Decidable (_ ∨ _))

instance (s : Step α) : Decidable s.ForgesKind := inferInstanceAs (Decidable (∃ _ ∈ _, _))

variable {s : Step α}

theorem splitOn_hyphen_signature (h : s.kind.name ∈ stepNames) :
    Text.splitOn "-" s.signature = s.kind.name :: Text.splitOn "-" s.word := by
  have hsignature : s.signature = s.kind.name ++ "-" ++ s.word := rfl
  rw [hsignature, Text.splitOn_append unbordered_hyphen,
    Text.splitOn_of_not_occurs (not_occurs_hyphen_of_mem h)]
  rfl

theorem before_hyphen_signature (h : s.kind.name ∈ stepNames) :
    Text.before "-" s.signature = s.kind.name := by
  rw [Text.before, splitOn_hyphen_signature h]
  rfl

private theorem occursIn_arrow {name rest : List Char} (hname : Text.occursIn ['-'] name = false) :
    Text.occursIn ['-', '>'] (name ++ '-' :: rest) =
      (['>'].isPrefixOf rest || Text.occursIn ['-', '>'] rest) := by
  induction name with
  | nil => simp [Text.occursIn, List.isPrefixOf]
  | cons c cs ih =>
    obtain ⟨hc, hcs⟩ := Bool.or_eq_false_iff.mp hname
    have hstart : ('-' == c) = false := by simpa [List.isPrefixOf] using hc
    rw [List.cons_append, Text.occursIn, ih hcs, List.isPrefixOf, hstart]
    rfl

theorem occurs_arrow_signature (h : s.kind.name ∈ stepNames) :
    Text.occurs arrow s.signature = true ↔ s.ForgesArrow := by
  have hsignature : s.signature.toList = s.kind.name.toList ++ '-' :: s.word.toList := by
    have hparts : s.signature = s.kind.name ++ "-" ++ s.word := rfl
    simp [hparts]
  have harrow : arrow.toList = ['-', '>'] := by decide
  have hend : ">".toList = ['>'] := by decide
  rw [ForgesArrow, Text.startsWith, Text.occurs, Text.occurs, hsignature, harrow, hend,
    occursIn_arrow (not_occurs_hyphen_of_mem h), Bool.or_eq_true]

end Step

/-- Some steps, all of kinds that interactions become. -/
structure IsStepRun (run : List (Step α)) : Prop where
  ne_nil : run ≠ []
  kinds : ∀ s ∈ run, s.kind.name ∈ stepNames

namespace IsStepRun

variable {run other : List (Step α)}

private theorem signatures_ne_nil (h : IsStepRun run) : run.map Step.signature ≠ [] := by
  simpa using h.ne_nil

private theorem not_occurs_arrow (h : IsStepRun run) (hplain : ∀ s ∈ run, ¬s.ForgesArrow) :
    ∀ signature ∈ run.map Step.signature, Text.occurs arrow signature = false := by
  rw [List.forall_mem_map]
  intro s hs
  rw [← Bool.not_eq_true, Step.occurs_arrow_signature (h.kinds s hs)]
  exact hplain s hs

theorem data_ofSignature (h : IsStepRun run) (journeys : List String) :
    (StepPattern.ofSignature (runSignature run) journeys).steps.map (·.data) =
      run.flatMap fun s => Text.splitOn arrow s.signature := by
  have hpieces : (StepPattern.ofSignature (runSignature run) journeys).steps.map (·.data) =
      Text.splitOn arrow (runSignature run) := by
    rw [StepPattern.ofSignature, List.map_map]
    exact List.map_id _
  rw [hpieces, runSignature, Text.splitOn_intercalate unbordered_arrow h.signatures_ne_nil,
    List.flatMap_map]

theorem length_steps_ofSignature (h : IsStepRun run) (journeys : List String) :
    (StepPattern.ofSignature (runSignature run) journeys).steps.length = run.length ↔
      ∀ s ∈ run, ¬s.ForgesArrow := by
  have hread := Text.length_splitOn_intercalate unbordered_arrow h.signatures_ne_nil
  rw [List.length_map, List.forall_mem_map] at hread
  rw [StepPattern.ofSignature, List.length_map, runSignature, hread]
  apply forall₂_congr
  intro s hs
  rw [← Step.occurs_arrow_signature (h.kinds s hs), Bool.not_eq_true]

theorem steps_ofSignature (h : IsStepRun run) (journeys : List String) :
    (StepPattern.ofSignature (runSignature run) journeys).steps =
        (run.map fun s => ⟨s.kind.name, s.signature, journeys.length⟩) ↔
      ∀ s ∈ run, ¬s.ForgesArrow := by
  constructor
  · intro hsteps
    apply (h.length_steps_ofSignature journeys).mp
    rw [hsteps, List.length_map]
  · intro hplain
    rw [StepPattern.ofSignature, runSignature, Text.splitOn_intercalate_of_not_occurs
      unbordered_arrow h.signatures_ne_nil (h.not_occurs_arrow hplain), List.map_map]
    apply List.map_congr_left
    intro s hs
    simp [Step.before_hyphen_signature (h.kinds s hs)]

theorem splitOn_hyphen_replace (h : IsStepRun run) (hplain : ∀ s ∈ run, ¬s.ForgesArrow) :
    Text.splitOn "-" (Text.replace arrow "-" (runSignature run)) =
      run.flatMap fun s => s.kind.name :: Text.splitOn "-" s.word := by
  rw [Text.replace, runSignature, Text.splitOn_intercalate_of_not_occurs unbordered_arrow
    h.signatures_ne_nil (h.not_occurs_arrow hplain),
    Text.splitOn_intercalate unbordered_hyphen h.signatures_ne_nil, List.flatMap_map]
  rw [List.flatMap_def, List.flatMap_def, List.map_congr_left]
  intro s hs
  exact Step.splitOn_hyphen_signature (h.kinds s hs)

end IsStepRun

section

variable {ι : Type} {p : ι → Bool} {a b x y : List ι}

private theorem takeWhile_append_of_head (ha : ∀ i ∈ a, p i = true)
    (hx : ∀ i ∈ x.head?, p i = false) : (a ++ x).takeWhile p = a := by
  rw [List.takeWhile_append_of_pos ha]
  cases x with
  | nil => simp
  | cons i x => simp [hx i rfl]

private theorem parts_of_append_eq (ha : ∀ i ∈ a, p i = true) (hx : ∀ i ∈ x.head?, p i = false)
    (hb : ∀ i ∈ b, p i = true) (hy : ∀ i ∈ y.head?, p i = false) (h : a ++ x = b ++ y) :
    a = b ∧ x = y := by
  have hfront : a = b := by
    rw [← takeWhile_append_of_head ha hx, h, takeWhile_append_of_head hb hy]
  rw [hfront] at h
  exact ⟨hfront, List.append_cancel_left h⟩

end

private theorem word_of_parts {s s' : Step α} {x y : List String} (hs : ¬s.ForgesKind)
    (hs' : ¬s'.ForgesKind) (hx : ∀ i ∈ x.head?, i ∈ stepNames) (hy : ∀ i ∈ y.head?, i ∈ stepNames)
    (h : Text.splitOn "-" s.word ++ x = Text.splitOn "-" s'.word ++ y) : s.word = s'.word ∧ x = y := by
  have hparts (s : Step α) (hs : ¬s.ForgesKind) :
      ∀ i ∈ (Text.splitOn "-" s.word).tail, decide (i ∉ stepNames) = true := by
    intro i hi
    simp only [decide_eq_true_eq]
    intro hname
    exact hs ⟨i, hi, hname⟩
  have hwhole (s : Step α) : "-".intercalate (Text.splitOn "-" s.word) = s.word :=
    Text.intercalate_splitOn (by decide) s.word
  obtain ⟨first, parts, hfirst⟩ := List.exists_cons_of_ne_nil (Text.splitOn_ne_nil "-" s.word)
  obtain ⟨first', parts', hfirst'⟩ := List.exists_cons_of_ne_nil (Text.splitOn_ne_nil "-" s'.word)
  rw [← hwhole s, ← hwhole s']
  have hfront := hparts s hs
  have hfront' := hparts s' hs'
  rw [hfirst] at hfront h ⊢
  rw [hfirst'] at hfront' h ⊢
  rw [List.tail_cons] at hfront hfront'
  rw [List.cons_append, List.cons_append] at h
  obtain ⟨rfl, hrest⟩ := List.cons.inj h
  obtain ⟨rfl, rfl⟩ := parts_of_append_eq hfront (by simpa using hx) hfront' (by simpa using hy) hrest
  exact ⟨rfl, rfl⟩

private theorem signatures_of_parts {run other : List (Step α)}
    (hrun : ∀ s ∈ run, s.kind.name ∈ stepNames ∧ ¬s.ForgesKind)
    (hother : ∀ s ∈ other, s.kind.name ∈ stepNames ∧ ¬s.ForgesKind)
    (h : (run.flatMap fun s => s.kind.name :: Text.splitOn "-" s.word) =
      other.flatMap fun s => s.kind.name :: Text.splitOn "-" s.word) :
    run.map Step.signature = other.map Step.signature := by
  have hhead (rest : List (Step α)) (hrest : ∀ s ∈ rest, s.kind.name ∈ stepNames ∧ ¬s.ForgesKind) :
      ∀ i ∈ (rest.flatMap fun s => s.kind.name :: Text.splitOn "-" s.word).head?, i ∈ stepNames := by
    cases rest with
    | nil => simp
    | cons s rest => simpa using (hrest s (by simp)).1
  induction run generalizing other with
  | nil =>
    cases other with
    | nil => rfl
    | cons s rest => cases h
  | cons s rest ih =>
    cases other with
    | nil => cases h
    | cons s' rest' =>
      obtain ⟨hs, hrest⟩ := List.forall_mem_cons.mp hrun
      obtain ⟨hs', hrest'⟩ := List.forall_mem_cons.mp hother
      obtain ⟨hkind, h⟩ := List.cons.inj h
      obtain ⟨hword, h⟩ := word_of_parts hs.2 hs'.2 (hhead rest hrest) (hhead rest' hrest') h
      have hsignature : s.signature = s'.signature := by
        rw [Step.signature, Step.signature, hkind]
        exact congrArg (s'.kind.name ++ "-" ++ ·) hword
      rw [List.map_cons, List.map_cons, hsignature, ih hrest hrest' h]

namespace JourneyMap

/-- The run stands in some journey of the map and has the signature of the pattern. -/
def Bears (m : JourneyMap α) (p : StepPattern) (run : List (Step α)) : Prop :=
  (∃ j ∈ m.journeys, run ∈ windows j.steps) ∧ runSignature run = p.signature

/-- What the patterns of a map say about the runs that have their signatures, and when their ids tell
them apart. -/
structure ReadsRuns (m : JourneyMap α) : Prop where
  borne : ∀ p ∈ m.patterns, ∃ run, m.Bears p run
  data : ∀ p ∈ m.patterns, ∀ run, m.Bears p run →
    p.steps.map (·.data) = run.flatMap fun s => Text.splitOn arrow s.signature
  length_iff : ∀ p ∈ m.patterns, ∀ run, m.Bears p run →
    (p.steps.length = run.length ↔ ∀ s ∈ run, ¬s.ForgesArrow)
  steps_iff : ∀ p ∈ m.patterns, ∀ run, m.Bears p run →
    (p.steps = (run.map fun s => ⟨s.kind.name, s.signature, p.occurrences.length⟩) ↔
      ∀ s ∈ run, ¬s.ForgesArrow)
  ids : ∀ p ∈ m.patterns, ∀ q ∈ m.patterns, ∀ run other, m.Bears p run → m.Bears q other →
    (∀ s ∈ run ++ other, ¬s.ForgesArrow ∧ ¬s.ForgesKind) → p.id = q.id → p = q

variable {m : JourneyMap α}

theorem SharesPatterns.eq_ofSignature (h : m.SharesPatterns) {p : StepPattern}
    (hp : p ∈ m.patterns) : p = .ofSignature p.signature p.occurrences := by
  rw [h.patterns_eq] at hp
  obtain ⟨k, -, rfl⟩ := List.mem_map.mp hp
  rw [StepPattern.signature_ofSignature]
  rfl

theorem SharesPatterns.exists_bears (h : m.SharesPatterns) {p : StepPattern}
    (hp : p ∈ m.patterns) : ∃ run, m.Bears p run := by
  have hcount := List.count_pos_iff.mpr (List.mem_map_of_mem (f := (·.signature)) hp)
  rw [h.exactly_one] at hcount
  split at hcount
  · next hseveral =>
    obtain ⟨j, hj, hfollows⟩ := List.countP_pos_iff.mp (Nat.lt_of_lt_of_le Nat.two_pos hseveral)
    obtain ⟨run, hin, hlength, hsignature⟩ := of_decide_eq_true hfollows
    exact ⟨run, ⟨j, hj, mem_windows.mpr ⟨hin, hlength⟩⟩, hsignature⟩
  · cases hcount

theorem SharesPatterns.eq_of_signature (h : m.SharesPatterns) {p q : StepPattern}
    (hp : p ∈ m.patterns) (hq : q ∈ m.patterns) (hsignature : p.signature = q.signature) : p = q := by
  have hnodup : (m.patterns.map (·.signature)).Nodup := by
    apply List.nodup_iff_count_le_one.mpr
    intro k
    rw [h.exactly_one]
    split <;> simp
  exact List.inj_on_of_nodup_map hnodup hp hq hsignature

variable {t : Terrain}

theorem Traced.isStepRun (h : m.Traced t) {p : StepPattern} {run : List (Step α)}
    (hrun : m.Bears p run) : IsStepRun run := by
  obtain ⟨⟨j, hj, hwindow⟩, -⟩ := hrun
  obtain ⟨hin, hlength⟩ := mem_windows.mp hwindow
  constructor
  · rintro rfl
    simp at hlength
  · intro s hs
    obtain ⟨k, hk⟩ := (h.journeys j hj).kinds s (hin.subset hs)
    rw [hk]
    exact k.name_stepKind_mem

variable [Scalar α]

theorem readsRuns_build (t : Terrain) (m : JourneyMap α) (h : (build t).toExcept = .ok m) :
    m.ReadsRuns := by
  have hbuilt := Progress.toExcept_eq_ok.mp h
  have htraced := traced_of_build hbuilt
  have hshares := sharesPatterns_of_build hbuilt
  have hread (p : StepPattern) (hp : p ∈ m.patterns) (run : List (Step α)) (hrun : m.Bears p run) :
      p = .ofSignature (runSignature run) p.occurrences := by
    rw [hrun.2]
    exact hshares.eq_ofSignature hp
  constructor
  case borne =>
    intro p hp
    exact hshares.exists_bears hp
  case data =>
    intro p hp run hrun
    rw [hread p hp run hrun]
    exact (htraced.isStepRun hrun).data_ofSignature _
  case length_iff =>
    intro p hp run hrun
    rw [hread p hp run hrun]
    exact (htraced.isStepRun hrun).length_steps_ofSignature _
  case steps_iff =>
    intro p hp run hrun
    rw [hread p hp run hrun]
    exact (htraced.isStepRun hrun).steps_ofSignature _
  case ids =>
    intro p hp q hq run other hrun hother hplain hid
    obtain ⟨hplain, hplain'⟩ := List.forall_mem_append.mp hplain
    have hsteps := htraced.isStepRun hrun
    have hsteps' := htraced.isStepRun hother
    apply hshares.eq_of_signature hp hq
    rw [hread p hp run hrun, hread q hq other hother] at hid
    have hparts := congrArg (Text.splitOn "-") ((String.append_right_inj _).mp hid)
    rw [hsteps.splitOn_hyphen_replace fun s hs => (hplain s hs).1,
      hsteps'.splitOn_hyphen_replace fun s hs => (hplain' s hs).1] at hparts
    have hsignatures := signatures_of_parts
      (fun s hs => ⟨hsteps.kinds s hs, (hplain s hs).2⟩)
      (fun s hs => ⟨hsteps'.kinds s hs, (hplain' s hs).2⟩) hparts
    rw [← hrun.2, ← hother.2, runSignature, runSignature, hsignatures]

/-- Two pages share a desk, at which one does what is described. -/
private def counter (descriptions : List String) : Terrain where
  project := ⟨[("HomePage", ["Desk"]), ("CartPage", ["Desk"]), ("Desk", [])].map fun c =>
    ⟨.text c.1, .null, .null, [], [], c.2.map .text, []⟩, [], []⟩
  mappings := [("HomePage", []), ("CartPage", []), ("Desk", descriptions)].map fun c =>
    ⟨c.1, .functional, "", "", c.2.map fun d => ⟨.userInput, d, [], []⟩, ⟨[], [], [], []⟩⟩
  tables := .bundled

theorem readsRuns_build_desk : ∃ m : JourneyMap Rat,
    (build (counter ["Sign-in again", "Enter code", "Send"])).toExcept = .ok m ∧
      m.patterns.map (·.id) = ["pattern-interaction-Sign-in-interaction-Enter",
        "pattern-interaction-Sign-in-interaction-Enter-interaction-Send",
        "pattern-interaction-Enter-interaction-Send"] ∧ m.ReadsRuns := by
  have hbuilt : ((build (counter ["Sign-in again", "Enter code", "Send"])).toExcept.toOption.any
      fun m : JourneyMap Rat => m.patterns.map (·.id) ==
        ["pattern-interaction-Sign-in-interaction-Enter",
          "pattern-interaction-Sign-in-interaction-Enter-interaction-Send",
          "pattern-interaction-Enter-interaction-Send"]) = true := by
    decide +kernel
  obtain ⟨m, hm, hids⟩ := exists_of_any hbuilt
  exact ⟨m, hm, by simpa using hids, readsRuns_build _ m hm⟩

private def forged : List String :=
  ["Enter-interaction-Send", "Wait", "Enter", "Send", "Wait", "Call->back"]

/-- A first word with an arrow is read as two steps, and one that goes on like a kind of step gives its
pattern the id of another one. -/
theorem exists_misread_pattern : ∃ m : JourneyMap Rat, (build (counter forged)).toExcept = .ok m ∧
    (∃ p ∈ m.patterns, ∃ run, m.Bears p run ∧ run.length = 2 ∧ p.steps.length = 3) ∧
    ∃ p ∈ m.patterns, ∃ q ∈ m.patterns, p.signature ≠ q.signature ∧ p.id = q.id := by
  let called := "interaction-Wait->interaction-Call->back"
  let sent := "interaction-Enter-interaction-Send->interaction-Wait"
  let entered := "interaction-Enter->interaction-Send->interaction-Wait"
  let id := "pattern-interaction-Enter-interaction-Send-interaction-Wait"
  have hbuilt : ((build (counter forged)).toExcept.toOption.any fun m : JourneyMap Rat =>
      (m.patterns.any fun p => decide (p.signature = called) && decide (p.steps.length = 3)) &&
      (m.journeys.any fun j => (windows j.steps).any fun run =>
        decide (runSignature run = called) && decide (run.length = 2)) &&
      (m.patterns.any fun p => decide (p.signature = sent) && decide (p.id = id)) &&
      m.patterns.any fun q => decide (q.signature = entered) && decide (q.id = id)) = true := by
    decide +kernel
  obtain ⟨m, hm, hchecks⟩ := exists_of_any hbuilt
  simp only [Bool.and_eq_true, List.any_eq_true, decide_eq_true_eq] at hchecks
  obtain ⟨⟨⟨⟨p, hp, hcalled, hthree⟩, j, hj, run, hrun, hrunCalled, htwo⟩, p', hp', hsent, hid⟩,
    q, hq, hentered, hid'⟩ := hchecks
  refine ⟨m, hm, ⟨p, hp, run, ⟨⟨j, hj, hrun⟩, ?_⟩, htwo, hthree⟩, p', hp', q, hq, ?_, ?_⟩
  · rw [hrunCalled, hcalled]
  · rw [hsent, hentered]
    decide
  · rw [hid, hid']

end JourneyMap

end BusinessAtlas
