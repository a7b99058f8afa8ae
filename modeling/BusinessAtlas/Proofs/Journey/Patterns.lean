import BusinessAtlas.Proofs.Grouped
import BusinessAtlas.Proofs.Journey.Traced
import Mathlib.Data.List.Infix

/-!
# The patterns that journeys share

A journey follows a signature if two or three of its steps, one after the other, have it. The patterns
of a map are the signatures that at least two journeys follow, each once and in the order in which they
first appear; a pattern occurs in the journeys that follow its signature, in the order of the map, and
in each of them once, however often it follows the signature.
-/

namespace BusinessAtlas

section

variable {ι : Type}

theorem windows_eq (items : List ι) : windows items =
    items.tails.flatMap fun rest => ([2, 3].filter (· ≤ rest.length)).map rest.take := by
  induction items using windows.induct with
  | case1 a b c rest ih =>
    rw [windows, ih]
    simp [List.filter_cons]
  | case2 a b => simp [windows, List.filter_cons]
  | case3 items h₃ h₂ =>
    match items, h₃, h₂ with
    | [], _, _ => simp [windows]
    | [a], _, _ => simp [windows, List.filter_cons]
    | [a, b], _, h₂ => exact absurd rfl (h₂ a b)
    | a :: b :: c :: rest, h₃, _ => exact absurd rfl (h₃ a b c rest)

theorem mem_windows {items run : List ι} :
    run ∈ windows items ↔ run <:+: items ∧ (run.length = 2 ∨ run.length = 3) := by
  rw [windows_eq, List.infix_iff_prefix_suffix]
  simp only [List.mem_flatMap, List.mem_tails, List.mem_map, List.mem_filter, List.mem_cons,
    List.not_mem_nil, or_false, decide_eq_true_eq]
  constructor
  · rintro ⟨rest, hrest, n, ⟨hn, hle⟩, rfl⟩
    refine ⟨⟨rest, List.take_prefix n rest, hrest⟩, ?_⟩
    rw [List.length_take, Nat.min_eq_left hle]
    exact hn
  · rintro ⟨⟨rest, hrun, hrest⟩, hlength⟩
    exact ⟨rest, hrest, run.length, ⟨hlength, hrun.length_le⟩, (List.prefix_iff_eq_take.mp hrun).symm⟩

end

variable {α : Type}

namespace Journey

/-- The runs of two and of three steps, from place to place of the journey. -/
def runs (j : Journey α) : List (List (Step α)) :=
  j.steps.tails.flatMap fun rest => ([2, 3].filter (· ≤ rest.length)).map rest.take

/-- Two or three steps of the journey, one after the other, have the signature. -/
def Follows (signature : String) (j : Journey α) : Prop :=
  ∃ run, run <:+: j.steps ∧ (run.length = 2 ∨ run.length = 3) ∧ runSignature run = signature

theorem mem_runSignatures {j : Journey α} {signature : String} :
    signature ∈ j.runs.map runSignature ↔ j.Follows signature := by
  rw [runs, ← windows_eq, List.mem_map]
  simp only [mem_windows, Follows, and_assoc]

instance (signature : String) (j : Journey α) : Decidable (j.Follows signature) :=
  decidable_of_iff _ mem_runSignatures

end Journey

/-- The signature that the steps of a pattern make up. -/
def StepPattern.signature (p : StepPattern) : String := arrow.intercalate (p.steps.map (·.data))

/-- The journeys that follow a signature. -/
def following (js : List (Journey α)) (signature : String) : List (Journey α) :=
  js.filter fun j => j.Follows signature

/-- The signatures of all runs, in the order in which they first appear. -/
def runSignatures (js : List (Journey α)) : List String :=
  distinctItems (js.flatMap fun j => j.runs.map runSignature)

/-- The patterns are the signatures that several journeys follow: each one once, as they first appear,
with the journeys that follow it. -/
structure JourneyMap.SharesPatterns (m : JourneyMap α) : Prop where
  patterns_eq : m.patterns =
    ((runSignatures m.journeys).filter fun k => 2 ≤ (following m.journeys k).length).map fun k =>
      .ofSignature k ((following m.journeys k).map (·.id))
  signatures : m.patterns.map (·.signature) =
    (runSignatures m.journeys).filter fun k => 2 ≤ (following m.journeys k).length
  exactly_one : ∀ k, (m.patterns.map (·.signature)).count k =
    if 2 ≤ m.journeys.countP (fun j => j.Follows k) then 1 else 0
  occurrences : ∀ p ∈ m.patterns,
    p.occurrences = (following m.journeys p.signature).map (·.id) ∧ p.occurrences.Nodup

namespace StepPattern

@[simp] theorem signature_ofSignature (signature : String) (journeys : List String) :
    (ofSignature signature journeys).signature = signature := by
  have hsteps : (ofSignature signature journeys).steps.map (·.data) = Text.splitOn arrow signature := by
    rw [ofSignature, List.map_map]
    exact List.map_id _
  rw [StepPattern.signature, hsteps]
  exact Text.intercalate_splitOn (by decide) signature

variable {js : List (Journey α)}

private theorem signaturesOf_eq (j : Journey α) :
    signaturesOf j = j.runs.map fun run => (runSignature run, j.id) := by
  rw [signaturesOf, windows_eq]
  rfl

private theorem map_signaturesOf (js : List (Journey α)) :
    (js.flatMap signaturesOf).map (·.1) = js.flatMap fun j => j.runs.map runSignature := by
  simp only [signaturesOf_eq, List.map_flatMap, List.map_map]
  rfl

private theorem distinctItems_itemsAt (h : (js.map (·.id)).Nodup) (signature : String) :
    distinctItems (itemsAt (js.flatMap signaturesOf) signature) =
      (following js signature).map (·.id) := by
  have hitems : itemsAt (js.flatMap signaturesOf) signature = js.flatMap fun j =>
      List.replicate ((j.runs.map runSignature).count signature) j.id := by
    simp only [itemsAt, signaturesOf_eq, List.filter_flatMap, List.map_flatMap, List.filter_map,
      List.map_map]
    congr 1
    funext j
    rw [List.count, List.countP_map, List.countP_eq_length_filter]
    exact List.map_const' ..
  rw [hitems, distinctItems_flatMap_replicate h, following]
  congr 1
  refine List.filter_congr fun j _ => ?_
  simp only [List.count_pos_iff, Journey.mem_runSignatures]

theorem shared_eq (h : (js.map (·.id)).Nodup) : shared js =
    ((runSignatures js).filter fun k => 2 ≤ (following js k).length).map fun k =>
      ofSignature k ((following js k).map (·.id)) := by
  unfold shared
  dsimp only
  rw [grouped_eq, map_signaturesOf, List.map_map, List.filter_map, List.map_map]
  simp only [Function.comp_def, distinctItems_itemsAt h, List.length_map]
  rfl

end StepPattern

namespace JourneyMap

private theorem mem_runSignatures_iff {js : List (Journey α)} {signature : String} :
    signature ∈ runSignatures js ↔ ∃ j ∈ js, j.Follows signature := by
  simp only [runSignatures, mem_distinctItems, List.mem_flatMap, Journey.mem_runSignatures]

theorem sharesPatterns_of_eq {m : JourneyMap α} (hids : m.ids.Nodup)
    (h : m.patterns = StepPattern.shared m.journeys) : m.SharesPatterns := by
  have hpatterns := h.trans (StepPattern.shared_eq hids)
  have hsignatures : m.patterns.map (·.signature) =
      (runSignatures m.journeys).filter fun k => 2 ≤ (following m.journeys k).length := by
    rw [hpatterns, List.map_map]
    refine (List.map_congr_left fun k _ => ?_).trans (List.map_id _)
    exact StepPattern.signature_ofSignature k _
  refine ⟨hpatterns, hsignatures, fun k => ?_, fun p hp => ?_⟩
  · have hlength : (following m.journeys k).length = m.journeys.countP fun j => j.Follows k := by
      rw [following, List.countP_eq_length_filter]
    have hnodup : ((runSignatures m.journeys).filter fun k =>
        2 ≤ (following m.journeys k).length).Nodup := (nodup_distinctItems _).filter _
    have hmem : k ∈ (runSignatures m.journeys).filter (fun k =>
        2 ≤ (following m.journeys k).length) ↔ 2 ≤ m.journeys.countP fun j => j.Follows k := by
      rw [List.mem_filter, decide_eq_true_iff, hlength, mem_runSignatures_iff, and_iff_right_iff_imp]
      intro hseveral
      obtain ⟨j, hj, hfollows⟩ := List.countP_pos_iff.mp (Nat.lt_of_lt_of_le Nat.two_pos hseveral)
      exact ⟨j, hj, of_decide_eq_true hfollows⟩
    rw [hsignatures, hnodup.count]
    simp only [hmem]
  · rw [hpatterns] at hp
    obtain ⟨k, -, rfl⟩ := List.mem_map.mp hp
    rw [StepPattern.signature_ofSignature]
    exact ⟨rfl, (List.filter_sublist.map _).nodup hids⟩

variable [Scalar α]

private theorem shared_measured (journeys : List (Journey α)) :
    StepPattern.shared (journeys.map Journey.measured) = StepPattern.shared journeys := by
  simp only [StepPattern.shared, List.flatMap_map]
  rfl

theorem sharesPatterns_of_build {t : Terrain} {m : JourneyMap α} (h : build t = .done m) :
    m.SharesPatterns := by
  obtain ⟨m₁, h₁, clusters, rfl⟩ := exists_added_of_build h
  have hnone : m₁.patterns = [] :=
    of_addJourneys (P := fun k => k.patterns = []) h₁ rfl fun _ _ _ hk _ => hk
  refine sharesPatterns_of_eq (traced_of_build h).ids ?_
  simp only [measure, relate, addFlow, addPatterns, hnone, List.nil_append, shared_measured]

/-- The patterns of a map that was built are those that its journeys share. -/
theorem sharesPatterns_build (t : Terrain) (m : JourneyMap α) (h : (build t).toExcept = .ok m) :
    m.SharesPatterns := sharesPatterns_of_build (Progress.toExcept_eq_ok.mp h)

private def room (name : String) (children : List String) : Component :=
  ⟨.text name, .null, .null, [], [], children.map .text, []⟩

private def dial (descriptions : List String) : List Pattern :=
  descriptions.map fun d => ⟨.userInput, d, [], []⟩

/-- Two pages share a lock, at which one enters a code twice in the same way; a third page has a step
of its own. -/
private def lobby : Terrain where
  project := ⟨[room "HomePage" ["Lock"], room "CartPage" ["Lock"], room "TermsPage" [], room "Lock" []],
    [], []⟩
  mappings := [⟨"HomePage", .functional, "", "", [], ⟨[], [], [], []⟩⟩,
    ⟨"CartPage", .functional, "", "", [], ⟨[], [], [], []⟩⟩,
    ⟨"TermsPage", .functional, "", "", dial ["Agree now"], ⟨[], [], [], []⟩⟩,
    ⟨"Lock", .functional, "", "", dial ["Enter code", "Send code", "Enter code", "Send code"],
      ⟨[], [], [], []⟩⟩]
  tables := .bundled

private def lobbyPatterns : List (String × List String) :=
  ["interaction-Enter->interaction-Send", "interaction-Enter->interaction-Send->interaction-Enter",
    "interaction-Send->interaction-Enter", "interaction-Send->interaction-Enter->interaction-Send"].map
      fun signature => (signature, ["journey-homepage", "journey-cartpage"])

theorem sharesPatterns_build_lobby : ∃ m : JourneyMap Rat,
    (build lobby).toExcept = .ok m ∧
      m.ids = ["journey-homepage", "journey-cartpage", "journey-termspage"] ∧
      (m.patterns.map fun p => (p.signature, p.occurrences)) = lobbyPatterns ∧ m.SharesPatterns := by
  have hbuilt : ((build lobby).toExcept.toOption.any fun m : JourneyMap Rat =>
      m.ids == ["journey-homepage", "journey-cartpage", "journey-termspage"] &&
      (m.patterns.map fun p => (p.signature, p.occurrences)) == lobbyPatterns) = true := by
    decide +kernel
  obtain ⟨m, hm, hchecks⟩ := exists_of_any hbuilt
  simp only [Bool.and_eq_true, beq_iff_eq] at hchecks
  exact ⟨m, hm, hchecks.1, hchecks.2, sharesPatterns_build lobby m hm⟩

end JourneyMap

end BusinessAtlas
