import BusinessAtlas.Proofs.Journey.Traced
import BusinessAtlas.Proofs.Text.Separated
import Mathlib.Logic.Relation

/-!
# Journeys that require each other

Whether a journey is for signed-in users shows in what triggers it, and whether it signs users in shows
in its name. One journey requires another exactly if the first is of the one sort and the second of the
other, so requirements go round in a circle exactly where two journeys are of both sorts at once, and
then these two require each other. Both sorts can be told from the names of the components at which
the journeys start.
-/

namespace BusinessAtlas

variable {α : Type}

namespace Journey

/-- The journey is for users who are signed in. -/
def NeedsSignIn (j : Journey α) : Prop := signedInCondition ∈ j.trigger.preconditions

/-- The name of the journey speaks of a login. -/
def SignsIn (j : Journey α) : Prop := Text.occurs "login" (Text.lower j.name) = true

theorem requires_iff {j k : Journey α} : j.requires k = true ↔ j.NeedsSignIn ∧ k.SignsIn := by
  simp [requires, NeedsSignIn, SignsIn]

theorem exists_requires_relationshipsTo {j k : Journey α} :
    (∃ r ∈ j.relationshipsTo k, r.kind = .requires) ↔ j.requires k = true := by
  simp only [relationshipsTo, List.mem_append]
  by_cases hleads : j.leadsTo k = true <;> by_cases hrequires : j.requires k = true <;>
    simp [hleads, hrequires]

end Journey

namespace JourneyMap

/-- The journey with the first id requires the one with the second id to be completed first. -/
def Requires (m : JourneyMap α) (id first : String) : Prop :=
  ∃ r ∈ m.relationships, r.kind = .requires ∧ r.source = id ∧ r.target = first

def NeedsSignIn (m : JourneyMap α) (id : String) : Prop :=
  ∃ j ∈ m.journeys, j.id = id ∧ j.NeedsSignIn

def SignsIn (m : JourneyMap α) (id : String) : Prop :=
  ∃ j ∈ m.journeys, j.id = id ∧ j.SignsIn

variable {m : JourneyMap α}

theorem requires_iff (h : m.relationships = Journey.relationships m.journeys) {id first : String} :
    m.Requires id first ↔ id ≠ first ∧ m.NeedsSignIn id ∧ m.SignsIn first := by
  rw [Requires, h]
  constructor
  · rintro ⟨r, hr, hkind, rfl, rfl⟩
    obtain ⟨j, hj, hr⟩ := List.mem_flatMap.mp hr
    obtain ⟨k, hk, hr⟩ := List.mem_flatMap.mp hr
    obtain ⟨hk, hne⟩ := List.mem_filter.mp hk
    obtain ⟨hsource, htarget, -⟩ := Journey.ends_of_relationshipsTo hr
    have hboth := Journey.requires_iff.mp
      (Journey.exists_requires_relationshipsTo.mp ⟨r, hr, hkind⟩)
    rw [hsource, htarget]
    exact ⟨by simpa using hne, ⟨j, hj, rfl, hboth.1⟩, k, hk, rfl, hboth.2⟩
  · rintro ⟨hne, ⟨j, hj, rfl, hneeds⟩, k, hk, rfl, hsigns⟩
    obtain ⟨r, hr, hkind⟩ := Journey.exists_requires_relationshipsTo.mpr
      (Journey.requires_iff.mpr ⟨hneeds, hsigns⟩)
    obtain ⟨hsource, htarget, -⟩ := Journey.ends_of_relationshipsTo hr
    refine ⟨r, ?_, hkind, hsource, htarget⟩
    apply List.mem_flatMap.mpr
    refine ⟨j, hj, ?_⟩
    apply List.mem_flatMap.mpr
    exact ⟨k, List.mem_filter.mpr ⟨hk, by simpa using hne⟩, hr⟩

/-- Whoever is on a circle of requirements is for signed-in users and signs in, and so is another one
on it. -/
theorem transGen_requires_iff (h : m.relationships = Journey.relationships m.journeys)
    (id : String) : Relation.TransGen m.Requires id id ↔
      (m.NeedsSignIn id ∧ m.SignsIn id) ∧
        ∃ other, other ≠ id ∧ m.NeedsSignIn other ∧ m.SignsIn other := by
  constructor
  · intro hcircle
    obtain ⟨next, hfirst, hrest⟩ := Relation.TransGen.head'_iff.mp hcircle
    obtain ⟨before, -, hlast⟩ := Relation.TransGen.tail'_iff.mp hcircle
    obtain ⟨hne, hneeds, hnext⟩ := (requires_iff h).mp hfirst
    have hsigns := ((requires_iff h).mp hlast).2.2
    refine ⟨⟨hneeds, hsigns⟩, next, hne.symm, ?_, hnext⟩
    rcases Relation.ReflTransGen.cases_head hrest with heq | ⟨after, hstep, -⟩
    · exact absurd heq.symm hne
    · exact ((requires_iff h).mp hstep).2.1
  · rintro ⟨⟨hneeds, hsigns⟩, other, hne, hneeds', hsigns'⟩
    have hthere : m.Requires id other := (requires_iff h).mpr ⟨hne.symm, hneeds, hsigns'⟩
    have hback : m.Requires other id := (requires_iff h).mpr ⟨hne, hneeds', hsigns⟩
    exact .tail (.single hthere) hback

end JourneyMap

namespace Component

@[simp] theorem component_triggerNamed (name : String) : (triggerNamed name).component = name := by
  unfold triggerNamed
  dsimp only
  split
  · rfl
  · split <;> rfl

theorem signedIn_mem_triggerNamed (name : String) :
    signedInCondition ∈ (triggerNamed name).preconditions ↔
      Text.occurs "dashboard" (Text.lower name) = true ∨
        Text.occurs "home" (Text.lower name) = true := by
  have hform : signedInCondition ∉ ["Form is accessible", "User has necessary permissions"] := by
    decide
  rw [← Bool.or_eq_true, triggerNamed]
  split
  · next h => simp [h]
  · next h =>
    apply iff_of_false _ h
    split
    · exact hform
    · exact List.not_mem_nil

end Component

namespace Classifier

theorem exists_row_of_firstMatch {fallback : Option String} {s category : String} {rows : List Row}
    (h : firstMatch fallback s rows = some category) :
    (∃ row ∈ rows, row.category = category) ∨ fallback = some category := by
  induction rows with
  | nil => exact .inr h
  | cons row rest ih =>
    rw [firstMatch] at h
    split at h
    · exact .inl ⟨row, by simp, Option.some.inj h⟩
    · rcases ih h with ⟨other, hother, hcategory⟩ | hfallback
      · exact .inl ⟨other, List.mem_cons_of_mem row hother, hcategory⟩
      · exact .inr hfallback

private theorem journeyName_classify (s : String) : journeyName.classify s =
    if Text.occurs "Login" s then some "User Login Journey"
    else firstMatch none s journeyName.rows.tail := by
  have hrows : journeyName.classify s = firstMatch none s
      (⟨["Login"], "User Login Journey"⟩ :: journeyName.rows.tail) := rfl
  rw [hrows, firstMatch]
  simp

theorem login_of_journeyName {s name : String} (h : journeyName.classify s = some name) :
    name.isEmpty = false ∧
      (Text.occurs "login" (Text.lower name) = true ↔ Text.occurs "Login" s = true) := by
  have hothers : ∀ row ∈ journeyName.rows.tail, row.category.isEmpty = false ∧
      Text.occurs "login" (Text.lower row.category) = false := by
    decide +kernel
  rw [journeyName_classify] at h
  by_cases hlogin : Text.occurs "Login" s = true
  · rw [if_pos hlogin] at h
    cases h
    exact ⟨by decide, iff_of_true (by decide +kernel) hlogin⟩
  · rw [if_neg hlogin] at h
    rcases exists_row_of_firstMatch h with ⟨row, hrow, rfl⟩ | hnone
    · exact ⟨(hothers row hrow).1, iff_of_false (by simp [(hothers row hrow).2]) hlogin⟩
    · cases hnone

theorem not_login_of_journeyName {s : String} (h : journeyName.classify s = none) :
    Text.occurs "Login" s = false := by
  by_contra hlogin
  rw [journeyName_classify, if_pos (by simpa using hlogin)] at h
  cases h

end Classifier

section

variable [Scalar α] {t : Terrain}

theorem Terrain.named_of_trace {taken : List String} {entry : Component} {j : Journey α}
    (h : t.trace taken entry = .ok (some j)) : ∃ name, entry.name = .text name ∧
      t.journeyName entry = .ok j.name ∧ j.trigger = Component.triggerNamed name := by
  have hstart := startsFrom_of_trace h
  obtain ⟨text, htext, htrigger⟩ := bind_eq_ok.mp hstart.trigger
  exact ⟨text, Json.asText_eq_ok.mp htext, hstart.name, (Except.ok.inj htrigger).symm⟩

theorem Terrain.signsIn_of_trace (hbundled : t.tables.name = .journeyName) {taken : List String}
    {entry : Component} {j : Journey α} (h : t.trace taken entry = .ok (some j)) :
    j.SignsIn ↔ Text.occurs "Login" j.trigger.component = true ∨
      Classifier.journeyName.classify j.trigger.component = none ∧
        Text.occurs "login" (Text.lower j.trigger.component) = true := by
  obtain ⟨name, hentry, hname, htrigger⟩ := named_of_trace h
  rw [htrigger, Component.component_triggerNamed, Journey.SignsIn]
  rw [journeyName, hentry, hbundled, Classifier.classifyValue, ok_bind, Json.shown_text] at hname
  cases hclass : Classifier.journeyName.classify name with
  | some category =>
    obtain ⟨hempty, hlogin⟩ := Classifier.login_of_journeyName hclass
    have hname : category = j.name := by simpa [hclass, hempty] using hname
    simp [← hname, hlogin]
  | none =>
    have hname : name ++ " User Journey" = j.name := by simpa [hclass] using hname
    have hjoined : name ++ " User Journey" = name ++ " " ++ "User Journey" := by
      rw [String.append_assoc]
      rfl
    have hrest : Text.occurs "login" (Text.lower "User Journey") = false := by decide +kernel
    rw [← hname, hjoined, Text.lower_append_blank, Text.occurs_append_blank (by decide), hrest]
    simp [Classifier.not_login_of_journeyName hclass]

namespace JourneyMap

/-- What one journey requires of another one, which journeys are on a circle of requirements, and how
the names of the components at which they start tell it. -/
structure TellsCircles (t : Terrain) (m : JourneyMap α) : Prop where
  requires_iff : ∀ id first, m.Requires id first ↔ id ≠ first ∧
    (∃ j ∈ m.journeys, j.id = id ∧ j.NeedsSignIn) ∧ ∃ k ∈ m.journeys, k.id = first ∧ k.SignsIn
  circle_iff : ∀ id, Relation.TransGen m.Requires id id ↔
    (∃ j ∈ m.journeys, j.id = id ∧ j.NeedsSignIn ∧ j.SignsIn) ∧
      ∃ k ∈ m.journeys, k.id ≠ id ∧ k.NeedsSignIn ∧ k.SignsIn
  circle_of_two : ∀ id, Relation.TransGen m.Requires id id ↔
    ∃ other, m.Requires id other ∧ m.Requires other id
  needsSignIn_iff : ∀ j ∈ m.journeys, j.NeedsSignIn ↔
    Text.occurs "dashboard" (Text.lower j.trigger.component) = true ∨
      Text.occurs "home" (Text.lower j.trigger.component) = true
  signsIn_iff : t.tables.name = .journeyName → ∀ j ∈ m.journeys, j.SignsIn ↔
    Text.occurs "Login" j.trigger.component = true ∨
      Classifier.journeyName.classify j.trigger.component = none ∧
        Text.occurs "login" (Text.lower j.trigger.component) = true

variable {m : JourneyMap α}

omit [Scalar α] in
private theorem both_iff (hids : m.ids.Nodup) {id : String} : m.NeedsSignIn id ∧ m.SignsIn id ↔
    ∃ j ∈ m.journeys, j.id = id ∧ j.NeedsSignIn ∧ j.SignsIn := by
  constructor
  · rintro ⟨⟨j, hj, hid, hneeds⟩, k, hk, hid', hsigns⟩
    obtain rfl := List.inj_on_of_nodup_map hids hj hk (hid.trans hid'.symm)
    exact ⟨j, hj, hid, hneeds, hsigns⟩
  · rintro ⟨j, hj, hid, hneeds, hsigns⟩
    exact ⟨⟨j, hj, hid, hneeds⟩, j, hj, hid, hsigns⟩

theorem tellsCircles_build (t : Terrain) (m : JourneyMap α) (h : (build t).toExcept = .ok m) :
    m.TellsCircles t := by
  have hbuilt := Progress.toExcept_eq_ok.mp h
  have htraced := traced_of_build hbuilt
  have hcircle := transGen_requires_iff htraced.relationships_eq
  constructor
  case requires_iff =>
    intro id first
    exact JourneyMap.requires_iff htraced.relationships_eq
  case circle_iff =>
    intro id
    rw [hcircle, both_iff htraced.ids]
    simp only [both_iff htraced.ids]
    apply and_congr_right'
    constructor
    · rintro ⟨other, hne, k, hk, rfl, hboth⟩
      exact ⟨k, hk, hne, hboth⟩
    · rintro ⟨k, hk, hne, hboth⟩
      exact ⟨k.id, hne, k, hk, rfl, hboth⟩
  case circle_of_two =>
    intro id
    rw [hcircle]
    simp only [JourneyMap.requires_iff htraced.relationships_eq]
    constructor
    · rintro ⟨⟨hneeds, hsigns⟩, other, hne, hneeds', hsigns'⟩
      exact ⟨other, ⟨hne.symm, hneeds, hsigns'⟩, hne, hneeds', hsigns⟩
    · rintro ⟨other, ⟨hne, hneeds, hsigns'⟩, -, hneeds', hsigns⟩
      exact ⟨⟨hneeds, hsigns⟩, other, hne.symm, hneeds', hsigns'⟩
  case needsSignIn_iff =>
    intro j hj
    obtain ⟨taken, entry, k, htrace, rfl⟩ := origin_of_build hbuilt hj
    obtain ⟨name, -, -, htrigger⟩ := Terrain.named_of_trace htrace
    have hmeasured : k.measured.trigger = Component.triggerNamed name := htrigger
    rw [Journey.NeedsSignIn, hmeasured, Component.component_triggerNamed]
    exact Component.signedIn_mem_triggerNamed name
  case signsIn_iff =>
    intro hbundled j hj
    obtain ⟨taken, entry, k, htrace, rfl⟩ := origin_of_build hbuilt hj
    have hsigns := Terrain.signsIn_of_trace hbundled htrace
    exact hsigns

/-- Pages with one button each. -/
private def site (names : List String) : Terrain where
  project := ⟨names.map fun name => ⟨.text name, .null, .null, [], [], [], []⟩, [], []⟩
  mappings := names.map fun name =>
    ⟨name, .functional, "", "", [⟨.userInput, "Press", [], []⟩], ⟨[], [], [], []⟩⟩
  tables := .bundled

theorem tellsCircles_build_pages : ∃ m : JourneyMap Rat,
    (build (site ["HomePage", "LoginPage", "HomeLogin"])).toExcept = .ok m ∧
      m.ids = ["journey-homepage", "journey-loginpage", "journey-homelogin"] ∧
      m.TellsCircles (site ["HomePage", "LoginPage", "HomeLogin"]) := by
  have hbuilt : ((build (site ["HomePage", "LoginPage", "HomeLogin"])).toExcept.toOption.any
      fun m : JourneyMap Rat =>
        m.ids == ["journey-homepage", "journey-loginpage", "journey-homelogin"]) = true := by
    decide +kernel
  obtain ⟨m, hm, hids⟩ := exists_of_any hbuilt
  exact ⟨m, hm, by simpa using hids, tellsCircles_build _ m hm⟩

/-- Two logins for signed-in users require each other. -/
theorem not_acyclic_logins : ¬∀ (t : Terrain) (m : JourneyMap Rat), (build t).toExcept = .ok m →
    ∀ id, ¬Relation.TransGen m.Requires id id := by
  intro hnone
  have hbuilt : ((build (site ["HomeLogin", "DashboardLogin"])).toExcept.toOption.any
      fun m : JourneyMap Rat =>
        (m.relationships.any fun r => decide (r.kind = .requires) &&
          decide (r.source = "journey-homelogin") && decide (r.target = "journey-dashboardlogin")) &&
        m.relationships.any fun r => decide (r.kind = .requires) &&
          decide (r.source = "journey-dashboardlogin") &&
          decide (r.target = "journey-homelogin")) = true := by
    decide +kernel
  obtain ⟨m, hm, hboth⟩ := exists_of_any hbuilt
  simp only [Bool.and_eq_true, List.any_eq_true, decide_eq_true_eq, and_assoc] at hboth
  have hthere : m.Requires "journey-homelogin" "journey-dashboardlogin" := by
    obtain ⟨r, hr, h⟩ := hboth.1
    exact ⟨r, hr, h⟩
  have hback : m.Requires "journey-dashboardlogin" "journey-homelogin" := by
    obtain ⟨r, hr, h⟩ := hboth.2
    exact ⟨r, hr, h⟩
  exact hnone _ m hm _ (.tail (.single hthere) hback)

end JourneyMap

end

end BusinessAtlas
