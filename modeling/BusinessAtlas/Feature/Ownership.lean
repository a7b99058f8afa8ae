import BusinessAtlas.Feature.Scoring
import BusinessAtlas.Outcome

/-!
# Who owns a component

Capabilities take the components they name in the order of the capabilities. The first one to name a
component owns it, a later one refers to it, and a name without a mapping is passed over. What no
capability takes belongs to the feature of the common infrastructure.
-/

namespace BusinessAtlas

/-- The components that one capability gets, and all that are taken after it. -/
structure Share where
  owned : List Mapping
  referred : List String
  taken : List String

namespace Share

/-- A share with a component that the capability owns. -/
def own (m : Mapping) (s : Share) : Share := { s with owned := m :: s.owned }

/-- A share with a component that an earlier capability owns. -/
def refer (name : String) (s : Share) : Share := { s with referred := name :: s.referred }

/-- Shares out the named components, given those that are taken already. -/
def ofNames (table : List Mapping) (taken : List String) : List String → Share
  | [] => ⟨[], [], taken⟩
  | name :: rest =>
    match findMapping name table with
    | none => ofNames table taken rest
    | some m =>
      if taken.contains name then (ofNames table taken rest).refer name
      else (ofNames table (taken ++ [name]) rest).own m

section

variable {table : List Mapping} {taken : List String}

theorem taken_ofNames (table : List Mapping) (taken names : List String) :
    (ofNames table taken names).taken =
      taken ++ (ofNames table taken names).owned.map (·.name) := by
  induction names generalizing taken with
  | nil => simp [ofNames]
  | cons name rest ih =>
    cases hm : findMapping name table with
    | none => simpa only [ofNames, hm] using ih taken
    | some m =>
      by_cases ht : taken.contains name = true
      · simpa only [ofNames, hm, if_pos ht, refer] using ih taken
      · simp only [ofNames, hm, if_neg ht, own, ih, List.map_cons, name_of_findMapping hm,
          List.append_assoc, List.singleton_append]

theorem nodup_taken_ofNames (table : List Mapping) (h : taken.Nodup) (names : List String) :
    (ofNames table taken names).taken.Nodup := by
  induction names generalizing taken with
  | nil => exact h
  | cons name rest ih =>
    cases hm : findMapping name table with
    | none => simpa only [ofNames, hm] using ih h
    | some m =>
      by_cases ht : taken.contains name = true
      · simpa only [ofNames, hm, if_pos ht, refer] using ih h
      · simp only [ofNames, hm, if_neg ht, own]
        refine ih (List.nodup_append.mpr ⟨h, by simp, fun a ha b hb hab => ht ?_⟩)
        rw [List.mem_singleton.mp hb] at hab
        exact List.contains_iff_mem.mpr (hab ▸ ha)

theorem mem_owned_ofNames (h : (table.map (·.name)).Nodup) (names : List String) {m : Mapping} :
    m ∈ (ofNames table taken names).owned ↔ m ∈ table ∧ m.name ∈ names ∧ m.name ∉ taken := by
  induction names generalizing taken with
  | nil => simp [ofNames]
  | cons name rest ih =>
    cases hk : findMapping name table with
    | none =>
      have hne : m ∈ table → m.name ≠ name := fun hm he =>
        findMapping_eq_none_iff.mp hk (he ▸ List.mem_map_of_mem hm)
      simp only [ofNames, hk, ih, List.mem_cons]
      exact ⟨fun ⟨hm, hr, ht⟩ => ⟨hm, .inr hr, ht⟩,
        fun ⟨hm, hr, ht⟩ => ⟨hm, hr.resolve_left (hne hm), ht⟩⟩
    | some k =>
      have heq : m = k ↔ m ∈ table ∧ m.name = name := by
        rw [← findMapping_eq_some_iff h, hk, Option.some.injEq, eq_comm]
      by_cases ht : taken.contains name = true
      · have hne : m.name ∉ taken → m.name ≠ name := fun hm he =>
          hm (he ▸ List.contains_iff_mem.mp ht)
        simp only [ofNames, hk, if_pos ht, refer, ih, List.mem_cons]
        exact ⟨fun ⟨hm, hr, hn⟩ => ⟨hm, .inr hr, hn⟩,
          fun ⟨hm, hr, hn⟩ => ⟨hm, hr.resolve_left (hne hn), hn⟩⟩
      · rw [List.contains_iff_mem] at ht
        simp only [ofNames, hk, List.contains_iff_mem, if_neg ht, own, ih, List.mem_cons,
          List.mem_append, List.not_mem_nil, or_false, not_or, heq]
        constructor
        · rintro (⟨hm, rfl⟩ | ⟨hm, hr, hn, _⟩)
          · exact ⟨hm, .inl rfl, ht⟩
          · exact ⟨hm, .inr hr, hn⟩
        · rintro ⟨hm, hr, hn⟩
          by_cases he : m.name = name
          · exact .inl ⟨hm, he⟩
          · exact .inr ⟨hm, hr.resolve_left he, hn, he⟩

end

end Share

/-- The names that a list of references holds; a reference that identifies something else than a
component is passed over. -/
def namedComponents (refs : List Json) : Except Fault (List String) := do
  return (← refs.mapM Json.asIdent).filterMap fun
    | .text name => some name
    | _ => none

theorem mem_namedComponents {refs : List Json} {names : List String}
    (h : namedComponents refs = .ok names) {name : String} : name ∈ names ↔ .text name ∈ refs := by
  obtain ⟨idents, hi, h⟩ := bind_eq_ok.mp h
  cases h
  rw [List.mem_filterMap]
  constructor
  · rintro ⟨i, hmem, h⟩
    obtain ⟨v, hv, hvi⟩ := (mem_of_mapM hi).mp hmem
    cases i <;> cases h
    cases v <;> cases hvi
    exact hv
  · exact fun hmem => ⟨.text name, (mem_of_mapM hi).mpr ⟨_, hmem, rfl⟩, rfl⟩

def featureId (capability : Json) : String := "feature-" ++ capability.shown

/-- The feature of the components that no capability takes. -/
def infrastructureId : String := "feature-ui-infrastructure"

def authenticationId : String := "feature-user-auth"

/-- Whether a capability is about users itself. -/
def concernsUsers (name : Json) : Except Fault Bool := do
  if ← name.hasWord "User" then return true else name.hasWord "Auth"

/-- What the feature of a capability needs: what the capability declares, and signed-in users unless
it is about users itself. -/
def dependenciesOf (c : Capability) : Except Fault (List Dependency) := do
  let declared ← c.raw.itemsOf "dependencies"
  let declared := declared.map fun d =>
    (⟨featureId d, "requires", "Declared capability dependency"⟩ : Dependency)
  if ← concernsUsers c.name then return declared
  else return declared ++ [⟨authenticationId, "requires", "Requires user authentication"⟩]

namespace Feature

variable {α : Type} [Scalar α]

def ofCapability (table : List Mapping) (stories : List (Story α)) (taken : List String)
    (c : Capability) : Except Fault (Feature α × List String) := do
  let related := stories.filter fun s => s.id.isAmong c.stories
  let share := Share.ofNames table taken (← namedComponents c.components)
  let value ← featureValue c related
  let dependencies ← dependenciesOf c
  return ({
    id := featureId c.id
    name := c.name
    description := c.description
    category := .ofTier c.value
    components := share.owned
    stories := c.stories
    entities := c.entities
    value
    complexity := technicalComplexity share.owned
    dependencies
    metrics := .unmeasured c.operations.length
    shared := share.referred }, share.taken)

/-- The feature of the components that nobody took, if there are any. -/
def infrastructure (table : List Mapping) (taken : List String) : Option (Feature α) :=
  match table.filter fun m => !taken.contains m.name with
  | [] => none
  | rest => some {
      id := infrastructureId
      name := .text "UI Infrastructure"
      description := .text "Common UI components and utilities"
      category := .utility
      components := rest
      stories := []
      entities := []
      value := 20
      complexity := 30
      dependencies := []
      metrics := .unmeasured 0
      shared := [] }

end Feature

end BusinessAtlas
