import BusinessAtlas.Proofs.Facts.Imports
import BusinessAtlas.Proofs.Feature.Total

/-!
# Interactions and data of a component

The interactions of a component and the data that goes through it are read from the same inputs and
bindings. Both take the same inputs for handlers. Of local state they have notions of their own:
every binding of state makes an interaction, but only `useState` makes data come in and go out. So
the two agree on local state exactly for the components that bind `useState` or do not bind
`useReducer`.
-/

namespace BusinessAtlas

/-- The input is named as handlers are. -/
def Input.isHandler (i : Input) : Bool :=
  match i.name with
  | .text name => Text.startsWith "on" name
  | _ => false

/-- A binding of the component has the name. -/
def Component.Binds (c : Component) (name : String) : Prop := ∃ b ∈ c.bindings, b.name = .text name

/-- How many interactions of the kind the component offers. -/
def Mapping.countPatterns (kind : PatternKind) (m : Mapping) : Nat :=
  m.patterns.countP (·.kind == kind)

/-- Whether data comes in from the source. -/
def DataPath.hasInput (source : String) (d : DataPath) : Bool := d.inputs.any (·.source == source)

/-- Whether data is handed on to the destination. -/
def DataPath.hasOutput (destination : String) (d : DataPath) : Bool :=
  d.outputs.any (·.destination == destination)

theorem Json.isAmong_texts {v : Json} {names : List String} :
    v.isAmong (names.map .text) = true ↔ ∃ name ∈ names, v = .text name := by
  have hone (name : String) : v.isOne (.text name) = true ↔ v = .text name := by
    cases v <;> simp [isOne, same, isUndefined]
  simp [isAmong, hone]

namespace Component

section

variable {β : Type}

private theorem any_offered (b : Bool) (x : β) (p : β → Bool) :
    (if b then [x] else []).any p = (b && p x) := by
  cases b <;> simp

private theorem countP_offered (b : Bool) (x : β) (p : β → Bool) :
    (if b then [x] else []).countP p = if b && p x then 1 else 0 := by
  cases b <;> simp

end

variable {c : Component} {name : String} {names imports : List String}

theorem hasBinding_iff : c.hasBinding names = true ↔ ∃ name ∈ names, c.Binds name := by
  simp only [hasBinding, List.any_eq_true, Json.isAmong_texts, Binds]
  constructor
  · intro ⟨b, hb, name, hname, heq⟩
    exact ⟨name, hname, b, hb, heq⟩
  · intro ⟨name, hname, b, hb, heq⟩
    exact ⟨b, hb, name, hname, heq⟩

theorem hasBinding_singleton : c.hasBinding [name] = true ↔ c.Binds name := by
  simp [hasBinding_iff]

theorem hasBinding_stateBindings :
    c.hasBinding stateBindings = true ↔ c.Binds "useState" ∨ c.Binds "useReducer" := by
  simp [hasBinding_iff, stateBindings]

theorem countP_isHandler (h : c.inputNames.mapM Json.asText = .ok names) :
    names.countP isHandler = c.inputs.countP Input.isHandler := by
  unfold inputNames at h
  generalize c.inputs = inputs at h
  induction inputs generalizing names with
  | nil =>
    cases h
    rfl
  | cons i rest ih =>
    obtain ⟨name, others, hname, hothers, rfl⟩ := mapM_cons_eq_ok.mp h
    have hhandler : i.isHandler = isHandler name := by
      have htext : i.name = .text name := Json.asText_eq_ok.mp hname
      rw [Input.isHandler, htext, isHandler]
    rw [List.countP_cons, List.countP_cons, ih hothers, hhandler]

theorem countP_patternsFrom :
    (c.patternsFrom names imports).countP (·.kind == .userInput) = names.countP isHandler := by
  have hinputs : (inputPatterns names).countP (·.kind == .userInput) = names.countP isHandler := by
    rw [List.countP_eq_length_filter (p := isHandler)]
    simp [inputPatterns, List.countP_map, Function.comp_def]
  simp only [patternsFrom, List.countP_append, hinputs, countP_offered]
  simp +decide

theorem any_patternsFrom : (c.patternsFrom names imports).any (·.kind == .stateManagement) =
    c.hasBinding stateBindings := by
  have hinputs : (inputPatterns names).any (·.kind == .stateManagement) = false := by
    simp [inputPatterns]
  have hother (kind : PatternKind) (h : kind ≠ .stateManagement) :
      (kind == .stateManagement) = false := beq_false_of_ne h
  simp only [patternsFrom, List.any_append, hinputs, any_offered]
  simp [hother .display nofun, hother .navigation nofun, hother .apiCall nofun]

theorem hasInput_state_dataPathFrom :
    (c.dataPathFrom name names).hasInput "state" = c.hasBinding ["useState"] := by
  simp only [dataPathFrom, DataPath.hasInput, List.any_append, any_offered]
  simp

theorem hasOutput_event_dataPathFrom :
    (c.dataPathFrom name names).hasOutput "event" = names.any isHandler := by
  simp only [dataPathFrom, DataPath.hasOutput, List.any_append, any_offered]
  simp

theorem hasOutput_update_dataPathFrom :
    (c.dataPathFrom name names).hasOutput "state_update" = c.hasBinding ["useState"] := by
  simp only [dataPathFrom, DataPath.hasOutput, List.any_append, any_offered]
  simp

theorem parts_of_toMapping {p : Project} {table : Classifier} {m : Mapping}
    (h : c.toMapping p table = .ok m) : ∃ names imports name,
      c.inputNames.mapM Json.asText = .ok names ∧
      m.patterns = c.patternsFrom names imports ∧ m.data = c.dataPathFrom name names := by
  obtain ⟨responsibility, -, h⟩ := bind_eq_ok.mp h
  obtain ⟨purpose, -, h⟩ := bind_eq_ok.mp h
  obtain ⟨patterns, hpatterns, h⟩ := bind_eq_ok.mp h
  obtain ⟨data, hdata, h⟩ := bind_eq_ok.mp h
  obtain ⟨name, hname, h⟩ := bind_eq_ok.mp h
  cases h
  obtain ⟨sources, -, imports, -, names, hnames, rfl⟩ := patterns_eq_ok.mp hpatterns
  rw [dataPath, hnames, ok_bind, hname, ok_bind] at hdata
  cases hdata
  exact ⟨names, imports, name, hnames, rfl, rfl⟩

end Component

/-- How far the interactions and the data that are read of one component agree. -/
structure Mapping.Agrees (m : Mapping) (c : Component) : Prop where
  handlers_eq : m.countPatterns .userInput = c.inputs.countP Input.isHandler
  event_iff : 0 < m.countPatterns .userInput ↔ m.data.hasOutput "event" = true
  managed_iff : m.hasPattern .stateManagement = true ↔ c.Binds "useState" ∨ c.Binds "useReducer"
  update_iff : m.data.hasOutput "state_update" = true ↔ c.Binds "useState"
  state_iff : m.data.hasInput "state" = true ↔ m.data.hasOutput "state_update" = true
  agree_iff : (m.hasPattern .stateManagement = true ↔ m.data.hasInput "state" = true) ↔
    (c.Binds "useReducer" → c.Binds "useState")

namespace Component

/-- Every component of typed facts gets a mapping. Whatever the facts, the interactions and the data
of a mapping agree on handlers, and on local state as far as the component's bindings let them. -/
theorem agrees_toMapping (p : Project) (table : Classifier) (c : Component) :
    (p.Typed → c.Typed → ∃ m, c.toMapping p table = .ok m) ∧
      ∀ m, c.toMapping p table = .ok m → m.Agrees c := by
  refine ⟨exists_toMapping table, ?_⟩
  intro m hm
  obtain ⟨names, imports, name, hnames, hpatterns, hdata⟩ := parts_of_toMapping hm
  have hhandlers : m.countPatterns .userInput = names.countP isHandler := by
    rw [Mapping.countPatterns, hpatterns, countP_patternsFrom]
  have hmanaged : m.hasPattern .stateManagement = true ↔
      c.Binds "useState" ∨ c.Binds "useReducer" := by
    rw [Mapping.hasPattern, hpatterns, any_patternsFrom, hasBinding_stateBindings]
  have hupdate : m.data.hasOutput "state_update" = true ↔ c.Binds "useState" := by
    rw [hdata, hasOutput_update_dataPathFrom, hasBinding_singleton]
  have hstate : m.data.hasInput "state" = true ↔ c.Binds "useState" := by
    rw [hdata, hasInput_state_dataPathFrom, hasBinding_singleton]
  constructor
  case handlers_eq => rw [hhandlers, countP_isHandler hnames]
  case event_iff =>
    rw [hhandlers, hdata, hasOutput_event_dataPathFrom, List.countP_pos_iff, List.any_eq_true]
  case managed_iff => exact hmanaged
  case update_iff => exact hupdate
  case state_iff => rw [hstate, hupdate]
  case agree_iff =>
    rw [hmanaged, hstate]
    constructor
    · intro h hreducer
      exact h.mp (.inr hreducer)
    · intro h
      constructor
      · intro hboth
        exact hboth.elim id h
      · exact .inl

private def alone (c : Component) : Project := ⟨[c], [], []⟩

private def tasks : Component where
  name := .text "TaskList"
  path := .text "tasks.tsx"
  kind := .text "function"
  inputs := [⟨.text "items", .null, true⟩, ⟨.text "onToggle", .null, true⟩]
  bindings := [⟨.text "useReducer", .null⟩, ⟨.text "useState", .null⟩]
  children := []
  imports := []

theorem agrees_toMapping_tasks : (alone tasks).Typed ∧ tasks.Typed ∧
    ∃ m, tasks.toMapping (alone tasks) .responsibility = .ok m ∧
      m.countPatterns .userInput = 1 ∧ m.Agrees tasks := by
  have htasks : tasks.Typed := by constructor <;> simp [tasks, Json.isText]
  have halone : (alone tasks).Typed := by constructor <;> simp [alone, htasks]
  obtain ⟨hexists, hall⟩ := agrees_toMapping (alone tasks) .responsibility tasks
  obtain ⟨m, hm⟩ := hexists halone htasks
  have hagrees := hall m hm
  exact ⟨halone, htasks, m, hm, hagrees.handlers_eq.trans (by decide), hagrees⟩

private def counter : Component :=
  ⟨.text "Counter", .text "", .text "function", [], [⟨.text "useReducer", .text "other"⟩], [], []⟩

/-- A reducer is managed as state, but no data comes in from it. -/
theorem not_agrees_reducer : ¬∀ (p : Project) (table : Classifier) (c : Component) (m : Mapping),
    c.toMapping p table = .ok m →
      m.countPatterns .userInput = c.inputs.countP Input.isHandler ∧
      (0 < m.countPatterns .userInput ↔ m.data.hasOutput "event" = true) ∧
      (m.hasPattern .stateManagement = true ↔ m.data.hasInput "state" = true) ∧
      (m.hasPattern .stateManagement = true ↔ m.data.hasOutput "state_update" = true) := by
  intro hagree
  obtain ⟨m, hm, hstate⟩ := exists_of_any (show
    ((counter.toMapping (alone counter) .responsibility).toOption.any fun m =>
      m.hasPattern .stateManagement && !m.data.hasInput "state") = true by decide +kernel)
  rw [Bool.and_eq_true, Bool.not_eq_true'] at hstate
  have hinput := (hagree _ _ _ _ hm).2.2.1.mp hstate.1
  rw [hstate.2] at hinput
  cases hinput

end Component

end BusinessAtlas
