import BusinessAtlas.Fault
import BusinessAtlas.Outcome

/-!
# Stopping half way

Work that is done in steps keeps what the finished steps did when a later one stops: `Progress` is
the state reached together with the cause for which the work stopped, if it did.
-/

namespace BusinessAtlas

/-- A state and the cause for which work on it stopped. -/
structure Progress (σ : Type) where
  state : σ
  fault : Option Fault

namespace Progress

variable {σ : Type}

def done (s : σ) : Progress σ := ⟨s, none⟩

/-- A step that changes nothing when it stops. -/
def step (s : σ) (next : Except Fault σ) : Progress σ :=
  match next with
  | .ok s' => ⟨s', none⟩
  | .error f => ⟨s, some f⟩

/-- Goes on with `next` unless the work has stopped. -/
def andThen (p : Progress σ) (next : σ → Progress σ) : Progress σ :=
  match p.fault with
  | none => next p.state
  | some f => ⟨p.state, some f⟩

/-- One step for every item, in order, until one stops. -/
def each {β : Type} (f : σ → β → Progress σ) (s : σ) : List β → Progress σ
  | [] => done s
  | b :: rest => (f s b).andThen fun s' => each f s' rest

/-- The state that was reached, if the work went through. -/
def toExcept (p : Progress σ) : Except Fault σ :=
  match p.fault with
  | none => .ok p.state
  | some f => .error f

def within {τ : Type} (put : σ → τ) (p : Progress σ) : Progress τ := ⟨put p.state, p.fault⟩

@[simp] theorem done_andThen (s : σ) (next : σ → Progress σ) : (done s).andThen next = next s := rfl

@[simp] theorem toExcept_eq_ok {p : Progress σ} {s : σ} : p.toExcept = .ok s ↔ p = done s := by
  obtain ⟨state, fault⟩ := p
  cases fault <;> simp [toExcept, done]

theorem toExcept_of_isNone {p : Progress σ} (h : p.fault.isNone = true) :
    p.toExcept = .ok p.state := by
  rw [toExcept, Option.isNone_iff_eq_none.mp h]

theorem eq_done_of_isNone {p : Progress σ} (h : p.fault.isNone = true) : p = done p.state :=
  toExcept_eq_ok.mp (toExcept_of_isNone h)

theorem step_eq_done {s s' : σ} {next : Except Fault σ} : step s next = done s' ↔ next = .ok s' := by
  cases next <;> simp [step, done]

theorem andThen_eq_done {p : Progress σ} {next : σ → Progress σ} {s' : σ} :
    p.andThen next = done s' ↔ ∃ s, p = done s ∧ next s = done s' := by
  obtain ⟨state, fault⟩ := p
  cases fault <;> simp [andThen, done]

theorem within_eq_done {τ : Type} {put : σ → τ} {p : Progress σ} {t : τ} :
    p.within put = done t ↔ ∃ s, p = done s ∧ put s = t := by
  obtain ⟨state, fault⟩ := p
  cases fault <;> simp [within, done]

/-- What holds at first and is kept by every step holds when all items are done. -/
theorem each_eq_done {β : Type} {f : σ → β → Progress σ} {P : List β → σ → Prop} {s s' : σ}
    {items : List β} (h : each f s items = done s') (h₀ : P [] s)
    (hstep : ∀ before b t t', P before t → f t b = done t' → P (before ++ [b]) t') : P items s' := by
  suffices hall : ∀ before s, P before s → each f s items = done s' → P (before ++ items) s' from
    hall [] s h₀ h
  clear h h₀ s
  induction items with
  | nil =>
    intro before s hs h
    cases h
    rwa [List.append_nil]
  | cons b rest ih =>
    intro before s hs h
    obtain ⟨t, ht, h⟩ := andThen_eq_done.mp h
    have := ih (before ++ [b]) t (hstep before b s t hs ht) h
    rwa [List.append_assoc, List.singleton_append] at this

/-- If the work goes through, it keeps what holds of the state. -/
def Keeps (P : σ → Prop) (work : σ → Progress σ) : Prop := ∀ s s', P s → work s = done s' → P s'

theorem Keeps.andThen {P : σ → Prop} {work next : σ → Progress σ} (hwork : Keeps P work)
    (hnext : Keeps P next) : Keeps P fun s => (work s).andThen next := by
  intro s s' hs h
  obtain ⟨t, ht, h⟩ := andThen_eq_done.mp h
  exact hnext t s' (hwork s t hs ht) h

theorem keeps_done {P : σ → Prop} {f : σ → σ} (h : ∀ s, P s → P (f s)) :
    Keeps P fun s => done (f s) := by
  intro s s' hs hdone
  cases hdone
  exact h s hs

theorem keeps_each {β : Type} {next : σ → β → Except Fault σ} {P : σ → Prop} (items : List β)
    (hnext : ∀ b ∈ items, ∀ s, P s → Yields (next s b) P) :
    Keeps P fun s => each (fun s b => step s (next s b)) s items := by
  induction items with
  | nil =>
    intro s s' hs h
    cases h
    exact hs
  | cons b rest ih =>
    obtain ⟨hb, hrest⟩ := List.forall_mem_cons.mp hnext
    intro s s' hs h
    obtain ⟨t, ht, h⟩ := andThen_eq_done.mp h
    exact ih hrest t s' (hb s hs t (step_eq_done.mp ht)) h

/-- What every step keeps, also one that stops, holds however far the work came. -/
theorem each_state_of_mem {β : Type} {f : σ → β → Progress σ} {P : σ → Prop} {s : σ} {items : List β}
    (h₀ : P s) (hstep : ∀ t, ∀ b ∈ items, P t → P (f t b).state) : P (each f s items).state := by
  induction items generalizing s with
  | nil => exact h₀
  | cons b rest ih =>
    have hb := hstep s b List.mem_cons_self h₀
    rw [each, andThen]
    split
    · exact ih hb fun t c hc => hstep t c (List.mem_cons_of_mem _ hc)
    · exact hb

theorem each_state {β : Type} {f : σ → β → Progress σ} {P : σ → Prop} {s : σ} {items : List β}
    (h₀ : P s) (hstep : ∀ t b, P t → P (f t b).state) : P (each f s items).state :=
  each_state_of_mem h₀ fun t b _ => hstep t b

theorem andThen_state {P : σ → Prop} {p : Progress σ} {next : σ → Progress σ} (hp : P p.state)
    (hnext : ∀ s, P s → P (next s).state) : P (p.andThen next).state := by
  rw [andThen]
  split
  · exact hnext _ hp
  · exact hp

/-- Work that stopped did so at one of the items, after all items before it were done. -/
theorem exists_of_each_fault {β : Type} {f : σ → β → Progress σ} {s : σ} {items : List β}
    (h : (each f s items).fault ≠ none) : ∃ before b after t, items = before ++ b :: after ∧
      each f s before = done t ∧ each f s items = f t b := by
  induction items generalizing s with
  | nil => exact absurd rfl h
  | cons b rest ih =>
    cases hb : (f s b).fault with
    | none =>
      have hdone : f s b = done (f s b).state := by rw [done, ← hb]
      have hrest : each f s (b :: rest) = each f (f s b).state rest := by rw [each, andThen, hb]
      obtain ⟨before, c, after, t, hitems, ht, hc⟩ := ih (s := (f s b).state) (hrest ▸ h)
      refine ⟨b :: before, c, after, t, by rw [hitems]; rfl, ?_, hrest.trans hc⟩
      exact andThen_eq_done.mpr ⟨_, hdone, ht⟩
    | some e =>
      have hstop : each f s (b :: rest) = ⟨(f s b).state, some e⟩ := by rw [each, andThen, hb]
      exact ⟨[], b, rest, s, rfl, rfl, by rw [hstop, ← hb]⟩

/-- When every step goes through and keeps what the next one needs, the work goes through. -/
theorem exists_each {β : Type} {f : σ → β → Progress σ} {P : σ → Prop} {s : σ} {items : List β}
    (h₀ : P s) (hstep : ∀ t, ∀ b ∈ items, P t → ∃ t', f t b = done t' ∧ P t') :
    ∃ s', each f s items = done s' ∧ P s' := by
  induction items generalizing s with
  | nil => exact ⟨s, rfl, h₀⟩
  | cons b rest ih =>
    obtain ⟨t, ht, hP⟩ := hstep s b List.mem_cons_self h₀
    obtain ⟨s', hs, hP'⟩ := ih hP fun t c hc => hstep t c (List.mem_cons_of_mem _ hc)
    exact ⟨s', andThen_eq_done.mpr ⟨t, ht, hs⟩, hP'⟩

theorem exists_each_step {β : Type} {next : σ → β → Except Fault σ} {items : List β}
    (h : ∀ t, ∀ b ∈ items, ∃ t', next t b = .ok t') (s : σ) :
    ∃ s', each (fun t b => step t (next t b)) s items = done s' := by
  refine (exists_each (P := fun _ => True) trivial fun t b hb _ => ?_).imp fun _ hs => hs.1
  obtain ⟨t', ht⟩ := h t b hb
  exact ⟨t', step_eq_done.mpr ht, trivial⟩

end Progress

end BusinessAtlas
