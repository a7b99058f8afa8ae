/-!
# Steps that may fail

What is known of the parts when a composed step went through, and of every result when a step went
through for each item of a list. `Yields` says what holds of the result of a step, should it go
through, `Blames` what holds of its fault, should it stop, and `Gives` that it does go through.
-/

namespace BusinessAtlas

variable {ε α β : Type}

@[simp] theorem pure_eq_ok (a : α) : (pure a : Except ε α) = .ok a := rfl

@[simp] theorem ok_bind (a : α) (f : α → Except ε β) : (Except.ok a >>= f) = f a := rfl

@[simp] theorem error_bind (e : ε) (f : α → Except ε β) : (Except.error e >>= f) = .error e := rfl

@[simp] theorem bind_ok (x : Except ε α) : (x >>= Except.ok) = x := bind_pure x

@[simp] theorem map_ok (f : α → β) (a : α) : f <$> (Except.ok a : Except ε α) = .ok (f a) := rfl

@[simp] theorem map_error (f : α → β) (e : ε) : f <$> (Except.error e : Except ε α) = .error e := rfl

theorem bind_eq_ok {x : Except ε α} {f : α → Except ε β} {b : β} :
    (x >>= f) = .ok b ↔ ∃ a, x = .ok a ∧ f a = .ok b := by
  cases x with
  | error e => simp
  | ok a => simp

theorem exists_bind {x : Except ε α} {f : α → Except ε β} (h : ∃ a, x = .ok a)
    (hf : ∀ a, x = .ok a → ∃ b, f a = .ok b) : ∃ b, (x >>= f) = .ok b := by
  obtain ⟨a, ha⟩ := h
  obtain ⟨b, hb⟩ := hf a ha
  exact ⟨b, bind_eq_ok.mpr ⟨a, ha, hb⟩⟩

theorem map_eq_ok {x : Except ε α} {f : α → β} {b : β} :
    f <$> x = .ok b ↔ ∃ a, x = .ok a ∧ f a = b := by
  cases x with
  | error e => simp
  | ok a => simp

theorem map_eq_error {x : Except ε α} {f : α → β} {e : ε} :
    f <$> x = .error e ↔ x = .error e := by
  cases x with
  | error e' => simp
  | ok a => simp

theorem mapError_eq_ok {ε' : Type} {x : Except ε α} {f : ε → ε'} {a : α} :
    x.mapError f = .ok a ↔ x = .ok a := by
  cases x with
  | error e => exact ⟨nofun, nofun⟩
  | ok b => exact ⟨fun h => congrArg Except.ok (Except.ok.inj h),
      fun h => congrArg Except.ok (Except.ok.inj h)⟩

theorem toOption_eq_some {x : Except ε α} {a : α} : x.toOption = some a ↔ x = .ok a := by
  cases x with
  | error e => simp [Except.toOption]
  | ok b => simp [Except.toOption]

theorem exists_of_any {x : Except ε α} {p : α → Bool} (h : x.toOption.any p = true) :
    ∃ a, x = .ok a ∧ p a = true := by
  cases x with
  | error e => cases h
  | ok a => exact ⟨a, rfl, h⟩

theorem mapM_cons_eq_ok {f : α → Except ε β} {x : α} {xs : List α} {ys : List β} :
    (x :: xs).mapM f = .ok ys ↔ ∃ y rest, f x = .ok y ∧ xs.mapM f = .ok rest ∧ ys = y :: rest := by
  rw [List.mapM_cons, bind_eq_ok]
  constructor
  · rintro ⟨y, hy, h⟩
    obtain ⟨rest, hr, h⟩ := bind_eq_ok.mp h
    exact ⟨y, rest, hy, hr, by simpa using h.symm⟩
  · rintro ⟨y, rest, hy, hr, rfl⟩
    exact ⟨y, hy, bind_eq_ok.mpr ⟨rest, hr, rfl⟩⟩

theorem length_of_mapM {f : α → Except ε β} {xs : List α} {ys : List β} (h : xs.mapM f = .ok ys) :
    ys.length = xs.length := by
  induction xs generalizing ys with
  | nil => cases h; rfl
  | cons x xs ih =>
    obtain ⟨y, rest, _, hr, rfl⟩ := mapM_cons_eq_ok.mp h
    simp [ih hr]

theorem mem_of_mapM {f : α → Except ε β} {xs : List α} {ys : List β} (h : xs.mapM f = .ok ys)
    {y : β} : y ∈ ys ↔ ∃ x ∈ xs, f x = .ok y := by
  induction xs generalizing ys with
  | nil => cases h; simp
  | cons x xs ih =>
    obtain ⟨z, rest, hz, hr, rfl⟩ := mapM_cons_eq_ok.mp h
    simp only [List.mem_cons, ih hr]
    constructor
    · rintro (rfl | ⟨w, hw, hf⟩)
      · exact ⟨x, .inl rfl, hz⟩
      · exact ⟨w, .inr hw, hf⟩
    · rintro ⟨w, rfl | hw, hf⟩
      · rw [hz] at hf; cases hf; exact .inl rfl
      · exact .inr ⟨w, hw, hf⟩

theorem map_of_mapM {γ : Type} {f : α → Except ε β} {g : β → γ} {k : α → γ} {xs : List α}
    {ys : List β} (h : xs.mapM f = .ok ys) (hk : ∀ x ∈ xs, ∀ y, f x = .ok y → g y = k x) :
    ys.map g = xs.map k := by
  induction xs generalizing ys with
  | nil => cases h; rfl
  | cons x xs ih =>
    obtain ⟨y, rest, hy, hr, rfl⟩ := mapM_cons_eq_ok.mp h
    rw [List.map_cons, List.map_cons, hk x List.mem_cons_self y hy,
      ih hr fun z hz => hk z (List.mem_cons_of_mem _ hz)]

theorem exists_of_mapM {f : α → Except ε β} {xs : List α} {ys : List β} (h : xs.mapM f = .ok ys)
    {x : α} (hx : x ∈ xs) : ∃ y, f x = .ok y := by
  induction xs generalizing ys with
  | nil => cases hx
  | cons w xs ih =>
    obtain ⟨z, rest, hz, hr, -⟩ := mapM_cons_eq_ok.mp h
    rcases List.mem_cons.mp hx with rfl | hx
    · exact ⟨z, hz⟩
    · exact ih hr hx

/-- If a test on the items tells what a test on the results does, the first item that passes has the
first result that does. -/
theorem find?_of_mapM {f : α → Except ε β} {p : α → Bool} {q : β → Bool} {xs : List α} {ys : List β}
    (h : xs.mapM f = .ok ys) (hpq : ∀ x y, f x = .ok y → p x = q y) {y : β} :
    ys.find? q = some y ↔ ∃ x, xs.find? p = some x ∧ f x = .ok y := by
  induction xs generalizing ys with
  | nil => cases h; simp
  | cons x rest ih =>
    obtain ⟨first, others, hfirst, hothers, rfl⟩ := mapM_cons_eq_ok.mp h
    have hsame := hpq x first hfirst
    cases hp : p x with
    | true =>
      have hq : q first = true := hsame ▸ hp
      simp [hp, hq, hfirst]
    | false =>
      have hq : q first = false := hsame ▸ hp
      simp [hp, hq, ih hothers]

theorem mapM_concat_eq_ok {f : α → Except ε β} {xs : List α} {ys : List β} {x : α} {y : β}
    (hs : xs.mapM f = .ok ys) (h : f x = .ok y) : (xs ++ [x]).mapM f = .ok (ys ++ [y]) := by
  rw [List.mapM_append, hs, List.mapM_cons, h]
  rfl

theorem mapM_congr {f g : α → Except ε β} {xs : List α} (h : ∀ x ∈ xs, f x = g x) :
    xs.mapM f = xs.mapM g := by
  induction xs with
  | nil => rfl
  | cons x xs ih =>
    rw [List.mapM_cons, List.mapM_cons, h x (by simp), ih fun y hy => h y (by simp [hy])]

theorem mapM_map {γ δ : Type} {f : α → Except ε β} {f' : γ → Except ε δ} {s : α → γ} {g : β → δ}
    {xs : List α} (h : ∀ x ∈ xs, f' (s x) = g <$> f x) :
    (xs.map s).mapM f' = List.map g <$> xs.mapM f := by
  induction xs with
  | nil => rfl
  | cons x xs ih =>
    obtain ⟨hx, hrest⟩ := List.forall_mem_cons.mp h
    simp only [List.map_cons, List.mapM_cons, hx, ih hrest, map_bind, bind_map_left, map_pure]

theorem exists_mapM {f : α → Except ε β} {xs : List α} (h : ∀ x ∈ xs, ∃ y, f x = .ok y) :
    ∃ ys, xs.mapM f = .ok ys := by
  induction xs with
  | nil => exact ⟨[], rfl⟩
  | cons x xs ih =>
    obtain ⟨y, hy⟩ := h x (by simp)
    obtain ⟨ys, hys⟩ := ih fun z hz => h z (by simp [hz])
    exact ⟨y :: ys, mapM_cons_eq_ok.mpr ⟨y, ys, hy, hys, rfl⟩⟩

theorem exists_foldlM {σ : Type} {f : σ → α → Except ε σ} {xs : List α}
    (h : ∀ s, ∀ x ∈ xs, ∃ s', f s x = .ok s') (s : σ) : ∃ s', xs.foldlM f s = .ok s' := by
  induction xs generalizing s with
  | nil => exact ⟨s, rfl⟩
  | cons x xs ih =>
    obtain ⟨s', hs⟩ := h s x (by simp)
    rw [List.foldlM_cons, hs]
    exact ih (fun s z hz => h s z (by simp [hz])) s'

theorem exists_mapM_forall {f : α → Except ε β} {P : β → Prop} {xs : List α}
    (h : ∀ x ∈ xs, ∃ y, f x = .ok y ∧ P y) : ∃ ys, xs.mapM f = .ok ys ∧ ∀ y ∈ ys, P y := by
  obtain ⟨ys, hys⟩ := exists_mapM fun x hx => (h x hx).imp fun _ hy => hy.1
  refine ⟨ys, hys, fun y hy => ?_⟩
  obtain ⟨x, hx, hxy⟩ := (mem_of_mapM hys).mp hy
  obtain ⟨z, hz, hP⟩ := h x hx
  rw [hz] at hxy
  cases hxy
  exact hP

/-- What holds of the result of a step that goes through. -/
def Yields (x : Except ε α) (P : α → Prop) : Prop := ∀ a, x = .ok a → P a

section

variable {P Q : α → Prop} {R : β → Prop} {x : Except ε α}

theorem yields_ok {a : α} (h : P a) : Yields (.ok a : Except ε α) P := by
  intro b hb
  cases hb
  exact h

theorem yields_error (e : ε) : Yields (.error e : Except ε α) P := nofun

theorem yields_true (x : Except ε α) : Yields x fun _ => True := fun _ _ => trivial

theorem Yields.imp (h : Yields x P) (hPQ : ∀ a, P a → Q a) : Yields x Q := fun a ha => hPQ a (h a ha)

theorem Yields.bind {f : α → Except ε β} (hx : Yields x P) (hf : ∀ a, P a → Yields (f a) R) :
    Yields (x >>= f) R := by
  intro b hb
  obtain ⟨a, ha, hb⟩ := bind_eq_ok.mp hb
  exact hf a (hx a ha) b hb

theorem yields_foldlM {σ : Type} {f : σ → α → Except ε σ} {S : σ → Prop} {xs : List α} {s : σ}
    (hs : S s) (h : ∀ a ∈ xs, ∀ t, S t → Yields (f t a) S) : Yields (xs.foldlM f s) S := by
  induction xs generalizing s with
  | nil => exact yields_ok hs
  | cons a rest ih =>
    obtain ⟨ha, hrest⟩ := List.forall_mem_cons.mp h
    rw [List.foldlM_cons]
    exact Yields.bind (ha s hs) fun t ht => ih ht hrest

theorem yields_mapM {f : α → Except ε β} {xs : List α} (h : ∀ a ∈ xs, Yields (f a) R) :
    Yields (xs.mapM f) fun ys => ∀ y ∈ ys, R y := by
  intro ys hys y hy
  obtain ⟨a, ha, hay⟩ := (mem_of_mapM hys).mp hy
  exact h a ha y hay

end

/-- What holds of the fault of a step that stops. -/
def Blames (x : Except ε α) (B : ε → Prop) : Prop := ∀ e, x = .error e → B e

section

variable {B : ε → Prop} {x : Except ε α}

@[simp] theorem blames_ok (a : α) : Blames (.ok a : Except ε α) B := nofun

@[simp] theorem blames_error {e : ε} : Blames (.error e : Except ε α) B ↔ B e := by
  simp [Blames]

theorem blames_bind {f : α → Except ε β} :
    Blames (x >>= f) B ↔ Blames x B ∧ ∀ a, x = .ok a → Blames (f a) B := by
  cases x with
  | error e => simp
  | ok a => simp

theorem blames_mapM {f : α → Except ε β} {xs : List α} (h : ∀ a ∈ xs, Blames (f a) B) :
    Blames (xs.mapM f) B := by
  induction xs with
  | nil => exact blames_ok []
  | cons a rest ih =>
    obtain ⟨ha, hrest⟩ := List.forall_mem_cons.mp h
    simp [List.mapM_cons, blames_bind, ha, ih hrest]

end

/-- A step goes through, with a result of which `P` holds. -/
def Gives (x : Except ε α) (P : α → Prop) : Prop := ∃ a, x = .ok a ∧ P a

section

variable {P : α → Prop} {R : β → Prop} {x : Except ε α}

@[simp] theorem gives_ok {a : α} : Gives (.ok a : Except ε α) P ↔ P a := by simp [Gives]

@[simp] theorem not_gives_error {e : ε} : ¬Gives (.error e : Except ε α) P := by simp [Gives]

@[simp] theorem not_gives_false : ¬Gives x fun _ => False := fun ⟨_, _, h⟩ => h

theorem gives_bind {f : α → Except ε β} : Gives (x >>= f) R ↔ Gives x fun a => Gives (f a) R := by
  cases x with
  | error e => simp
  | ok a => simp

theorem gives_mapM {f : α → Except ε β} {xs : List α} :
    Gives (xs.mapM f) (fun ys => ∀ y ∈ ys, R y) ↔ ∀ a ∈ xs, Gives (f a) R := by
  constructor
  · rintro ⟨ys, hys, hR⟩ a ha
    obtain ⟨y, hy⟩ := exists_of_mapM hys ha
    exact ⟨y, hy, hR y ((mem_of_mapM hys).mpr ⟨a, ha, hy⟩)⟩
  · exact exists_mapM_forall

theorem gives_mapM_and {f : α → Except ε β} {xs : List α} {q : Prop} :
    Gives (xs.mapM f) (fun _ => q) ↔ (∀ a ∈ xs, Gives (f a) fun _ => True) ∧ q := by
  rw [← gives_mapM (R := fun _ => True)]
  simp only [Gives, implies_true, and_true, exists_and_right]

end

end BusinessAtlas
