import BusinessAtlas.Journey.Inference
import BusinessAtlas.Outcome

/-!
# Walking the component tree

A journey visits the components below its entry point depth first, each one before the components it
contains, and none twice, so that components that contain each other do no harm. A component without
a mapping is not entered. What is still to be looked at stands on a stack, where one component may
stand several times, each time with the order that the component above it gave.
-/

namespace BusinessAtlas

/-- A component that a walk comes to, and the order of its first step. -/
structure Visit where
  component : Component
  mapping : Mapping
  order : Nat

/-- The order of the step after the steps at a component. -/
def Visit.nextOrder (v : Visit) : Nat := v.order + v.mapping.patterns.length

def Component.keyAmong (keys : List Key) (c : Component) : Bool :=
  keys.any fun k => c.name.key? == some k

namespace Component

variable {c : Component} {k : Key} {keys : List Key}

theorem keyAmong_mono {keys' : List Key} (h : keys ⊆ keys') (hc : c.keyAmong keys = true) :
    c.keyAmong keys' = true := by
  obtain ⟨k, hk, he⟩ := List.any_eq_true.mp hc
  exact List.any_eq_true.mpr ⟨k, h hk, he⟩

theorem keyAmong_iff (hk : c.name.key? = some k) : c.keyAmong keys = true ↔ k ∈ keys := by
  simp [keyAmong, hk]

theorem keyAmong_eq_false (hk : c.name.key? = some k) (hn : k ∉ keys) : c.keyAmong keys = false := by
  rw [← Bool.not_eq_true, keyAmong_iff hk]
  exact hn

end Component

def Project.childrenOf (p : Project) (c : Component) : Except Fault (List Component) := do
  return (← c.children.mapM p.component?).filterMap id

namespace Project

variable {p : Project} {c d : Component} {children : List Component}

theorem mem_of_component? {name : Json} (h : p.component? name = .ok (some d)) :
    d ∈ p.components := by
  obtain ⟨i, _, h⟩ := bind_eq_ok.mp h
  exact List.mem_of_find?_eq_some (Except.ok.inj h)

theorem mem_childrenOf (h : p.childrenOf c = .ok children) :
    d ∈ children ↔ ∃ name ∈ c.children, p.component? name = .ok (some d) := by
  obtain ⟨found, hf, h⟩ := bind_eq_ok.mp h
  cases h
  rw [← mem_of_mapM hf, List.mem_filterMap]
  simp

theorem mem_of_childrenOf (h : p.childrenOf c = .ok children) (hd : d ∈ children) :
    d ∈ p.components := by
  obtain ⟨name, _, hn⟩ := (mem_childrenOf h).mp hd
  exact mem_of_component? hn

theorem length_childrenOf_le (h : p.childrenOf c = .ok children) :
    children.length ≤ c.children.length := by
  obtain ⟨found, hf, h⟩ := bind_eq_ok.mp h
  cases h
  rw [← length_of_mapM hf]
  exact List.length_filterMap_le _ _

end Project

abbrev Place (p : Project) (entry : Component) := { c : Component // c ∈ entry :: p.components }

def Project.placesIn (p : Project) (entry c : Component) : Except Fault (List (Place p entry)) :=
  match h : p.childrenOf c with
  | .error f => .error f
  | .ok children => .ok (children.attach.map fun d =>
      ⟨d.1, List.mem_cons_of_mem _ (mem_of_childrenOf h d.2)⟩)

theorem Project.map_placesIn (p : Project) (entry c : Component) :
    List.map Subtype.val <$> p.placesIn entry c = p.childrenOf c := by
  unfold placesIn
  split <;> simp [*]

theorem Project.childrenOf_of_placesIn {p : Project} {entry c : Component}
    {ds : List (Place p entry)} (h : p.placesIn entry c = .ok ds) :
    p.childrenOf c = .ok (ds.map Subtype.val) := by
  rw [← p.map_placesIn entry, h]
  rfl

theorem Project.length_placesIn_le {p : Project} {entry c : Component} {ds : List (Place p entry)}
    (h : p.placesIn entry c = .ok ds) : ds.length ≤ c.children.length := by
  simpa using length_childrenOf_le (childrenOf_of_placesIn h)

/-- Where a walk stands: the keys of the components that were visited, the places still to be looked
at, each with the order of its first step, and the visits made. -/
structure Walk (p : Project) (entry : Component) where
  seen : List Key
  stack : List (Place p entry × Nat)
  made : List Visit

namespace Terrain

variable {entry : Component}

/-- One look at the place on top of the stack, or nothing if there is none. A place that was visited
is passed over; of the places in a component, those that were visited are not put on the stack. -/
def advance (t : Terrain) (w : Walk t.project entry) :
    Except Fault (Option (Walk t.project entry)) :=
  match w.stack with
  | [] => .ok none
  | (c, order) :: stack =>
    match c.1.name.key? with
    | none => .error .notIdentifier
    | some k =>
      if k ∈ w.seen then .ok (some { w with stack })
      else do
        let seen := k :: w.seen
        match ← t.mapping? c.1.name with
        | none => return some { w with seen, stack }
        | some m =>
          let visit : Visit := ⟨c.1, m, order⟩
          let below := (← t.project.placesIn entry c.1).filter fun d => !d.1.keyAmong seen
          return some ⟨seen, below.map (fun d => (d, visit.nextOrder)) ++ stack, w.made ++ [visit]⟩

variable {t : Terrain} {w w' : Walk t.project entry}

theorem advance_cases (h : t.advance w = .ok (some w')) :
    ∃ c order stack k, w.stack = (c, order) :: stack ∧ c.1.name.key? = some k ∧
      ((k ∈ w.seen ∧ w' = { w with stack }) ∨
        (k ∉ w.seen ∧ t.mapping? c.1.name = .ok none ∧
          w' = { w with seen := k :: w.seen, stack }) ∨
        (k ∉ w.seen ∧ ∃ m ds, t.mapping? c.1.name = .ok (some m) ∧
          t.project.placesIn entry c.1 = .ok ds ∧
          w' = ⟨k :: w.seen, (ds.filter fun d => !d.1.keyAmong (k :: w.seen)).map
              (fun d => (d, order + m.patterns.length)) ++ stack,
            w.made ++ [⟨c.1, m, order⟩]⟩)) := by
  unfold advance at h
  split at h
  · cases h
  · rename_i c order stack hs
    split at h
    · cases h
    · rename_i k hk
      refine ⟨c, order, stack, k, hs, hk, ?_⟩
      split at h
      · rename_i hm
        cases h
        exact .inl ⟨hm, rfl⟩
      · rename_i hm
        obtain ⟨o, ho, h⟩ := bind_eq_ok.mp h
        cases o with
        | none =>
          cases h
          exact .inr (.inl ⟨hm, ho, rfl⟩)
        | some m =>
          obtain ⟨ds, hd, h⟩ := bind_eq_ok.mp h
          cases h
          exact .inr (.inr ⟨hm, m, ds, ho, hd, rfl⟩)

theorem stack_of_advance_none (h : t.advance w = .ok none) : w.stack = [] := by
  unfold advance at h
  split at h
  · assumption
  · split at h
    · cases h
    · split at h
      · cases h
      · obtain ⟨o, _, h⟩ := bind_eq_ok.mp h
        cases o with
        | none => cases h
        | some m =>
          obtain ⟨ds, _, h⟩ := bind_eq_ok.mp h
          cases h

def unseenSum (weight : Component → Nat) (seen : List Key) (places : List Component) : Nat :=
  totalOf (places.map fun c => if c.keyAmong seen then 0 else weight c)

@[simp] theorem unseenSum_nil (weight : Component → Nat) (places : List Component) :
    unseenSum weight [] places = totalOf (places.map weight) := by
  simp [unseenSum, Component.keyAmong]

theorem unseenSum_le {seen seen' : List Key} (h : seen ⊆ seen') (weight : Component → Nat)
    (places : List Component) : unseenSum weight seen' places ≤ unseenSum weight seen places := by
  induction places with
  | nil => simp [unseenSum]
  | cons c cs ih =>
    simp only [unseenSum, List.map_cons, totalOf_cons] at ih ⊢
    cases hc : c.keyAmong seen with
    | true => simp only [Component.keyAmong_mono h hc, if_true]; omega
    | false => cases c.keyAmong seen' <;> simp <;> omega

theorem unseenSum_visit (weight : Component → Nat) {k : Key} {seen : List Key}
    {places : List Component} {c : Component} (hc : c ∈ places) (hk : c.name.key? = some k)
    (hs : k ∉ seen) :
    unseenSum weight (k :: seen) places + weight c ≤ unseenSum weight seen places := by
  induction places with
  | nil => cases hc
  | cons d ds ih =>
    have hsub : seen ⊆ k :: seen := fun x hx => List.mem_cons_of_mem _ hx
    rcases List.mem_cons.mp hc with rfl | hd
    · have hle := unseenSum_le hsub weight ds
      have hn : c.keyAmong seen = false := Component.keyAmong_eq_false hk hs
      have hy : c.keyAmong (k :: seen) = true := (Component.keyAmong_iff hk).mpr List.mem_cons_self
      simp only [unseenSum, List.map_cons, totalOf_cons, hn, hy, if_true] at hle ⊢
      simp only [Bool.false_eq_true, if_false]
      omega
    · have hrest := ih hd
      simp only [unseenSum, List.map_cons, totalOf_cons] at hrest ⊢
      cases hc : d.keyAmong seen with
      | true => simp only [Component.keyAmong_mono hsub hc, if_true]; omega
      | false => cases d.keyAmong (k :: seen) <;> simp <;> omega

/-- The places on the stack, and as many as may still come onto it. -/
def pending (w : Walk t.project entry) : Nat :=
  w.stack.length + unseenSum (·.children.length) w.seen (entry :: t.project.components)

/-- A look that pushes places visits a component whose children are not counted from then on. -/
theorem pending_advance_lt (h : t.advance w = .ok (some w')) : pending w' < pending w := by
  obtain ⟨c, order, stack, k, hs, hk, hw⟩ := advance_cases h
  rcases hw with ⟨_, rfl⟩ | ⟨_, _, rfl⟩ | ⟨hn, m, ds, _, hd, rfl⟩
  · simp [pending, hs]
  · have hle := unseenSum_le (fun x hx => List.mem_cons_of_mem k hx : w.seen ⊆ k :: w.seen)
      (·.children.length) (entry :: t.project.components)
    simp only [pending, hs, List.length_cons]
    omega
  · have hle := unseenSum_visit (·.children.length) c.2 hk hn
    have hlen : ds.length ≤ c.1.children.length := Project.length_placesIn_le hd
    have hf := List.length_filter_le (fun d : Place t.project entry => !d.1.keyAmong (k :: w.seen)) ds
    simp only [pending, hs, List.length_append, List.length_map, List.length_cons]
    omega

def run (t : Terrain) (w : Walk t.project entry) : Except Fault (List Visit) :=
  match _h : t.advance w with
  | .error f => .error f
  | .ok none => .ok w.made
  | .ok (some w') => run t w'
termination_by pending w
decreasing_by exact pending_advance_lt _h

theorem run_eq (w : Walk t.project entry) : t.run w =
    match t.advance w with
    | .error f => .error f
    | .ok none => .ok w.made
    | .ok (some w') => t.run w' := by
  rw [run]
  cases t.advance w with
  | error f => rfl
  | ok o => cases o <;> rfl

def start (t : Terrain) (entry : Component) : Walk t.project entry :=
  ⟨[], [(⟨entry, List.mem_cons_self⟩, 1)], []⟩

def visits (t : Terrain) (entry : Component) : Except Fault (List Visit) := t.run (t.start entry)

end Terrain

end BusinessAtlas
