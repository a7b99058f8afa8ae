import BusinessAtlas.Classifier.Tables
import BusinessAtlas.Journey.Trace
import BusinessAtlas.Proofs.Grouped
import Mathlib

/-!
# The walk as a recursion

The walk with its stack makes the steps that a recursive visit in preorder foresees: at the same
components, for the same interactions, in the same order and with the same numbers. A place that
stands on the stack with an order that is out of date does no harm: by the time it is looked at, the
recursion has visited it as well.
-/

namespace BusinessAtlas.Terrain

/-- A step that is foreseen: the component that it is at, the number of its interaction there, the
interaction itself and its order. -/
structure Mark where
  component : String
  index : Nat
  interaction : Pattern
  order : Nat

/-- What a recursive visit leaves behind: the marks it made and the keys of all components that are
visited by then. -/
structure Trail (before : List Key) where
  marks : List Mark
  seen : List Key
  grows : before ⊆ seen

variable {t : Terrain} {entry : Component}

/-- How many places were not visited yet. -/
def unseen (seen : List Key) (places : List Component) : Nat := unseenSum (fun _ => 1) seen places

theorem unseen_le {seen seen' : List Key} (h : seen ⊆ seen') (places : List Component) :
    unseen seen' places ≤ unseen seen places := unseenSum_le h _ places

theorem unseen_visit_lt {k : Key} {seen : List Key} {places : List Component} {c : Component}
    (hc : c ∈ places) (hk : c.name.key? = some k) (hs : k ∉ seen) :
    unseen (k :: seen) places < unseen seen places :=
  unseenSum_visit (fun _ => 1) hc hk hs

mutual

/-- Visits a place whose first mark has the order `o`: not at all if it was visited, without going
on if it has no mapping, and else with a mark for each interaction before the places in it. -/
def visit (t : Terrain) (seen : List Key) (c : Place t.project entry) (o : Nat) :
    Except Fault (Trail seen) :=
  match _hk : c.1.name.key? with
  | none => .error .notIdentifier
  | some k =>
    if _hs : k ∈ seen then .ok ⟨[], seen, List.Subset.refl _⟩
    else do
      match ← t.mapping? c.1.name with
      | none => return ⟨[], k :: seen, List.subset_cons_self _ _⟩
      | some m =>
        let here := m.patterns.mapIdx fun i p => ⟨c.1.name.shown, i, p, o + i⟩
        let children ← t.project.placesIn entry c.1
        let below ← visitEach t (k :: seen) children (o + m.patterns.length)
        return ⟨here ++ below.marks, below.seen,
          List.Subset.trans (List.subset_cons_self _ _) below.grows⟩
termination_by (unseen seen (entry :: t.project.components), 0)
decreasing_by exact Prod.Lex.left _ _ (unseen_visit_lt c.2 _hk _hs)

/-- Visits places one after the other, all from the same order on. -/
def visitEach (t : Terrain) (seen : List Key) (cs : List (Place t.project entry)) (o : Nat) :
    Except Fault (Trail seen) :=
  match cs with
  | [] => .ok ⟨[], seen, List.Subset.refl _⟩
  | c :: rest => do
    let first ← visit t seen c o
    let others ← visitEach t first.seen rest o
    return ⟨first.marks ++ others.marks, others.seen, List.Subset.trans first.grows others.grows⟩
termination_by (unseen seen (entry :: t.project.components), cs.length + 1)
decreasing_by
  · exact Prod.Lex.right _ (by omega)
  · have hle := unseen_le first.grows (entry :: t.project.components)
    rcases Nat.lt_or_eq_of_le hle with h | h
    · exact Prod.Lex.left _ _ h
    · rw [h]
      exact Prod.Lex.right _ (by simp)

end

theorem visit_of_seen {seen : List Key} {c : Place t.project entry} {k : Key}
    (hk : c.1.name.key? = some k) (hs : k ∈ seen) (o : Nat) :
    t.visit seen c o = .ok ⟨[], seen, List.Subset.refl _⟩ := by
  rw [visit]
  split
  · rename_i hn; rw [hk] at hn; cases hn
  · rename_i k' hk'
    rw [hk] at hk'
    cases hk'
    rw [dif_pos hs]

theorem entry_mem_places (t : Terrain) (entry : Component) :
    entry ∈ entry :: t.project.components := List.mem_cons_self

/-- The marks of the recursive walk from an entry point. -/
def preorder (t : Terrain) (entry : Component) : Except Fault (List Mark) := do
  let trail ← t.visit [] (⟨entry, entry_mem_places t entry⟩ : Place t.project entry) 1
  return trail.marks

private def visitsBefore (pre : List Visit) (w : Walk t.project entry) : Walk t.project entry :=
  { w with made := pre ++ w.made }

private theorem advance_visitsBefore (pre : List Visit) (w : Walk t.project entry) :
    t.advance (visitsBefore pre w) = Option.map (visitsBefore pre) <$> t.advance w := by
  obtain ⟨seen, stack, made⟩ := w
  unfold advance visitsBefore
  cases stack with
  | nil => rfl
  | cons e stack =>
    obtain ⟨c, o⟩ := e
    dsimp only
    cases hk : c.1.name.key? with
    | none => rfl
    | some k =>
      by_cases hs : k ∈ seen
      · simp only [if_pos hs]; rfl
      · simp only [if_neg hs]
        cases t.mapping? c.1.name with
        | error f => rfl
        | ok m =>
          cases m with
          | none => rfl
          | some m =>
            cases t.project.placesIn entry c.1 with
            | error f => rfl
            | ok ds => simp [List.append_assoc]

private theorem run_visitsBefore (pre : List Visit) (w : Walk t.project entry) :
    t.run (visitsBefore pre w) = (pre ++ ·) <$> t.run w := by
  induction w using run.induct t with
  | case1 w f h => rw [run_eq, run_eq, advance_visitsBefore, h]; rfl
  | case2 w h => rw [run_eq, run_eq, advance_visitsBefore, h]; rfl
  | case3 w w' h ih =>
    rw [run_eq, run_eq w, advance_visitsBefore, h]
    exact ih

/-- The marks that a visit stands for. -/
def marksAt (v : Visit) : List Mark :=
  v.mapping.patterns.mapIdx fun i p => ⟨v.component.name.shown, i, p, v.order + i⟩

/-- The marks that a walk still makes. -/
def marksAfter (t : Terrain) (seen : List Key) (stack : List (Place t.project entry × Nat)) :
    Except Fault (List Mark) := do
  return (← t.run ⟨seen, stack, []⟩).flatMap marksAt

private theorem marksAfter_made (seen : List Key) (stack : List (Place t.project entry × Nat))
    (v : Visit) : (do return (← t.run ⟨seen, stack, [v]⟩).flatMap marksAt) =
      (do return marksAt v ++ (← t.marksAfter seen stack)) := by
  have h := run_visitsBefore [v] (⟨seen, stack, []⟩ : Walk t.project entry)
  simp only [visitsBefore, List.append_nil] at h
  rw [h, marksAfter]
  cases t.run (⟨seen, stack, []⟩ : Walk t.project entry) with
  | error f => rfl
  | ok vs => simp

theorem marksAfter_nil (seen : List Key) :
    t.marksAfter seen ([] : List (Place t.project entry × Nat)) = .ok [] := by
  rw [marksAfter, run_eq]
  rfl

theorem marksAfter_cons (seen : List Key) (c : Place t.project entry) (o : Nat)
    (stack : List (Place t.project entry × Nat)) :
    t.marksAfter seen ((c, o) :: stack) =
      match c.1.name.key? with
      | none => .error .notIdentifier
      | some k =>
        if k ∈ seen then t.marksAfter seen stack
        else do
          match ← t.mapping? c.1.name with
          | none => t.marksAfter (k :: seen) stack
          | some m =>
            let ds ← t.project.placesIn entry c.1
            let below := ds.filter fun d => !d.1.keyAmong (k :: seen)
            let after ← t.marksAfter (k :: seen)
              (below.map (fun d => (d, o + m.patterns.length)) ++ stack)
            return marksAt ⟨c.1, m, o⟩ ++ after := by
  rw [marksAfter, run_eq, advance]
  dsimp only
  cases hk : c.1.name.key? with
  | none => rfl
  | some k =>
    by_cases hs : k ∈ seen
    · simp only [if_pos hs]; rfl
    · simp only [if_neg hs]
      cases t.mapping? c.1.name with
      | error f => rfl
      | ok m =>
        cases m with
        | none => rfl
        | some m =>
          cases t.project.placesIn entry c.1 with
          | error f => rfl
          | ok ds => exact marksAfter_made _ _ _

/-- Looking at places that a component pushed is visiting each of its children: those that were
visited before the push, which the stack leaves out, the recursion passes over. -/
private theorem marksAfter_each (base : List Key)
    (h : ∀ seen, base ⊆ seen → ∀ (c : Place t.project entry) o stack,
      t.marksAfter seen ((c, o) :: stack) =
        (do let first ← t.visit seen c o
            return first.marks ++ (← t.marksAfter first.seen stack)))
    (ds : List (Place t.project entry)) (o : Nat) (stack : List (Place t.project entry × Nat))
    (seen : List Key) (hb : base ⊆ seen) :
    t.marksAfter seen
        ((ds.filter fun d => !d.1.keyAmong base).map (fun d => (d, o)) ++ stack) =
      (do let below ← t.visitEach seen ds o
          return below.marks ++ (← t.marksAfter below.seen stack)) := by
  induction ds generalizing seen with
  | nil =>
    rw [visitEach]
    simp
  | cons d ds ih =>
    rw [visitEach]
    cases hd : d.1.keyAmong base with
    | true =>
      obtain ⟨k, hk, hkey⟩ := List.any_eq_true.mp hd
      rw [visit_of_seen (eq_of_beq hkey) (hb hk)]
      simp only [List.filter_cons, hd, Bool.not_true, Bool.false_eq_true, if_false, ok_bind]
      rw [ih seen hb]
      simp
    | false =>
      simp only [List.filter_cons, hd, Bool.not_false, if_true, List.map_cons, List.cons_append]
      rw [h seen hb]
      cases hv : t.visit seen d o with
      | error f => rfl
      | ok first =>
        simp only [ok_bind]
        rw [ih first.seen (List.Subset.trans hb first.grows)]
        simp [List.append_assoc]

theorem marksAfter_visit (seen : List Key) (c : Place t.project entry) (o : Nat)
    (stack : List (Place t.project entry × Nat)) :
    t.marksAfter seen ((c, o) :: stack) =
      (do let first ← t.visit seen c o
          return first.marks ++ (← t.marksAfter first.seen stack)) := by
  induction hn : unseen seen (entry :: t.project.components) using Nat.strongRecOn
    generalizing seen c o stack with
  | ind n ih =>
    rw [marksAfter_cons, visit]
    cases hk : c.1.name.key? with
    | none => rfl
    | some k =>
      by_cases hs : k ∈ seen
      · simp only [if_pos hs, dif_pos hs, ok_bind]
        simp
      · simp only [if_neg hs, dif_neg hs]
        cases hm : t.mapping? c.1.name with
        | error f => rfl
        | ok m =>
          cases m with
          | none => simp
          | some m =>
            cases hd : t.project.placesIn entry c.1 with
            | error f => rfl
            | ok ds =>
              have hlt := unseen_visit_lt c.2 hk hs
              have heach := marksAfter_each (k :: seen) (fun seen' hb c' o' stack' =>
                ih _ (Nat.lt_of_le_of_lt (unseen_le hb _) (hn ▸ hlt)) seen' c' o' stack' rfl)
                ds (o + m.patterns.length) stack (k :: seen) (List.Subset.refl _)
              simp only [ok_bind]
              rw [heach]
              cases t.visitEach (k :: seen) ds (o + m.patterns.length) with
              | error f => rfl
              | ok below => simp [marksAt]

/-- The number of looks after which a walk is over. -/
def runWithin (t : Terrain) : Nat → Walk t.project entry → Option (Except Fault (List Visit))
  | 0, _ => none
  | n + 1, w =>
    match t.advance w with
    | .error f => some (.error f)
    | .ok none => some (.ok w.made)
    | .ok (some w') => runWithin t n w'

theorem runWithin_eq {n : Nat} {w : Walk t.project entry} (h : pending w < n) :
    t.runWithin n w = some (t.run w) := by
  induction n generalizing w with
  | zero => omega
  | succ n ih =>
    rw [runWithin, run_eq]
    cases ha : t.advance w with
    | error f => rfl
    | ok o =>
      cases o with
      | none => rfl
      | some w' =>
        have hlt := pending_advance_lt ha
        exact ih (by omega)

variable {α : Type} [Scalar α]

/-- What tells one step of a walk from another: its component, its id, its interaction and its
order. -/
def heading (made : Pattern × Step α) : String × String × Pattern × α :=
  (made.2.component, made.2.id, made.1, made.2.order)

/-- The heading of the step at a mark. -/
def Mark.heading (s : Mark) : String × String × Pattern × α :=
  (s.component, "step-" ++ s.component ++ "-" ++ toString s.index, s.interaction,
    Scalar.count s.order)

theorem map_heading_steps (tables : JourneyTables) (v : Visit) :
    (v.steps tables).map heading = (marksAt v).map (Mark.heading (α := α)) := by
  simp only [Visit.steps, marksAt, List.mapIdx_eq_zipIdx_map, List.map_map]
  rfl

/-- The walk from an entry point is over after at most two looks more than there are children, and its
steps are those that the recursive walk foresees. -/
theorem stepsFrom_eq_preorder (t : Terrain) (entry : Component) :
    (∃ n, n ≤ ((entry :: t.project.components).map (·.children.length)).sum + 2 ∧
      t.runWithin n (t.start entry) = some (t.visits entry)) ∧
    List.map heading <$> t.stepsFrom (α := α) entry =
      List.map Mark.heading <$> t.preorder entry := by
  constructor
  · refine ⟨_, Nat.le_refl _, runWithin_eq ?_⟩
    simp only [pending, start, unseenSum_nil, totalOf_eq_sum, List.length_singleton]
    omega
  · have h := marksAfter_visit [] (⟨entry, List.mem_cons_self⟩ : Place t.project entry) 1 []
    simp only [marksAfter_nil, ok_bind, List.append_nil] at h
    rw [preorder, ← h, marksAfter, stepsFrom, visits, start]
    cases t.run (⟨[], [(⟨entry, List.mem_cons_self⟩, 1)], []⟩ : Walk t.project entry) with
    | error f => rfl
    | ok vs => simp [List.map_flatMap, map_heading_steps]

private def hall (name : String) (children : List String) : Component :=
  ⟨.text name, .null, .null, [], [], children.map .text, []⟩

private def guide (name : String) (patterns : List Pattern) : Mapping :=
  ⟨name, .functional, "", "", patterns, ⟨[], [], [], []⟩⟩

private def foyer : Component := hall "Foyer" ["Gallery", "Archive", "Ghost"]

/-- The archive stands on the stack twice, with the order that the foyer gives it and with the one that
the gallery gives it, from where it is visited. It contains the gallery that contains it, and what is
below the cellar is not looked at, for the cellar has no mapping. -/
private def museum : Terrain where
  project := ⟨[foyer, hall "Gallery" ["Cellar", "Archive", "Foyer"], hall "Cellar" ["Vault"],
    hall "Archive" ["Gallery"], hall "Vault" []], [], []⟩
  mappings := [guide "Foyer" [⟨.navigation, "", [], []⟩],
    guide "Gallery" [⟨.userInput, "", [], []⟩, ⟨.apiCall, "", [], []⟩],
    guide "Archive" [⟨.display, "", [], []⟩], guide "Vault" [⟨.display, "", [], []⟩]]
  tables := .bundled

theorem stepsFrom_eq_preorder_museum :
    (∃ n, n ≤ 13 ∧ museum.runWithin n (museum.start foyer) = some (museum.visits foyer)) ∧
    ∃ marks, museum.preorder foyer = .ok marks ∧
      marks.map (fun s => (s.component, s.index, s.order)) =
        [("Foyer", 0, 1), ("Gallery", 0, 2), ("Gallery", 1, 3), ("Archive", 0, 4)] ∧
      ∃ made, museum.stepsFrom (α := Rat) foyer = .ok made ∧
        made.map heading = marks.map Mark.heading ∧
        made.map (fun m => (m.2.component, m.2.id, m.2.order)) =
          [("Foyer", "step-Foyer-0", 1), ("Gallery", "step-Gallery-0", 2),
            ("Gallery", "step-Gallery-1", 3), ("Archive", "step-Archive-0", 4)] := by
  obtain ⟨hwithin, heq⟩ := stepsFrom_eq_preorder (α := Rat) museum foyer
  obtain ⟨marks, hmarks, htriples⟩ := map_eq_ok.mp (toOption_eq_some.mp
    (show (List.map (fun s => (s.component, s.index, s.order)) <$> museum.preorder foyer).toOption =
      some [("Foyer", 0, 1), ("Gallery", 0, 2), ("Gallery", 1, 3), ("Archive", 0, 4)] by cbv))
  obtain ⟨made, hmade, hsteps⟩ := map_eq_ok.mp (toOption_eq_some.mp
    (show (List.map (fun m => (m.2.component, m.2.id, m.2.order)) <$>
        museum.stepsFrom (α := Rat) foyer).toOption =
      some [("Foyer", "step-Foyer-0", 1), ("Gallery", "step-Gallery-0", 2),
        ("Gallery", "step-Gallery-1", 3), ("Archive", "step-Archive-0", 4)] by decide +kernel))
  rw [hmarks, hmade] at heq
  exact ⟨hwithin, marks, hmarks, htriples, made, hmade, Except.ok.inj heq, hsteps⟩

end BusinessAtlas.Terrain
