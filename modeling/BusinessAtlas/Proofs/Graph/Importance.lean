import BusinessAtlas.Proofs.Graph.Found
import Mathlib.Tactic.Linarith
import Mathlib.Tactic.Positivity

/-!
# How important a node can be

Connections make a node more important, up to a highest importance that no node exceeds. There is no
lowest one: all but stories start from a count, but the importance of a story falls without end with
its confidence. A node is below zero exactly if it is that of a story whose confidence neither its
priority nor its connections make up for.
-/

namespace BusinessAtlas

variable {α β : Type} [Scalar α]

/-- A node that starts from a count, and is not that of a story. -/
structure Node.Counted (n : Node α β) : Prop where
  kind : n.kind ≠ .story
  importance : ∃ k : Nat, n.metrics.importance = Scalar.count k

private theorem counted_ofCapability (x : Capability) (n : Node α β)
    (h : Node.ofCapability x = .ok n) : n.Counted := by
  obtain ⟨importance, _, h⟩ := bind_eq_ok.mp h
  obtain ⟨value, _, h⟩ := bind_eq_ok.mp h
  obtain ⟨color, _, h⟩ := bind_eq_ok.mp h
  obtain ⟨i, _, h⟩ := bind_eq_ok.mp h
  cases h
  exact ⟨NodeKind.noConfusion, importance, rfl⟩

private theorem counted_ofRule (x : Rule) (n : Node α β) (h : Node.ofRule x = .ok n) :
    n.Counted := by
  obtain ⟨affected, _, h⟩ := bind_eq_ok.mp h
  obtain ⟨importance, _, h⟩ := bind_eq_ok.mp h
  obtain ⟨i, _, h⟩ := bind_eq_ok.mp h
  cases h
  exact ⟨NodeKind.noConfusion, importance, rfl⟩

private theorem counted_ofPersona (x : Persona) (n : Node α β) (h : Node.ofPersona x = .ok n) :
    n.Counted := by
  obtain ⟨i, _, h⟩ := bind_eq_ok.mp h
  cases h
  exact ⟨NodeKind.noConfusion, 80, rfl⟩

namespace Graph

/-- First come the nodes of the stories, and all others start from counts. -/
structure Sources.Ranks (s : Sources α) (ns : List (Node α β)) : Prop where
  split : ∃ stories others, ns = stories ++ others ∧ s.context.stories.mapM Node.ofStory = .ok stories ∧
    ∀ n ∈ others, n.Counted

theorem ranks_addAllNodes (s : Sources α) : Offers .node s.Ranks (addAllNodes (β := β) s) := by
  refine (offers_makesNodes s).imp fun ns hns => ?_
  obtain ⟨stories, capabilities, rules, personas, hmakes⟩ := hns
  refine ⟨stories, _, hmakes.eq, hmakes.stories, ?_⟩
  simp only [List.forall_mem_append, List.forall_mem_map]
  refine ⟨⟨⟨⟨⟨⟨fun n hn => ?_, fun f _ => ?_⟩, fun m _ => ?_⟩, fun e _ => ?_⟩, fun j _ => ?_⟩,
    fun n hn => ?_⟩, fun n hn => ?_⟩
  · obtain ⟨x, -, hn⟩ := (mem_of_mapM hmakes.capabilities).mp hn
    exact counted_ofCapability x n hn
  · exact ⟨NodeKind.noConfusion, f.value, rfl⟩
  · exact ⟨NodeKind.noConfusion, m.importance, rfl⟩
  · exact ⟨NodeKind.noConfusion, 15 * e.operations.length, rfl⟩
  · exact ⟨NodeKind.noConfusion, 70, rfl⟩
  · obtain ⟨x, -, hn⟩ := (mem_of_mapM hmakes.rules).mp hn
    exact counted_ofRule x n hn
  · obtain ⟨x, -, hn⟩ := (mem_of_mapM hmakes.personas).mp hn
    exact counted_ofPersona x n hn

theorem Sources.Ranks.counted_or_story {s : Sources α} {ns : List (Node α β)} (h : s.Ranks ns)
    {n : Node α β} (hn : n ∈ firstPer (·.id.key) ns) : n.Counted ∨ ∃ x,
      s.context.stories.find? (fun x => x.id.key? = some n.id.key) = some x ∧
        Node.ofStory x = .ok n := by
  obtain ⟨stories, others, rfl, hstories, hothers⟩ := h
  have hfirst := find?_of_mem_firstPer hn
  rw [List.find?_append] at hfirst
  cases hstory : stories.find? fun y => decide (y.id.key = n.id.key) with
  | none =>
    rw [hstory, Option.none_or] at hfirst
    exact .inl (hothers n (List.mem_of_find?_eq_some hfirst))
  | some m =>
    rw [hstory, Option.some_or] at hfirst
    refine .inr ((find?_of_mapM hstories fun x y hy => ?_).mp (hstory.trans hfirst))
    exact decide_eq_decide.mpr (by rw [(made_ofStory x y hy).key_eq, Option.some.injEq])

end Graph

/-- What the priority of a story adds to its importance. -/
def Story.bonus (x : Story α) : Except Fault Nat :=
  x.priority.choose [("critical", 30), ("high", 20), ("medium", 10)] 0

private theorem importance_ofStory {x : Story α} {n : Node α β} (h : Node.ofStory x = .ok n) :
    ∃ bonus, x.bonus = .ok bonus ∧ n.metrics.importance = Scalar.cap topImportance
      (Scalar.add (Scalar.count (50 + bonus)) (Scalar.mul x.confidence (Scalar.int 20))) := by
  obtain ⟨importance, himportance, h⟩ := bind_eq_ok.mp h
  obtain ⟨complexity, _, h⟩ := bind_eq_ok.mp h
  obtain ⟨value, _, h⟩ := bind_eq_ok.mp h
  obtain ⟨color, _, h⟩ := bind_eq_ok.mp h
  obtain ⟨i, _, h⟩ := bind_eq_ok.mp h
  obtain ⟨bonus, hbonus, himportance⟩ := bind_eq_ok.mp himportance
  cases h
  exact ⟨bonus, hbonus, (Except.ok.inj himportance).symm⟩

theorem Scalar.cap_eq_min (bound : Int) (x : Rat) : Scalar.cap bound x = min x bound := by
  unfold Scalar.cap
  split
  · next h => exact (min_eq_left (le_of_lt (of_decide_eq_true h))).symm
  · next h => exact (min_eq_right (not_lt.mp (of_decide_eq_false (Bool.eq_false_iff.mpr h)))).symm

section

variable {n : Node Rat β}

private theorem cap_eq (x : Rat) : Scalar.cap topImportance x = min x 100 := Scalar.cap_eq_min _ x

private theorem min_add_neg_iff (x : Rat) (degree : Nat) :
    min (min x 100 + 2 * degree) 100 < 0 ↔ x + 2 * degree < 0 := by
  have hdegree : (0 : Rat) ≤ 2 * degree := by positivity
  rcases le_total x 100 with hx | hx
  · rw [min_eq_left hx, min_lt_iff]
    exact or_iff_left (by norm_num)
  · rw [min_eq_right hx, min_lt_iff]
    constructor
    · rintro (h | h) <;> linarith
    · intro h
      linarith

private theorem importance_linked (n : Node Rat β) (degree : Nat) :
    (n.linked degree).metrics.importance = min (n.metrics.importance + 2 * degree) 100 := by
  change Scalar.cap topImportance (n.metrics.importance + ((2 * degree : Nat) : Int)) = _
  rw [cap_eq]
  push_cast
  rfl

private theorem Node.Counted.importance_nonneg (h : n.Counted) : 0 ≤ n.metrics.importance := by
  obtain ⟨k, hk⟩ := h.importance
  change n.metrics.importance = ((k : Int) : Rat) at hk
  rw [hk]
  positivity

private theorem exact_ofStory {x : Story Rat} (h : Node.ofStory x = .ok n) : ∃ bonus,
    x.bonus = .ok bonus ∧ n.metrics.importance = min (50 + bonus + x.confidence * 20) 100 := by
  obtain ⟨bonus, hbonus, himportance⟩ := importance_ofStory h
  change _ = Scalar.cap topImportance
    (((50 + bonus : Nat) : Int) + x.confidence * ((20 : Int) : Rat)) at himportance
  refine ⟨bonus, hbonus, himportance.trans ?_⟩
  rw [cap_eq]
  push_cast
  rfl

end

namespace Graph

private theorem linked_neg_iff {s : Sources Rat} {ns : List (Node Rat β)} (h : s.Ranks ns)
    {n : Node Rat β} (hn : n ∈ firstPer (·.id.key) ns) (degree : Nat) :
    (n.linked degree).metrics.importance < 0 ↔ ∃ x bonus,
      s.context.stories.find? (fun x => x.id.key? = some n.id.key) = some x ∧ n.kind = .story ∧
        x.bonus = .ok bonus ∧ 50 + bonus + x.confidence * 20 + 2 * degree < 0 := by
  rw [importance_linked]
  rcases h.counted_or_story hn with hcounted | ⟨x, hx, hmade⟩
  · constructor
    · intro hlt
      have hdegree : (0 : Rat) ≤ 2 * degree := by positivity
      have hsum := add_nonneg hcounted.importance_nonneg hdegree
      exact absurd hlt (not_lt.mpr (le_min hsum (by norm_num)))
    · rintro ⟨-, -, -, hstory, -⟩
      exact absurd hstory hcounted.kind
  · obtain ⟨bonus, hbonus, himportance⟩ := exact_ofStory hmade
    rw [himportance, min_add_neg_iff]
    constructor
    · intro hlt
      exact ⟨x, bonus, hx, (made_ofStory x n hmade).kind_eq, hbonus, hlt⟩
    · rintro ⟨y, other, hy, -, hother, hlt⟩
      obtain rfl : x = y := Option.some.inj (hx.symm.trans hy)
      obtain rfl : bonus = other := Except.ok.inj (hbonus.symm.trans hother)
      exact hlt

/-- In exact arithmetic, no node exceeds the highest importance. A node is below zero exactly if it is
that of a story and neither the priority nor the connections make up for the confidence, which from
-5/2 on they always do. -/
theorem importance_ofProject [Coordinate β] (settings : GraphSettings β) (now : Moment) (p : Project)
    (c : Context Rat) (g : Graph Rat β) (h : ofProject settings now p c = .ok g) :
    ∀ n ∈ g.arena.nodes, n.metrics.connectivity = g.arena.degree n.id.key ∧
      n.metrics.importance ≤ 100 ∧
      (n.metrics.importance < 0 ↔ ∃ x bonus,
        c.stories.find? (fun x => x.id.key? = some n.id.key) = some x ∧ n.kind = .story ∧
          x.bonus = .ok bonus ∧
          50 + bonus + x.confidence * 20 + 2 * n.metrics.connectivity < 0) ∧
      ((∀ x ∈ c.stories, -5 / 2 ≤ x.confidence) → 0 ≤ n.metrics.importance) := by
  obtain ⟨s, hs, hbuilt⟩ := bind_eq_ok.mp h
  obtain ⟨rfl, -⟩ := Sources.found_of_project hs
  obtain ⟨ns, hranks, hnodes⟩ :=
    exists_offered_of_build (ranks_addAllNodes s) (Progress.toExcept_eq_ok.mp hbuilt)
  intro n hn
  obtain ⟨m, hm, hmn⟩ := hnodes n hn
  have hid := congrArg Node.id hmn
  have hkind := congrArg Node.kind hmn
  have hdegree := congrArg (·.metrics.connectivity) hmn
  have himportance := congrArg (·.metrics.importance) hmn
  change m.id = n.id at hid
  change m.kind = n.kind at hkind
  change g.arena.degree m.id.key = n.metrics.connectivity at hdegree
  change (m.linked (g.arena.degree m.id.key)).metrics.importance = n.metrics.importance
    at himportance
  have hbelow := linked_neg_iff hranks hm (g.arena.degree m.id.key)
  rw [himportance, hdegree, hid, hkind] at hbelow
  rw [importance_linked] at himportance
  refine ⟨by rw [← hdegree, hid], himportance ▸ min_le_right _ _, hbelow, fun hsure => ?_⟩
  by_contra hnot
  obtain ⟨x, bonus, hx, -, -, hsum⟩ := hbelow.mp (not_le.mp hnot)
  have hconfidence := hsure x (List.mem_of_find?_eq_some hx)
  have hbonus : (0 : Rat) ≤ bonus := by positivity
  have hconnected : (0 : Rat) ≤ 2 * n.metrics.connectivity := by positivity
  linarith

private def kioskSettings : GraphSettings Json := Config.default.graphSettings

private def openingDay : Moment := ⟨2024, 1, 2, 3, 4, 5, 0⟩

/-- One story of a capability, with a confidence. -/
private def saleWith (confidence : Rat) : Context Rat where
  stories := [⟨.text "pay", .text "Pay", .text "", .text "buyer", .text "high", confidence, .text "",
    .text "", .text "simple", [], [], .null⟩]
  capabilities := [⟨.text "sales", .text "Sales", .text "", [.text "pay"], [], [], [], .text "core",
    .record []⟩]
  entities := []
  rules := []
  personas := []

theorem importance_ofProject_sale : ∃ g,
    ofProject kioskSettings openingDay ⟨[], [], []⟩ (saleWith (4 / 5)) = .ok g ∧
      g.arena.nodes.map (·.metrics.importance) = [88, 92, 47] ∧
      ∀ n ∈ g.arena.nodes, 0 ≤ n.metrics.importance ∧ n.metrics.importance ≤ 100 := by
  have hbuilt : ((ofProject kioskSettings openingDay ⟨[], [], []⟩
      (saleWith (4 / 5))).toOption.any fun g =>
        g.arena.nodes.map (·.metrics.importance) == [88, 92, 47]) = true := by decide +kernel
  obtain ⟨g, hg, hscores⟩ := exists_of_any hbuilt
  refine ⟨g, hg, eq_of_beq hscores, fun n hn => ?_⟩
  obtain ⟨-, htop, -, hsure⟩ :=
    importance_ofProject kioskSettings openingDay ⟨[], [], []⟩ (saleWith (4 / 5)) g hg n hn
  exact ⟨hsure (by decide +kernel), htop⟩

/-- A story that is unlikely enough makes a node below zero. -/
theorem importance_ofProject_unlikely : ∃ g,
    ofProject kioskSettings openingDay ⟨[], [], []⟩ (saleWith (-10)) = .ok g ∧
      ∃ n ∈ g.arena.nodes, n.metrics.importance < 0 := by
  have hbuilt : ((ofProject kioskSettings openingDay ⟨[], [], []⟩ (saleWith (-10))).toOption.any
      fun g => g.arena.nodes.any fun n => decide (n.metrics.importance < 0)) = true := by
    decide +kernel
  obtain ⟨g, hg, hsome⟩ := exists_of_any hbuilt
  obtain ⟨n, hn, hlt⟩ := List.any_eq_true.mp hsome
  exact ⟨g, hg, n, hn, of_decide_eq_true hlt⟩

end Graph

end BusinessAtlas
