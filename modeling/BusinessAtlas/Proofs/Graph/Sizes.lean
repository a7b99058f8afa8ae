import BusinessAtlas.Proofs.Feature.Rated
import BusinessAtlas.Proofs.Graph.Exports
import BusinessAtlas.Proofs.Graph.Found
import BusinessAtlas.Proofs.Number.Order

/-!
# The sizes of nodes

A node is drawn as large as it is important, but a node of no importance is drawn in a middling size.
So sizes invert the order of importance exactly where such a node meets one that is of some importance
and below the middle. Of the nodes that are not those of stories, the ones of no importance are those
of entities without operations that nothing is connected with.
-/

namespace BusinessAtlas

variable {α β : Type}

namespace Number

open Binary64

/-- Order by value, with equal values in order. -/
def atMost (a b : Number) : Bool := a.less b || a.same b

theorem atMost_iff {a b : Number} : a.atMost b = true ↔ ∃ p q,
    a.extended? = some p ∧ b.extended? = some q ∧ p ≤ q := by
  rw [atMost, Bool.or_eq_true, less_iff, same_iff]
  constructor
  · rintro (⟨p, q, hp, hq, hlt⟩ | ⟨p, hp, hq⟩)
    · exact ⟨p, q, hp, hq, hlt.le⟩
    · exact ⟨p, p, hp, hq, le_refl p⟩
  · rintro ⟨p, q, hp, hq, hle⟩
    rcases hle.lt_or_eq with hlt | rfl
    · exact .inl ⟨p, q, hp, hq, hlt⟩
    · exact .inr ⟨p, hp, hq⟩

theorem isZero_iff {a : Number} : a.isZero = true ↔ a.extended? = some (.ofRat 0) := by
  cases a with
  | int n => simp [isZero, extended?]
  | float x =>
    have hzero : Binary64.extended? (0 : Float).toModel.unpack = some (.ofRat 0) := by
      rw [unpack_zero]
      rfl
    rw [isZero, beq_iff, hzero]
    simp [Number.extended?]

end Number

namespace Node

/-- The node is of some importance, but below the middle. -/
def Slight (n : Node Number Json) : Prop :=
  (Number.int 0).less n.metrics.importance = true ∧ n.metrics.importance.less (.int 50) = true

instance : DecidablePred Slight := fun _ => inferInstanceAs (Decidable (_ ∧ _))

private theorem extended_size {n : Node Number Json} {p : Binary64.Extended}
    (h : n.metrics.importance.extended? = some p) :
    n.size.extended? = some (if p = .ofRat 0 then .ofRat 50 else p) := by
  have hzero : n.metrics.importance.isZero = true ↔ p = .ofRat 0 := by
    rw [Number.isZero_iff, h, Option.some_inj]
  rw [size]
  by_cases hp : p = .ofRat 0
  · rw [if_pos (hzero.mpr hp), if_pos hp]
    rfl
  · rw [if_neg (mt hzero.mp hp), if_neg hp, h]

theorem size_atMost_iff {n m : Node Number Json}
    (h : n.metrics.importance.atMost m.metrics.importance = true) :
    n.size.atMost m.size = true ↔ ¬(n.metrics.importance.isZero = true ∧ m.Slight) := by
  obtain ⟨p, q, hp, hq, hle⟩ := Number.atMost_iff.mp h
  have hzero : n.metrics.importance.isZero = true ↔ p = .ofRat 0 := by
    rw [Number.isZero_iff, hp, Option.some_inj]
  have hslight : m.Slight ↔ Binary64.Extended.ofRat 0 < q ∧ q < .ofRat 50 := by
    have hint (k : Int) : (Number.int k).extended? = some (.ofRat k) := rfl
    rw [Slight, Number.less_iff, Number.less_iff, hq]
    simp [hint]
  have hmiddle : Binary64.Extended.ofRat 0 < .ofRat 50 := Binary64.Extended.ofRat_lt.mpr (by norm_num)
  have hsizes : n.size.atMost m.size = true ↔
      (if p = .ofRat 0 then .ofRat 50 else p) ≤ (if q = .ofRat 0 then .ofRat 50 else q) := by
    rw [Number.atMost_iff, extended_size hp, extended_size hq]
    simp
  rw [hsizes, hzero, hslight]
  by_cases hp0 : p = .ofRat 0
  · by_cases hq0 : q = .ofRat 0
    · simp [hp0, hq0]
    · have hpos : Binary64.Extended.ofRat 0 < q := lt_of_le_of_ne (hp0 ▸ hle) (Ne.symm hq0)
      simp [hp0, hq0, hpos]
  · by_cases hq0 : q = .ofRat 0
    · simp [hp0, hq0, (hq0 ▸ hle).trans hmiddle.le]
    · simp [hp0, hq0, hle]

end Node

namespace Graph

variable {s : Sources Number}

/-- The node starts from a count, which is zero exactly if it is that of an entity without
operations. -/
def Sources.Weighs (s : Sources Number) (n : Node Number β) : Prop :=
  ∃ k : Nat, n.metrics.importance = .int k ∧
    (k = 0 ↔ ∃ e ∈ s.context.entities, e.operations = [] ∧ n = Node.ofEntity e)

private theorem weighs_of_pos {n : Node Number β} {k : Nat} (hk : 0 < k)
    (h : n.metrics.importance = .int k) : s.Weighs n := by
  refine ⟨k, h, ⟨fun hzero => absurd hzero hk.ne', ?_⟩⟩
  rintro ⟨e, -, hnone, rfl⟩
  have hcount : (Node.ofEntity e : Node Number β).metrics.importance =
      .int (15 * e.operations.length : Nat) := rfl
  rw [hcount, hnone] at h
  exact (Int.ofNat.inj (Number.int.inj h)).symm

private theorem weighs_ofCapability (x : Capability) (n : Node Number β)
    (h : Node.ofCapability x = .ok n) : s.Weighs n := by
  obtain ⟨importance, himportance, h⟩ := bind_eq_ok.mp h
  obtain ⟨value, _, h⟩ := bind_eq_ok.mp h
  obtain ⟨color, _, h⟩ := bind_eq_ok.mp h
  obtain ⟨i, _, h⟩ := bind_eq_ok.mp h
  have hpos : Yields x.importance (0 < ·) := Json.yields_choose (by decide) (by decide)
  cases h
  exact weighs_of_pos (hpos importance himportance) rfl

private theorem weighs_ofRule (x : Rule) (n : Node Number β) (h : Node.ofRule x = .ok n) :
    s.Weighs n := by
  obtain ⟨affected, _, h⟩ := bind_eq_ok.mp h
  obtain ⟨importance, himportance, h⟩ := bind_eq_ok.mp h
  obtain ⟨i, _, h⟩ := bind_eq_ok.mp h
  have hpos : Yields x.importance (0 < ·) := Json.yields_choose (by decide) (by decide)
  cases h
  exact weighs_of_pos (hpos importance himportance) rfl

private theorem weighs_ofPersona (x : Persona) (n : Node Number β) (h : Node.ofPersona x = .ok n) :
    s.Weighs n := by
  obtain ⟨i, _, h⟩ := bind_eq_ok.mp h
  cases h
  exact weighs_of_pos (k := 80) (by decide) rfl

private theorem weighs_ofMapping (m : Mapping) : s.Weighs (Node.ofMapping m : Node Number β) := by
  refine weighs_of_pos (k := m.importance) ?_ rfl
  exact lt_min (by decide) (by omega)

private theorem weighs_ofEntity {e : Entity} (he : e ∈ s.context.entities) :
    s.Weighs (Node.ofEntity e : Node Number β) := by
  refine ⟨15 * e.operations.length, rfl, ?_, ?_⟩
  · intro hzero
    exact ⟨e, he, List.length_eq_zero_iff.mp (by omega), rfl⟩
  · rintro ⟨e', -, hnone, hsame⟩
    have himportance := congrArg (·.metrics.importance) hsame
    change Number.int (15 * e.operations.length : Nat) = .int (15 * e'.operations.length : Nat)
      at himportance
    rw [hnone] at himportance
    exact Int.ofNat.inj (Number.int.inj himportance)

private theorem Sources.MakesNode.weighs (hs : ∀ f ∈ s.features.features, f.Rated)
    {n : Node Number β} (h : s.MakesNode n) : n.kind = .story ∨ s.Weighs n := by
  cases h with
  | story _ hn => exact .inl (made_ofStory _ n hn).kind_eq
  | capability _ hn => exact .inr (weighs_ofCapability _ n hn)
  | feature hf => exact .inr (weighs_of_pos (hs _ hf).value_pos rfl)
  | component => exact .inr (weighs_ofMapping _)
  | entity he => exact .inr (weighs_ofEntity he)
  | journey => exact .inr (weighs_of_pos (k := 70) (by decide) rfl)
  | rule _ hn => exact .inr (weighs_ofRule _ n hn)
  | persona _ hn => exact .inr (weighs_ofPersona _ n hn)

private theorem weighs_addAllNodes (hs : ∀ f ∈ s.features.features, f.Rated) :
    Offers .node (fun ns => ∀ n ∈ ns, n.kind = .story ∨ s.Weighs n)
      (addAllNodes (β := β) s) :=
  (offers_makes s).imp fun _ hns n hn => (hns n hn).weighs hs

private theorem isZero_linked_iff {n : Node Number β} {k degree : Nat}
    (h : n.metrics.importance = .int k) :
    (n.linked degree).metrics.importance.isZero = true ↔ k = 0 ∧ degree = 0 := by
  have hlinked : (n.linked degree).metrics.importance =
      Scalar.cap topImportance (.int (k + (2 * degree : Nat))) := by
    change Scalar.cap topImportance (n.metrics.importance.add (.int (2 * degree : Nat))) = _
    rw [h]
    rfl
  rw [hlinked, Scalar.cap]
  split
  · change ((k : Int) + (2 * degree : Nat) == 0) = true ↔ _
    rw [beq_iff_eq]
    omega
  · next hless =>
    have hbelow : ¬(k : Int) + (2 * degree : Nat) < 100 := fun hlt => hless (decide_eq_true hlt)
    change ((100 : Int) == 0) = true ↔ _
    constructor
    · intro h
      cases h
    · omega

variable {settings : GraphSettings Json} {now : Moment} {g : Graph Number Json}

private theorem isZero_iff_of_build {p : Project} {c : Context Number}
    (hs : Sources.ofProject p c = .ok s) (h : build settings now s = .done g)
    {n : Node Number Json} (hn : n ∈ g.arena.nodes) (hkind : n.kind ≠ .story) :
    n.metrics.importance.isZero = true ↔ ∃ e ∈ s.context.entities, e.operations = [] ∧
      n.unplaced = ((Node.ofEntity e : Node Number Json).linked 0).unplaced := by
  obtain ⟨-, hfeatures, -⟩ := Sources.stages_of_project hs
  obtain ⟨ns, hweighs, hnodes⟩ :=
    exists_offered_of_build (weighs_addAllNodes (FeatureMap.rated_of_build hfeatures)) h
  obtain ⟨m, hm, hmn⟩ := hnodes n hn
  have hmkind := congrArg Node.kind hmn
  have himportance := congrArg (·.metrics.importance) hmn
  change m.kind = n.kind at hmkind
  change (m.linked (g.arena.degree m.id.key)).metrics.importance = n.metrics.importance
    at himportance
  obtain ⟨k, hk, hzero⟩ := (hweighs m (mem_of_mem_firstPer hm)).resolve_left (hmkind ▸ hkind)
  constructor
  · intro hnone
    rw [← himportance, isZero_linked_iff hk] at hnone
    obtain ⟨hcount, hdegree⟩ := hnone
    obtain ⟨e, he, hoperations, rfl⟩ := hzero.mp hcount
    rw [hdegree] at hmn
    exact ⟨e, he, hoperations, hmn.symm⟩
  · rintro ⟨e, -, hoperations, he⟩
    have hentity : (Node.ofEntity e : Node Number Json).metrics.importance =
      .int (15 * e.operations.length : Nat) := rfl
    have hscore := congrArg (·.metrics.importance) he
    change n.metrics.importance = ((Node.ofEntity e : Node Number Json).linked 0).metrics.importance
      at hscore
    rw [hscore, isZero_linked_iff hentity, hoperations]
    exact ⟨rfl, rfl⟩

private theorem values_exported (metadata positions : Bool) (g : Graph Number Json) :
    ((g.exported .d3 metadata positions).listUnder? "nodes").bind
      (·.mapM fun point => point.field? "value") =
        some (g.arena.nodes.map fun n => .number n.size) := by
  have hvalue (n : Node Number Json) : (n.toPoint positions).field? "value" = some (.number n.size) := by
    obtain ⟨id, kind, label, description, data, position, color, metrics, tags⟩ := n
    cases positions <;> cases position <;> rfl
  exact mapM_map_eq_some hvalue g.arena.nodes

/-- The export for drawing gives each node of a graph that was built its size, and the sizes of two
nodes are in the order of their importance unless the first one is of no importance and the second one
slight. In a run the nodes of no importance are those of stories and those of entities without
operations that have no connections. -/
theorem sizes_of_build (h : build settings now s = .done g) :
    (∀ metadata positions, ((g.exported .d3 metadata positions).listUnder? "nodes").bind
      (·.mapM fun point => point.field? "value") =
        some (g.arena.nodes.map fun n => .number n.size)) ∧
    (∀ n ∈ g.arena.nodes, ∀ m ∈ g.arena.nodes,
      n.metrics.importance.atMost m.metrics.importance = true →
        (n.size.atMost m.size = true ↔ ¬(n.metrics.importance.isZero = true ∧ m.Slight))) ∧
    ∀ p c, Sources.ofProject p c = .ok s → ∀ n ∈ g.arena.nodes, n.kind ≠ .story →
      (n.metrics.importance.isZero = true ↔ ∃ e ∈ s.context.entities, e.operations = [] ∧
        n.unplaced = ((Node.ofEntity e : Node Number Json).linked 0).unplaced) := by
  refine ⟨fun metadata positions => values_exported metadata positions g, ?_, ?_⟩
  · intro n _ m _ hle
    exact Node.size_atMost_iff hle
  · intro p c hs n hn hkind
    exact isZero_iff_of_build hs h hn hkind

private def depotSettings : GraphSettings Json := Config.default.graphSettings

private def depotTime : Moment := ⟨2024, 1, 2, 3, 4, 5, 0⟩

/-- An entity without operations, and one with some. -/
private def depot (operations : List String) : Context Number where
  stories := []
  capabilities := []
  entities := [⟨.text "Order", [], [], [], .text "", .null⟩,
    ⟨.text "Invoice", [], [], operations.map .text, .text "", .null⟩]
  rules := []
  personas := []

theorem sizes_of_build_depot : ∃ s g,
    Sources.ofProject ⟨[], [], []⟩ (depot ["create", "send", "pay", "close"]) = .ok s ∧
    build depotSettings depotTime s = .done g ∧
    g.arena.nodes.map (fun n => (n.metrics.importance, n.size)) =
      [(.int 0, .int 50), (.int 60, .int 60)] ∧
    ∀ n ∈ g.arena.nodes, ∀ m ∈ g.arena.nodes,
      n.metrics.importance.atMost m.metrics.importance = true → n.size.atMost m.size = true := by
  obtain ⟨s, hs, hbuilt⟩ := exists_of_any (show (Sources.ofProject ⟨[], [], []⟩
    (depot ["create", "send", "pay", "close"])).toOption.any (fun s =>
      (build depotSettings depotTime s).toExcept.toOption.any fun g =>
        (g.arena.nodes.map (fun n => (n.metrics.importance, n.size)) ==
          [(.int 0, .int 50), (.int 60, .int 60)]) &&
        decide (∀ m ∈ g.arena.nodes, ¬m.Slight)) = true by decide +kernel)
  obtain ⟨g, hg, hfound⟩ := exists_of_any hbuilt
  obtain ⟨hsizes, hslight⟩ := (Bool.and_eq_true _ _).mp hfound
  have hdone := Progress.toExcept_eq_ok.mp hg
  refine ⟨s, g, hs, hdone, eq_of_beq hsizes, fun n hn m hm hle => ?_⟩
  exact ((sizes_of_build hdone).2.1 n hn m hm hle).mpr fun h => of_decide_eq_true hslight m hm h.2

/-- An entity of no importance is drawn larger than one of some importance. -/
theorem not_ordered_depot : ∃ s g,
    Sources.ofProject ⟨[], [], []⟩ (depot ["create"]) = .ok s ∧
    build depotSettings depotTime s = .done g ∧
    ∃ n ∈ g.arena.nodes, ∃ m ∈ g.arena.nodes,
      n.metrics.importance.atMost m.metrics.importance = true ∧ n.size.atMost m.size = false := by
  obtain ⟨s, hs, hbuilt⟩ := exists_of_any (show (Sources.ofProject ⟨[], [], []⟩
    (depot ["create"])).toOption.any (fun s =>
      (build depotSettings depotTime s).toExcept.toOption.any fun g =>
        decide (∃ n ∈ g.arena.nodes, ∃ m ∈ g.arena.nodes,
          n.metrics.importance.atMost m.metrics.importance = true ∧
            n.size.atMost m.size = false)) = true by decide +kernel)
  obtain ⟨g, hg, hfound⟩ := exists_of_any hbuilt
  exact ⟨s, g, hs, Progress.toExcept_eq_ok.mp hg, of_decide_eq_true hfound⟩

end Graph

end BusinessAtlas
