import BusinessAtlas.Graph.Build
import BusinessAtlas.Proofs.Graph.Offers

/-!
# The passes that make a graph

A pass over nodes or edges is a run of offers to the arena. A pass over clusters, connections or
places leaves the ids and kinds of the nodes and all edges as they are. What is known of two passes
is known of the one after the other.
-/

namespace BusinessAtlas

variable {α β : Type}

/-- The key of a node together with its kind. -/
def Node.typedKey (n : Node α β) : Key × NodeKind := (n.id.key, n.kind)

/-- The keys of the nodes together with their kinds. -/
def Arena.typedKeys (a : Arena α β) : List (Key × NodeKind) := a.nodes.map Node.typedKey

theorem Arena.nodeKeys_of_typedKeys (a : Arena α β) : a.nodeKeys = a.typedKeys.map (·.1) := by
  rw [typedKeys, List.map_map]
  rfl

section

variable [Scalar α]

/-- The node is made for the id, and so far nothing is counted and it has no place. -/
structure Node.Made (n : Node α β) (id : Json) (kind : NodeKind) : Prop where
  typedKey : (id.key?.map fun k => (k, kind)) = some n.typedKey
  fresh : n.position = none ∧ n.metrics.connectivity = 0

omit [Scalar α] in
theorem Node.Made.key_eq {n : Node α β} {id : Json} {kind : NodeKind} (h : n.Made id kind) :
    id.key? = some n.id.key := by
  obtain ⟨k, hk, htyped⟩ := Option.map_eq_some_iff.mp h.typedKey
  exact hk.trans (congrArg some (congrArg Prod.fst htyped))

omit [Scalar α] in
theorem Node.Made.kind_eq {n : Node α β} {id : Json} {kind : NodeKind} (h : n.Made id kind) :
    n.kind = kind := by
  obtain ⟨k, _, htyped⟩ := Option.map_eq_some_iff.mp h.typedKey
  exact (congrArg Prod.snd htyped).symm

theorem made_ofStory (x : Story α) (n : Node α β) (h : Node.ofStory x = .ok n) :
    n.Made x.id .story := by
  obtain ⟨importance, _, h⟩ := bind_eq_ok.mp h
  obtain ⟨complexity, _, h⟩ := bind_eq_ok.mp h
  obtain ⟨value, _, h⟩ := bind_eq_ok.mp h
  obtain ⟨color, _, h⟩ := bind_eq_ok.mp h
  obtain ⟨i, hi, h⟩ := bind_eq_ok.mp h
  cases h
  exact ⟨by rw [Json.key?_of_asIdent hi]; rfl, rfl, rfl⟩

theorem made_ofCapability (x : Capability) (n : Node α β) (h : Node.ofCapability x = .ok n) :
    n.Made x.id .capability := by
  obtain ⟨importance, _, h⟩ := bind_eq_ok.mp h
  obtain ⟨value, _, h⟩ := bind_eq_ok.mp h
  obtain ⟨color, _, h⟩ := bind_eq_ok.mp h
  obtain ⟨i, hi, h⟩ := bind_eq_ok.mp h
  cases h
  exact ⟨by rw [Json.key?_of_asIdent hi]; rfl, rfl, rfl⟩

theorem made_ofRule (x : Rule) (n : Node α β) (h : Node.ofRule x = .ok n) :
    n.Made x.id .rule := by
  obtain ⟨affected, _, h⟩ := bind_eq_ok.mp h
  obtain ⟨importance, _, h⟩ := bind_eq_ok.mp h
  obtain ⟨i, hi, h⟩ := bind_eq_ok.mp h
  cases h
  exact ⟨by rw [Json.key?_of_asIdent hi]; rfl, rfl, rfl⟩

theorem made_ofPersona (x : Persona) (n : Node α β) (h : Node.ofPersona x = .ok n) :
    n.Made x.id .persona := by
  obtain ⟨i, hi, h⟩ := bind_eq_ok.mp h
  cases h
  exact ⟨by rw [Json.key?_of_asIdent hi]; rfl, rfl, rfl⟩

/-- The node with its connections counted. -/
def Node.linked (degree : Nat) (n : Node α β) : Node α β :=
  { n with metrics := { n.metrics with
      connectivity := degree
      importance := Scalar.cap topImportance
        (Scalar.add n.metrics.importance (Scalar.count (2 * degree))) } }

end

/-- The node as it was before it was put into a place. -/
def Node.unplaced (n : Node α β) : Node α β := { n with position := none }

namespace Layout

variable [Coordinate β] {l : Layout β}

private theorem placeRow_places {l : Layout β} {level : Nat} {spacing y : β} {index : Nat}
    {ns ns' : List (Node α β)} (h : l.placeRow level spacing y index ns = .ok ns') :
    ns'.map (fun n => (n.unplaced, n.position.isSome)) =
      ns.map fun n => (n.unplaced, n.kind.level == level || n.position.isSome) := by
  induction ns generalizing index ns' with
  | nil => cases h; rfl
  | cons n rest ih =>
    by_cases hk : (n.kind.level == level) = true
    · rw [placeRow, if_pos hk] at h
      obtain ⟨position, _, h⟩ := bind_eq_ok.mp h
      obtain ⟨rest', hr, h⟩ := bind_eq_ok.mp h
      cases h
      rw [List.map_cons, List.map_cons, ih hr, hk]
      rfl
    · rw [placeRow, if_neg hk] at h
      obtain ⟨rest', hr, h⟩ := bind_eq_ok.mp h
      cases h
      rw [List.map_cons, List.map_cons, ih hr, eq_false_of_ne_true hk, Bool.false_or]

theorem placeLevel_places {l : Layout β} {level : Nat} {ns ns' : List (Node α β)}
    (h : l.placeLevel ns level = .ok ns') :
    ns'.map (fun n => (n.unplaced, n.position.isSome)) =
      ns.map fun n => (n.unplaced, n.kind.level == level || n.position.isSome) := by
  unfold placeLevel at h
  cases hc : ns.countP (·.kind.level == level) with
  | zero =>
    rw [hc] at h
    cases h
    refine List.map_congr_left fun n hn => ?_
    rw [eq_false_of_ne_true (List.countP_eq_zero.mp hc n hn), Bool.false_or]
  | succ row =>
    rw [hc] at h
    obtain ⟨y, _, h⟩ := bind_eq_ok.mp h
    obtain ⟨spacing, _, h⟩ := bind_eq_ok.mp h
    exact placeRow_places h

theorem typedKeys_placeLevel {level : Nat} {ns ns' : List (Node α β)}
    (h : l.placeLevel ns level = .ok ns') : ns'.map Node.typedKey = ns.map Node.typedKey := by
  have hkeys := congrArg (List.map fun p : Node α β × Bool => p.1.typedKey) (placeLevel_places h)
  rw [List.map_map, List.map_map] at hkeys
  exact hkeys

/-- The layout has a place for every node of a level with up to `n` nodes. -/
structure Fits (l : Layout β) (n : Nat) : Prop where
  height : ∀ level < NodeKind.levels, ∃ y, l.height level = .ok y
  row : ∀ row ≤ n, 0 < row → ∃ spacing, Coordinate.split l.totalWidth row = .ok spacing ∧
    ∀ y, ∀ index < row, ∃ position, l.place spacing y index = .ok position

/-- With exact coordinates every layout has a place for every node. -/
theorem fits_rat (l : Layout Rat) (n : Nat) : l.Fits n :=
  ⟨fun _ _ => ⟨_, rfl⟩, fun _ _ _ => ⟨_, rfl, fun _ _ _ => ⟨_, rfl⟩⟩⟩

private theorem exists_placeRow {level row : Nat} {spacing y : β}
    (h : ∀ index < row, ∃ position, l.place spacing y index = .ok position) (index : Nat)
    (ns : List (Node α β)) (hr : index + ns.countP (·.kind.level == level) ≤ row) :
    ∃ ns', l.placeRow level spacing y index ns = .ok ns' := by
  -- The index counts the nodes of the level that are passed; with those to come they fill the row.
  induction ns generalizing index with
  | nil => exact ⟨[], rfl⟩
  | cons n rest ih =>
    by_cases hk : (n.kind.level == level) = true
    · rw [List.countP_cons, if_pos hk] at hr
      obtain ⟨position, hp⟩ := h index (by omega)
      obtain ⟨rest', hrest⟩ := ih (index + 1) (by omega)
      rw [placeRow, if_pos hk]
      exact ⟨_, bind_eq_ok.mpr ⟨position, hp, bind_eq_ok.mpr ⟨rest', hrest, rfl⟩⟩⟩
    · rw [List.countP_cons, if_neg hk] at hr
      obtain ⟨rest', hrest⟩ := ih index hr
      rw [placeRow, if_neg hk]
      exact ⟨_, bind_eq_ok.mpr ⟨rest', hrest, rfl⟩⟩

theorem exists_placeLevel {n level : Nat} (h : l.Fits n) (hl : level < NodeKind.levels)
    {ns : List (Node α β)} (hn : ns.length ≤ n) : ∃ ns', l.placeLevel ns level = .ok ns' := by
  unfold placeLevel
  cases hc : ns.countP (·.kind.level == level) with
  | zero => exact ⟨ns, rfl⟩
  | succ row =>
    have hrow : row + 1 ≤ n := hc ▸ Nat.le_trans List.countP_le_length hn
    obtain ⟨y, hy⟩ := h.height level hl
    obtain ⟨spacing, hs, hp⟩ := h.row (row + 1) hrow (Nat.succ_pos _)
    have hle : 0 + ns.countP (·.kind.level == level) ≤ row + 1 := by omega
    obtain ⟨ns', hns⟩ := exists_placeRow (hp y) 0 ns hle
    exact ⟨ns', bind_eq_ok.mpr ⟨y, hy, bind_eq_ok.mpr ⟨spacing, hs, hns⟩⟩⟩

end Layout

namespace Graph

/-- If the pass goes through, it has offered the arena things of which `P` holds. -/
def Offers {ι : Type} (offer : ι → Offer α β) (P : List ι → Prop)
    (pass : Graph α β → Progress (Graph α β)) : Prop :=
  ∀ g g', pass g = .done g' →
    ∃ xs : List ι, g'.arena = g.arena.takeAll (xs.map offer) ∧ P xs

/-- If the pass goes through, it has offered the arena the things whose keys satisfy `P`. -/
def Adds {ι κ : Type} (offer : ι → Offer α β) (key : ι → κ) (P : κ → Prop)
    (pass : Graph α β → Progress (Graph α β)) : Prop :=
  ∀ g g', pass g = .done g' →
    ∃ xs : List ι, g'.arena = g.arena.takeAll (xs.map offer) ∧ ∀ k, k ∈ xs.map key ↔ P k

/-- If the pass goes through, there are at most `n` nodes more. -/
def Grows (n : Nat) (pass : Graph α β → Progress (Graph α β)) : Prop :=
  ∀ g g', pass g = .done g' → g'.arena.nodes.length ≤ g.arena.nodes.length + n

/-- If the pass goes through, there are the same ids of nodes and the same keys of edges. -/
def Keeps (pass : Graph α β → Progress (Graph α β)) : Prop :=
  ∀ g g', pass g = .done g' →
    g'.arena.nodeKeys = g.arena.nodeKeys ∧ g'.arena.edgeKeys = g.arena.edgeKeys

/-- If the pass goes through, the ids and kinds of the nodes and all edges are as they were. -/
def Leaves (pass : Graph α β → Progress (Graph α β)) : Prop :=
  ∀ g g', pass g = .done g' →
    g'.arena.typedKeys = g.arena.typedKeys ∧ g'.arena.edges = g.arena.edges

/-- Nothing is different from the graph but the arena. -/
def Confined (g t : Graph α β) : Prop := ∃ arena, t = g.inArena fun _ => arena

/-- The pass goes through on every graph. -/
def Total (pass : Graph α β → Progress (Graph α β)) : Prop := ∀ g, ∃ g', pass g = .done g'

section

variable {p q : Graph α β → Progress (Graph α β)}

theorem Offers.andThen {ι : Type} {offer : ι → Offer α β} {P Q : List ι → Prop}
    (hp : Offers offer P p) (hq : Offers offer Q q) :
    Offers offer (fun xs => ∃ ys zs, xs = ys ++ zs ∧ P ys ∧ Q zs) fun g => (p g).andThen q := by
  intro g g' h
  obtain ⟨k, hk, hg⟩ := Progress.andThen_eq_done.mp h
  obtain ⟨ys, hy, hys⟩ := hp g k hk
  obtain ⟨zs, hz, hzs⟩ := hq k g' hg
  refine ⟨ys ++ zs, ?_, ys, zs, rfl, hys, hzs⟩
  rw [hz, hy, List.map_append, Arena.takeAll_append]

theorem Offers.imp {ι : Type} {offer : ι → Offer α β} {P Q : List ι → Prop}
    (hp : Offers offer P p) (h : ∀ xs, P xs → Q xs) : Offers offer Q p := by
  intro g g' hg
  obtain ⟨xs, hx, hP⟩ := hp g g' hg
  exact ⟨xs, hx, h xs hP⟩

theorem Adds.andThen {ι κ : Type} {offer : ι → Offer α β} {key : ι → κ} {P Q : κ → Prop}
    (hp : Adds offer key P p) (hq : Adds offer key Q q) :
    Adds offer key (fun k => P k ∨ Q k) fun g => (p g).andThen q := by
  intro g g' h
  obtain ⟨k, hk, hg⟩ := Progress.andThen_eq_done.mp h
  obtain ⟨xs, hx, hxP⟩ := hp g k hk
  obtain ⟨ys, hy, hyQ⟩ := hq k g' hg
  refine ⟨xs ++ ys, ?_, fun key => ?_⟩
  · rw [hy, hx, List.map_append, Arena.takeAll_append]
  · rw [List.map_append, List.mem_append, hxP, hyQ]

theorem Adds.congr {ι κ : Type} {offer : ι → Offer α β} {key : ι → κ} {P Q : κ → Prop}
    (hp : Adds offer key P p) (h : ∀ k, P k ↔ Q k) : Adds offer key Q p := by
  intro g g' hg
  obtain ⟨xs, hx, hP⟩ := hp g g' hg
  exact ⟨xs, hx, fun k => (hP k).trans (h k)⟩

theorem Adds.nodes_eq {P : EdgeKey → Prop} (hp : Adds .edge Edge.key P p) {g g' : Graph α β}
    (h : p g = .done g') : g'.arena.nodes = g.arena.nodes := by
  obtain ⟨es, hes, -⟩ := hp g g' h
  rw [hes]
  clear hes
  generalize g.arena = a
  induction es generalizing a with
  | nil => rfl
  | cons e rest ih => exact (ih (a.addEdge e)).trans (a.addEdge_nodes e)

theorem Grows.andThen {m n : Nat} (hp : Grows m p) (hq : Grows n q) :
    Grows (m + n) fun g => (p g).andThen q := by
  intro g g' h
  obtain ⟨k, hk, hg⟩ := Progress.andThen_eq_done.mp h
  have h₁ := hp g k hk
  have h₂ := hq k g' hg
  omega

theorem Leaves.andThen (hp : Leaves p) (hq : Leaves q) : Leaves fun g => (p g).andThen q := by
  intro g g' h
  obtain ⟨k, hk, hg⟩ := Progress.andThen_eq_done.mp h
  obtain ⟨hn, he⟩ := hp g k hk
  obtain ⟨hn', he'⟩ := hq k g' hg
  exact ⟨hn'.trans hn, he'.trans he⟩

theorem Leaves.keeps (hp : Leaves p) : Keeps p := by
  intro g g' h
  obtain ⟨hn, he⟩ := hp g g' h
  rw [Arena.nodeKeys_of_typedKeys, Arena.nodeKeys_of_typedKeys, hn, Arena.edgeKeys, he]
  exact ⟨rfl, rfl⟩

theorem Total.andThen (hp : Total p) (hq : Total q) : Total fun g => (p g).andThen q := by
  intro g
  obtain ⟨k, hk⟩ := hp g
  obtain ⟨g', hg⟩ := hq k
  exact ⟨g', Progress.andThen_eq_done.mpr ⟨k, hk, hg⟩⟩

theorem Keeps.length_eq (hp : Keeps p) {g g' : Graph α β} (h : p g = .done g') :
    g'.arena.nodes.length = g.arena.nodes.length := by
  have := congrArg List.length (hp g g' h).1
  simpa [Arena.nodeKeys] using this

end

section

variable {ι : Type} {items : List ι}

/-- The nodes of the items are offered in the order of the items. -/
theorem offers_addNodes (node : ι → Except Fault (Node α β)) (items : List ι) :
    Offers .node (fun ns => items.mapM node = .ok ns) (addNodes node items) := by
  intro g g' hg
  have hoffered : ∃ ns, items.mapM node = .ok ns ∧ g'.arena = g.arena.takeAll (ns.map .node) := by
    refine Progress.each_eq_done (P := fun before t => ∃ ns, before.mapM node = .ok ns ∧
      t.arena = g.arena.takeAll (ns.map .node)) hg ⟨[], rfl, rfl⟩ ?_
    rintro before x t t' ⟨ns, hns, ht⟩ hs
    obtain ⟨n, hn, hs⟩ := bind_eq_ok.mp (Progress.step_eq_done.mp hs)
    cases hs
    refine ⟨ns ++ [n], mapM_concat_eq_ok hns hn, ?_⟩
    rw [List.map_append, Arena.takeAll_append, ← ht]
    rfl
  obtain ⟨ns, hns, harena⟩ := hoffered
  exact ⟨ns, harena, hns⟩

theorem offers_addNodes_ok (node : ι → Node α β) (items : List ι) :
    Offers .node (fun ns => ns = items.map node) (addNodes (fun x => .ok (node x)) items) := by
  refine (offers_addNodes _ items).imp fun ns hns => ?_
  have hpure : items.mapM (fun x => (.ok (node x) : Except Fault _)) = .ok (items.map node) :=
    List.mapM_pure
  exact Except.ok.inj (hns.symm.trans hpure)

theorem offers_addEdges (edges : ι → Except Fault (List (Edge α))) (items : List ι) :
    Offers (β := β) .edge (fun es => List.flatten <$> items.mapM edges = .ok es)
      (addEdges edges items) := by
  intro g g' hg
  have hoffered : ∃ ess, items.mapM edges = .ok ess ∧
      g'.arena = g.arena.takeAll (ess.flatten.map .edge) := by
    refine Progress.each_eq_done (P := fun before t => ∃ ess, before.mapM edges = .ok ess ∧
      t.arena = g.arena.takeAll (ess.flatten.map .edge)) hg ⟨[], rfl, rfl⟩ ?_
    rintro before x t t' ⟨ess, hess, ht⟩ hs
    obtain ⟨es, hes, hs⟩ := bind_eq_ok.mp (Progress.step_eq_done.mp hs)
    cases hs
    refine ⟨ess ++ [es], mapM_concat_eq_ok hess hes, ?_⟩
    rw [List.flatten_append, List.flatten_singleton, List.map_append, Arena.takeAll_append, ← ht,
      Arena.takeAll, List.foldl_map]
    rfl
  obtain ⟨ess, hess, harena⟩ := hoffered
  exact ⟨ess.flatten, harena, by rw [hess]; rfl⟩

theorem offers_addEdges_ok (edges : ι → List (Edge α)) (items : List ι) :
    Offers (β := β) .edge (fun es => es = items.flatMap edges)
      (addEdges (fun x => .ok (edges x)) items) := by
  refine (offers_addEdges _ items).imp fun es hes => ?_
  obtain ⟨ess, hess, rfl⟩ := map_eq_ok.mp hes
  have hpure : items.mapM (fun x => (.ok (edges x) : Except Fault _)) = .ok (items.map edges) :=
    List.mapM_pure
  rw [hpure] at hess
  cases hess
  rfl

theorem adds_addNodes {κ : Type} {f : Node α β → κ} {node : ι → Except Fault (Node α β)}
    (key : ι → Option κ) (h : ∀ x n, node x = .ok n → key x = some (f n)) (items : List ι) :
    Adds .node f (fun k => ∃ x ∈ items, key x = some k) (addNodes node items) := by
  refine (offers_addNodes node items).imp fun ns hns k => ?_
  rw [List.mem_map]
  constructor
  · rintro ⟨n, hn, rfl⟩
    obtain ⟨x, hx, hxn⟩ := (mem_of_mapM hns).mp hn
    exact ⟨x, hx, h x n hxn⟩
  · rintro ⟨x, hx, hk⟩
    obtain ⟨n, hn⟩ := exists_of_mapM hns hx
    exact ⟨n, (mem_of_mapM hns).mpr ⟨x, hx, hn⟩, Option.some.inj ((h x n hn).symm.trans hk)⟩

theorem adds_addNodes_ok {κ : Type} (f : Node α β → κ) (node : ι → Node α β) (items : List ι) :
    Adds .node f (fun k => ∃ x ∈ items, f (node x) = k)
      (addNodes (fun x => .ok (node x)) items) := by
  refine (adds_addNodes (fun x => some (f (node x))) (fun x n h => ?_) items).congr fun k => ?_
  · rw [Except.ok.inj h]
  · simp only [Option.some.injEq]

theorem confined_addNodes (node : ι → Except Fault (Node α β)) (items : List ι) (g : Graph α β) :
    Progress.Keeps g.Confined (addNodes node items) := by
  refine Progress.keeps_each items fun x _ t ht => ?_
  obtain ⟨arena, rfl⟩ := ht
  exact Yields.bind (yields_true _) fun n _ => yields_ok ⟨_, rfl⟩

theorem confined_addEdges (edges : ι → Except Fault (List (Edge α))) (items : List ι)
    (g : Graph α β) : Progress.Keeps g.Confined (addEdges edges items) := by
  refine Progress.keeps_each items fun x _ t ht => ?_
  obtain ⟨arena, rfl⟩ := ht
  exact Yields.bind (yields_true _) fun es _ => yields_ok ⟨_, rfl⟩

theorem grows_addNodes (node : ι → Except Fault (Node α β)) (items : List ι) :
    Grows items.length (addNodes node items) := by
  intro g g' hg
  refine Progress.each_eq_done (P := fun before t =>
    t.arena.nodes.length ≤ g.arena.nodes.length + before.length) hg (Nat.le_refl _) ?_
  intro before x t t' ht hs
  obtain ⟨n, _, hs⟩ := bind_eq_ok.mp (Progress.step_eq_done.mp hs)
  cases hs
  have hlen : (t.arena.addNode n).nodes.length ≤ t.arena.nodes.length + 1 := by
    unfold Arena.addNode Arena.putNode
    split <;> simp
  simp only [inArena, List.length_append, List.length_singleton]
  omega

theorem total_addNodes {node : ι → Except Fault (Node α β)}
    (h : ∀ x ∈ items, ∃ n, node x = .ok n) : Total (addNodes node items) := by
  refine Progress.exists_each_step fun t x hx => ?_
  obtain ⟨n, hn⟩ := h x hx
  exact ⟨_, bind_eq_ok.mpr ⟨n, hn, rfl⟩⟩

theorem total_addEdges {edges : ι → Except Fault (List (Edge α))}
    (h : ∀ x ∈ items, ∃ es, edges x = .ok es) : Total (β := β) (addEdges edges items) := by
  refine Progress.exists_each_step fun t x hx => ?_
  obtain ⟨es, hes⟩ := h x hx
  exact ⟨_, bind_eq_ok.mpr ⟨es, hes, rfl⟩⟩

theorem arena_of_addClusters {cluster : Arena α β → ι → Except Fault (Option (Cluster α))}
    {g g' : Graph α β} (h : addClusters cluster items g = .done g') : g'.arena = g.arena := by
  refine Progress.each_eq_done (P := fun _ t => t.arena = g.arena) h rfl ?_
  intro before x t t' ht hs
  obtain ⟨c, _, hs⟩ := bind_eq_ok.mp (Progress.step_eq_done.mp hs)
  cases c <;> cases hs <;> exact ht

theorem leaves_addClusters (cluster : Arena α β → ι → Except Fault (Option (Cluster α)))
    (items : List ι) : Leaves (addClusters cluster items) := by
  intro g g' hg
  rw [arena_of_addClusters hg]
  exact ⟨rfl, rfl⟩

theorem total_addClusters {cluster : Arena α β → ι → Except Fault (Option (Cluster α))}
    (h : ∀ a, ∀ x ∈ items, ∃ c, cluster a x = .ok c) : Total (addClusters cluster items) := by
  refine Progress.exists_each_step fun t x hx => ?_
  obtain ⟨c, hc⟩ := h t.arena x hx
  cases c with
  | none => exact ⟨_, bind_eq_ok.mpr ⟨none, hc, rfl⟩⟩
  | some c => exact ⟨_, bind_eq_ok.mpr ⟨some c, hc, rfl⟩⟩

end

section

variable [Coordinate β]

theorem leaves_place (l : Layout β) : Leaves (α := α) (place l) := by
  intro g g' hg
  refine Progress.each_eq_done (P := fun _ t =>
    t.arena.typedKeys = g.arena.typedKeys ∧ t.arena.edges = g.arena.edges) hg ⟨rfl, rfl⟩ ?_
  rintro before level t t' ⟨hn, he⟩ hs
  obtain ⟨ns, hl, hs⟩ := bind_eq_ok.mp (Progress.step_eq_done.mp hs)
  cases hs
  exact ⟨(Layout.typedKeys_placeLevel hl).trans hn, he⟩

theorem exists_nodes_of_place {l : Layout β} {g g' : Graph α β} (h : place l g = .done g') :
    ∃ nodes, g' = g.inArena fun a => { a with nodes } := by
  refine Progress.each_eq_done (P := fun _ t =>
    ∃ nodes, t = g.inArena fun a => { a with nodes }) h ⟨g.arena.nodes, rfl⟩ ?_
  rintro before level t t' ⟨nodes, rfl⟩ hs
  obtain ⟨ns, _, hs⟩ := bind_eq_ok.mp (Progress.step_eq_done.mp hs)
  cases hs
  exact ⟨ns, rfl⟩

/-- Places change nothing of a node but its place. -/
theorem unplaced_of_place {l : Layout β} {g g' : Graph α β} (h : place l g = .done g') :
    g'.arena.nodes.map Node.unplaced = g.arena.nodes.map Node.unplaced := by
  refine Progress.each_eq_done (P := fun _ t =>
    t.arena.nodes.map Node.unplaced = g.arena.nodes.map Node.unplaced) h rfl ?_
  intro before level t t' ht hs
  obtain ⟨ns, hl, hs⟩ := bind_eq_ok.mp (Progress.step_eq_done.mp hs)
  cases hs
  have hplaces := congrArg (List.map Prod.fst) (Layout.placeLevel_places hl)
  rw [List.map_map, List.map_map] at hplaces
  exact hplaces.trans ht

theorem exists_place {l : Layout β} {n : Nat} (h : l.Fits n) {g : Graph α β}
    (hn : g.arena.nodes.length ≤ n) : ∃ g', place l g = .done g' := by
  refine (Progress.exists_each (P := fun t : Graph α β => t.arena.nodes.length ≤ n) hn
    fun t level hl ht => ?_).imp fun _ hg => hg.1
  obtain ⟨ns, hns⟩ := Layout.exists_placeLevel h (List.mem_range.mp hl) ht
  have hlen := congrArg List.length (Layout.typedKeys_placeLevel hns)
  rw [List.length_map, List.length_map] at hlen
  exact ⟨_, Progress.step_eq_done.mpr (bind_eq_ok.mpr ⟨ns, hns, rfl⟩), hlen ▸ ht⟩

end

end Graph

end BusinessAtlas
