import BusinessAtlas.Network.Digraph

/-!
# Cycles

The elementary cycles of a directed graph, up to a bound on their number, and a basis of the cycles
of the graph with directions forgotten.
-/

namespace BusinessAtlas

namespace Digraph

theorem length_filter_add_length_filter_not {κ : Type} (p : κ → Bool) (xs : List κ) :
    (xs.filter fun x => p x).length + (xs.filter fun x => !p x).length = xs.length := by
  induction xs with
  | nil => rfl
  | cons x rest ih => by_cases h : p x <;> simp [h] <;> omega

/-- The nodes among `left` that are next to `v`. -/
def nearTo (g : Digraph) (v : Nat) (left : List Nat) : List Nat :=
  left.filter fun w => (g.next v).contains w

/-- The nodes among `left` that are not next to `v`. -/
def farFrom (g : Digraph) (v : Nat) (left : List Nat) : List Nat :=
  left.filter fun w => !(g.next v).contains w

/-- The nodes of the frontier, and the nodes among `left` that can be reached from it through nodes
of `left`. Every round shortens the frontier by a node that is not met again. -/
def spread (g : Digraph) (left frontier : List Nat) : List Nat :=
  match frontier with
  | [] => []
  | v :: rest => v :: spread g (g.farFrom v left) (g.nearTo v left ++ rest)
termination_by left.length + frontier.length
decreasing_by
  have h := length_filter_add_length_filter_not (fun w => (g.next v).contains w) left
  simp only [nearTo, farFrom, List.length_append, List.length_cons]
  omega

/-- Whether an edge leads to `root` from `v` or from a node that can be reached from `v` through
nodes of `left`. -/
def reaches (g : Digraph) (root : Nat) (left : List Nat) (v : Nat) : Bool :=
  (g.spread left [v]).any fun w => (g.next w).contains root

/-- The numbers that are left when one is struck off. -/
def strike (w : Nat) (left : List Nat) : List Nat := left.filter (· ≠ w)

theorem length_strike_lt {w : Nat} {left : List Nat} (h : w ∈ left) :
    (strike w left).length < left.length := by
  apply List.length_filter_lt_length_iff_exists.2
  exact ⟨w, h, by simp⟩

/-- Up to `budget` cycles that start with a path and go on to one of the candidates and from there
through nodes of `left` back to `root`. The path is given from its last node to its first. -/
def cyclesVia (g : Digraph) (root budget : Nat) (left path candidates : List Nat) :
    List (List Nat) :=
  match candidates with
  | [] => []
  | w :: rest =>
    if budget == 0 then []
    else
      let found :=
        if w == root then [path.reverse]
        else if _h : w ∈ left then
          if g.reaches root (strike w left) w then
            cyclesVia g root budget (strike w left) (w :: path) (g.next w)
          else []
        else []
      found ++ cyclesVia g root (budget - found.length) left path rest
termination_by (left.length, candidates.length)
decreasing_by
  · exact Prod.Lex.left _ _ (length_strike_lt _h)
  · exact Prod.Lex.right _ (by simp)

/-- Up to `budget` cycles through a node and nodes after it. -/
def cyclesAt (g : Digraph) (budget root : Nat) : List (List Nat) :=
  g.cyclesVia root budget (g.nodes.filter (root < ·)) [root] (g.next root)

/-- Up to `budget` elementary cycles, each from its first node on. -/
def cycles (g : Digraph) (budget : Nat) : List (List Nat) :=
  g.nodes.foldl (fun found root => found ++ g.cyclesAt (budget - found.length) root) []

end Digraph

/-- A walk along the edges of an undirected graph: the nodes still to be left, the node before each
node, and for each node those from which it was met. -/
structure Weave where
  stack : List Nat
  origin : Array Nat
  used : Array (Option (List Nat))
  cycles : List (List Nat)

namespace Weave

def met (s : Weave) (v : Nat) : Bool := (s.used.getD v none).isSome

/-- The nodes from which a node was met. -/
def meetings (s : Weave) (v : Nat) : List Nat := (s.used.getD v none).getD []

/-- The way back from a node to the first node of `goal`. -/
def wayBack (s : Weave) (goal : List Nat) : Nat → Nat → List Nat
  | 0, p => [p]
  | steps + 1, p =>
    if goal.contains p then [p] else p :: wayBack s goal steps (s.origin.getD p p)

/-- Meets `w` from `z`: a new node is put on the stack, one that was met on another way closes a
cycle. -/
def meet (z : Nat) (s : Weave) (w : Nat) : Weave :=
  if !s.met w then
    { s with
      stack := w :: s.stack
      origin := s.origin.setIfInBounds w z
      used := s.used.setIfInBounds w (some [z]) }
  else if w == z then { s with cycles := s.cycles ++ [[z]] }
  else if (s.meetings z).contains w then s
  else
    let way := s.wayBack (s.meetings w) s.origin.size (s.origin.getD z z)
    { s with
      cycles := s.cycles ++ [w :: z :: way]
      used := s.used.setIfInBounds w (some (s.meetings w ++ [z])) }

/-- Leaves the nodes of the stack. A node is put on the stack once. -/
def run (g : Undirected) : Nat → Weave → Weave
  | 0, s => s
  | rounds + 1, s =>
    match s.stack with
    | [] => s
    | z :: stack => run g rounds ((g.next z).foldl (meet z) { s with stack })

end Weave

/-- A basis of the cycles of an undirected graph. Every part of the graph is walked from its last
node. -/
def Undirected.cycleBasis (g : Undirected) : List (List Nat) :=
  (g.nodes.reverse.foldl (fun (s : Weave) root =>
    if s.met root then s
    else Weave.run g g.size { s with
      stack := [root]
      origin := s.origin.setIfInBounds root root
      used := s.used.setIfInBounds root (some []) })
    ⟨[], Array.replicate g.size 0, Array.replicate g.size none, []⟩).cycles

/-- What is found about the cycles of a network. -/
structure CycleReport where
  cycles : List (List Ident)
  basis : List (List Ident)

namespace CycleReport

def limit : Nat := 100

def shown : Nat := 20

def shownBasis : Nat := 10

/-- Whether the search stopped at the limit. -/
def stopped (r : CycleReport) : Bool := r.cycles.length == limit

/-- How many cycles of each length were found. -/
def lengths (r : CycleReport) : List (Nat × Nat) := countsOf (r.cycles.map (·.length))

def toJson (r : CycleReport) : Json :=
  let ids (cycles : List (List Ident)) : Json :=
    .list (cycles.map fun c => .list (c.map Ident.toJson))
  .record ([("has_cycles", .bool (!r.cycles.isEmpty)), ("cycle_count", .nat r.cycles.length)]
    ++ (if r.stopped then
      [("note", .text ("Stopped after " ++ toString limit ++ " cycles"))] else [])
    ++ [("cycle_length_distribution",
        .record (r.lengths.map fun l => (toString l.1, .nat l.2))),
      ("cycles", ids (r.cycles.take shown)),
      ("cycle_basis", .record [("num_fundamental_cycles", .nat r.basis.length),
        ("basis_cycles", ids (r.basis.take shownBasis))])])

end CycleReport

def Network.cycleReport (n : Network Number) : CycleReport where
  cycles := (n.digraph.cycles CycleReport.limit).map fun c => c.map n.idAt
  basis := n.undirected.cycleBasis.map fun c => c.map n.idAt

end BusinessAtlas
