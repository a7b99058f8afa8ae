import BusinessAtlas.Proofs.Graph.Builder

/-!
# One graph in three exports

What a drawing needs of a graph can be read back from every export, and it is the same from all of
them: the nodes with their kinds, labels and places, and the edges with their kinds and weights, in
the order of the graph. An export as a record shows more than that, and without the metadata it shows
just so much less.
-/

namespace BusinessAtlas

namespace Json

/-- The items of the list under a field. -/
def listUnder? (key : String) (v : Json) : Option (List Json) :=
  match v.field? key with
  | some (.list items) => some items
  | _ => none

/-- The record without some of its fields. -/
def without (names : List String) : Json → Json
  | .record fields => .record (fields.filter fun f => !names.contains f.1)
  | v => v

/-- The record with every item of the list under a field changed. -/
def mapUnder (key : String) (change : Json → Json) : Json → Json
  | .record fields => .record (fields.map fun f =>
      match f with
      | (k, .list items) => if k == key then (k, .list (items.map change)) else (k, .list items)
      | f => f)
  | v => v

/-- The place that is written as two fields of a record. -/
def place? (v : Json) : Option (Json × Json) := do
  return (← v.field? "x", ← v.field? "y")

end Json

/-- What is drawn of a node. -/
structure DrawnNode where
  id : Json
  kind : Json
  label : Json
  place : Option (Json × Json)

/-- What is drawn of an edge. -/
structure DrawnEdge where
  source : Json
  target : Json
  kind : Json
  weight : Json

/-- What is drawn of a graph. -/
structure Drawing where
  nodes : List DrawnNode
  edges : List DrawnEdge

def Node.drawn (positions : Bool) (n : Node Number Json) : DrawnNode :=
  ⟨n.id.toJson, .text n.kind.name, n.label, (n.shownPosition positions).map fun p => (p.x, p.y)⟩

def Edge.drawn (e : Edge Number) : DrawnEdge :=
  ⟨e.source.toJson, e.target.toJson, .text e.kind.name, .number e.weight⟩

def Graph.drawing (positions : Bool) (g : Graph Number Json) : Drawing :=
  ⟨g.arena.nodes.map (Node.drawn positions), g.arena.edges.map Edge.drawn⟩

namespace DrawnNode

/-- A node read from the fields of a record and the place that was found for it. -/
def ofFields? (kind : String) (place : Option (Json × Json)) (v : Json) : Option DrawnNode := do
  return ⟨← v.field? "id", ← v.field? kind, ← v.field? "label", place⟩

def ofRecord? (v : Json) : Option DrawnNode :=
  ofFields? "type" ((v.field? "position").bind Json.place?) v

def ofElement? (v : Json) : Option DrawnNode := do
  ofFields? "type" ((v.field? "position").bind Json.place?) (← v.field? "data")

def ofPoint? (v : Json) : Option DrawnNode := ofFields? "group" v.place? v

end DrawnNode

namespace DrawnEdge

def ofFields? (weight : String) (v : Json) : Option DrawnEdge := do
  return ⟨← v.field? "source", ← v.field? "target", ← v.field? "type", ← v.field? weight⟩

def ofElement? (v : Json) : Option DrawnEdge := do ofFields? "weight" (← v.field? "data")

end DrawnEdge

namespace Drawing

def ofRecord? (v : Json) : Option Drawing := do
  return ⟨← (← v.listUnder? "nodes").mapM DrawnNode.ofRecord?,
    ← (← v.listUnder? "edges").mapM (DrawnEdge.ofFields? "weight")⟩

/-- Whether an element is an edge: its data tell where it starts. -/
def isEdge (element : Json) : Bool := ((element.field? "data").bind (·.field? "source")).isSome

def ofElements? (v : Json) : Option Drawing := do
  let elements ← v.listUnder? "elements"
  return ⟨← (elements.filter fun e => !isEdge e).mapM DrawnNode.ofElement?,
    ← (elements.filter isEdge).mapM DrawnEdge.ofElement?⟩

def ofLinks? (v : Json) : Option Drawing := do
  return ⟨← (← v.listUnder? "nodes").mapM DrawnNode.ofPoint?,
    ← (← v.listUnder? "links").mapM (DrawnEdge.ofFields? "value")⟩

/-- The drawing that an export shows. -/
def ofExport? : ExportFormat → Json → Option Drawing
  | .json => ofRecord?
  | .cytoscape => ofElements?
  | .d3 => ofLinks?

end Drawing

/-- The full record of a graph without what is said only with the metadata. -/
def Json.withoutMetadata (v : Json) : Json :=
  (v.without ["clusters", "metadata"]).mapUnder "nodes" (·.without ["data", "metrics"])

section

variable (metadata positions : Bool)

theorem mapM_map_eq_some {ι κ ν : Type} {read : κ → Option ν} {write : ι → κ} {view : ι → ν}
    (h : ∀ x, read (write x) = some (view x)) (xs : List ι) :
    (xs.map write).mapM read = some (xs.map view) := by
  induction xs with
  | nil => rfl
  | cons x rest ih => rw [List.map_cons, List.mapM_cons, h, ih]; rfl

private theorem ofRecord?_toRecord (n : Node Number Json) :
    DrawnNode.ofRecord? (n.toRecord metadata positions) = some (n.drawn positions) := by
  obtain ⟨id, kind, label, description, data, position, color, metrics, tags⟩ := n
  cases metadata <;> cases positions <;> cases position <;> rfl

private theorem ofElement?_toElement (n : Node Number Json) :
    DrawnNode.ofElement? (n.toElement metadata positions) = some (n.drawn positions) := by
  obtain ⟨id, kind, label, description, data, position, color, metrics, tags⟩ := n
  cases metadata <;> cases positions <;> cases position <;> rfl

private theorem ofPoint?_toPoint (n : Node Number Json) :
    DrawnNode.ofPoint? (n.toPoint positions) = some (n.drawn positions) := by
  obtain ⟨id, kind, label, description, data, position, color, metrics, tags⟩ := n
  cases positions <;> cases position <;> rfl

private theorem without_toRecord (n : Node Number Json) :
    (n.toRecord true positions).without ["data", "metrics"] = n.toRecord false positions := by
  obtain ⟨id, kind, label, description, data, position, color, metrics, tags⟩ := n
  cases positions <;> cases position <;> rfl

private theorem isEdge_toElement (n : Node Number Json) :
    Drawing.isEdge (n.toElement metadata positions) = false := by
  obtain ⟨id, kind, label, description, data, position, color, metrics, tags⟩ := n
  cases metadata <;> cases positions <;> cases position <;> rfl

private theorem filter_elements (g : Graph Number Json) :
    (g.arena.nodes.map (Node.toElement metadata positions) ++
        g.arena.edges.map Edge.toElement).filter (fun e => !Drawing.isEdge e) =
      g.arena.nodes.map (Node.toElement metadata positions) ∧
    (g.arena.nodes.map (Node.toElement metadata positions) ++
        g.arena.edges.map Edge.toElement).filter Drawing.isEdge =
      g.arena.edges.map Edge.toElement := by
  have hnode : ∀ v ∈ g.arena.nodes.map (Node.toElement metadata positions),
      Drawing.isEdge v = false :=
    List.forall_mem_map.mpr fun n _ => isEdge_toElement metadata positions n
  have hedge : ∀ v ∈ g.arena.edges.map Edge.toElement, Drawing.isEdge v = true :=
    List.forall_mem_map.mpr fun _ _ => rfl
  constructor
  · rw [List.filter_append, List.filter_eq_self.mpr, List.filter_eq_nil_iff.mpr, List.append_nil]
    · intro v hv
      simp [hedge v hv]
    · intro v hv
      simp [hnode v hv]
  · rw [List.filter_append, List.filter_eq_nil_iff.mpr, List.filter_eq_self.mpr, List.nil_append]
    · exact hedge
    · intro v hv
      simp [hnode v hv]

theorem ofExport?_exported (f : ExportFormat) (g : Graph Number Json) :
    Drawing.ofExport? f (g.exported f metadata positions) = some (g.drawing positions) := by
  have hedges {κ : Type} {read : Json → Option κ} {write : Edge Number → Json}
      (view : Edge Number → κ) (h : ∀ e, read (write e) = some (view e)) :=
    mapM_map_eq_some h g.arena.edges
  cases f with
  | json =>
    have hrecord : Drawing.ofExport? .json (g.exported .json metadata positions) = do
        return ⟨← (g.arena.nodes.map (Node.toRecord metadata positions)).mapM DrawnNode.ofRecord?,
          ← (g.arena.edges.map Edge.toJson).mapM (DrawnEdge.ofFields? "weight")⟩ := by
      cases metadata <;> rfl
    rw [hrecord, mapM_map_eq_some (ofRecord?_toRecord metadata positions),
      hedges Edge.drawn fun _ => rfl]
    rfl
  | cytoscape =>
    let elements := g.arena.nodes.map (Node.toElement metadata positions)
      ++ g.arena.edges.map Edge.toElement
    have helements : Drawing.ofExport? .cytoscape (g.exported .cytoscape metadata positions) = do
        return ⟨← (elements.filter fun e => !Drawing.isEdge e).mapM DrawnNode.ofElement?,
          ← (elements.filter Drawing.isEdge).mapM DrawnEdge.ofElement?⟩ := rfl
    obtain ⟨hnodes, hlinks⟩ := filter_elements metadata positions g
    rw [helements, hnodes, hlinks, mapM_map_eq_some (ofElement?_toElement metadata positions),
      hedges Edge.drawn fun _ => rfl]
    rfl
  | d3 =>
    have hpoints : Drawing.ofExport? .d3 (g.exported .d3 metadata positions) = do
        return ⟨← (g.arena.nodes.map (Node.toPoint positions)).mapM DrawnNode.ofPoint?,
          ← (g.arena.edges.map Edge.toLink).mapM (DrawnEdge.ofFields? "value")⟩ := rfl
    rw [hpoints, mapM_map_eq_some (ofPoint?_toPoint positions),
      hedges Edge.drawn fun _ => rfl]
    rfl

/-- A full record of a graph and what it shows besides a bare one. -/
structure Json.Details (full bare : Json) : Prop where
  bare : full.withoutMetadata = bare
  graph : ∀ key ∈ ["clusters", "metadata"], (full.field? key).isSome = true
  nodes : ∃ nodes, full.listUnder? "nodes" = some nodes ∧
    ∀ v ∈ nodes, ∀ key ∈ ["data", "metrics"], (v.field? key).isSome = true

theorem details_exported (g : Graph Number Json) :
    (g.exported .json true positions).Details (g.exported .json false positions) where
  bare := by
    have hnodes : (g.arena.nodes.map (Node.toRecord true positions)).map
        (·.without ["data", "metrics"]) = g.arena.nodes.map (Node.toRecord false positions) := by
      rw [List.map_map]
      exact List.map_congr_left fun n _ => without_toRecord positions n
    have hrecord : (g.exported .json true positions).withoutMetadata = .record
        [("nodes", .list ((g.arena.nodes.map (Node.toRecord true positions)).map
          (·.without ["data", "metrics"]))), ("edges", .list (g.arena.edges.map Edge.toJson))] := rfl
    rw [hrecord, hnodes]
    rfl
  graph := by
    intro key hkey
    simp only [List.mem_cons, List.not_mem_nil, or_false] at hkey
    rcases hkey with rfl | rfl <;> rfl
  nodes := by
    refine ⟨_, rfl, fun v hv key hkey => ?_⟩
    obtain ⟨n, -, rfl⟩ := List.mem_map.mp hv
    simp only [List.mem_cons, List.not_mem_nil, or_false] at hkey
    rcases hkey with rfl | rfl <;> rfl

end

namespace GraphBuilder

/-- What is exported after a build that went through: whatever the format, with or without the
metadata, it shows the same nodes and edges of the graph in its order, and where places are asked for
the same place of every node. The record without metadata is the one with them less these. -/
theorem drawings_exported (b : GraphBuilder) (now : Moment) (s : Graph.Sources Number)
    (g : Graph Number Json) (h : (b.build now s).1 = .ok g) (positions : Bool) :
    (∀ f metadata pretty, ∃ v,
      (b.build now s).2.exported ⟨.text (ExportFormat.name f), metadata, positions, pretty⟩ = .ok v ∧
        Drawing.ofExport? f v = some (g.drawing positions)) ∧
    (∀ n ∈ (g.drawing positions).nodes, n.place.isSome = positions) ∧
    ∀ pretty, ∃ full bare,
      (b.build now s).2.exported ⟨.text "json", true, positions, pretty⟩ = .ok full ∧
      (b.build now s).2.exported ⟨.text "json", false, positions, pretty⟩ = .ok bare ∧
      full.Details bare := by
  have hdone : Graph.build b.settings now s = .done g := Progress.toExcept_eq_ok.mp h
  have hkept : (b.build now s).2.graph = some g := by
    rw [build, hdone]
    rfl
  have hexported (f : ExportFormat) (metadata pretty : Bool) :
      (b.build now s).2.exported ⟨.text f.name, metadata, positions, pretty⟩ =
        .ok (g.exported f metadata positions) := by
    rw [exported, hkept]
    cases f <;> rfl
  have hplaced : ∀ n ∈ g.arena.nodes, n.position.isSome = true := by
    rcases Graph.build_cases b.settings now s with ⟨-, hfinished⟩ | ⟨hstopped, -⟩
    · rw [hdone] at hfinished
      exact hfinished.placed
    · rw [hdone] at hstopped
      exact absurd rfl hstopped
  refine ⟨fun f metadata pretty => ⟨_, hexported f metadata pretty, ofExport?_exported ..⟩, ?_,
    fun pretty => ⟨_, _, hexported .json true pretty, hexported .json false pretty,
      details_exported positions g⟩⟩
  intro d hd
  obtain ⟨n, hn, rfl⟩ := List.mem_map.mp hd
  cases positions with
  | false => rfl
  | true => simpa [Node.drawn, Node.shownPosition] using hplaced n hn

private def stall : Graph.Sources Number where
  context := {
    stories := [⟨.text "pay", .text "Pay", .text "", .text "buyer", .text "high", .int 1, .text "",
      .text "", .text "simple", [.text "Cart"], [], .null⟩]
    capabilities := [⟨.text "sales", .text "Sales", .text "", [.text "pay"], [.text "Cart"],
      [.text "Order"], [], .text "core", .null⟩]
    entities := [⟨.text "Order", [], [], [], .text "", .null⟩]
    rules := []
    personas := [] }
  features := ⟨[⟨"Cart", .functional, "", "", [], ⟨[], [], [], []⟩⟩], [], [], []⟩
  journeys := .empty

private def bench : GraphBuilder := fresh Config.default.graphSettings

private def firstMoment : Moment := ⟨2024, 1, 2, 3, 4, 5, 0⟩

theorem drawings_exported_stall : ∃ g, (bench.build firstMoment stall).1 = .ok g ∧
    g.arena.nodes.length = 4 ∧ g.arena.edges.length = 3 ∧
    (∀ f metadata pretty, ∃ v,
      (bench.build firstMoment stall).2.exported ⟨.text (ExportFormat.name f), metadata, true, pretty⟩ =
        .ok v ∧ Drawing.ofExport? f v = some (g.drawing true)) ∧
    ∀ n ∈ (g.drawing true).nodes, n.place.isSome = true := by
  have hbuilt : ((bench.build firstMoment stall).1.toOption.any fun g =>
      g.arena.nodes.length == 4 && g.arena.edges.length == 3) = true := by decide +kernel
  obtain ⟨g, hg, hcounts⟩ := exists_of_any hbuilt
  obtain ⟨hnodes, hedges⟩ := Bool.and_eq_true_iff.mp hcounts
  obtain ⟨hdrawings, hplaced, -⟩ := drawings_exported bench firstMoment stall g hg true
  exact ⟨g, hg, eq_of_beq hnodes, eq_of_beq hedges, hdrawings, hplaced⟩

end GraphBuilder

end BusinessAtlas
