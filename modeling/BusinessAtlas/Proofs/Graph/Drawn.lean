import BusinessAtlas.Proofs.Graph.Found

/-!
# The edges that are drawn

Some of the edges that are drawn for the sources of a graph are links between what the stages of a
run found, and can be told by their kind or label. All others stand aside: whatever the ids of the
requirements are, no edge of theirs looks like such a link or leads to a component like one.
-/

namespace BusinessAtlas

variable {α β : Type}

/-- The kinds by which links between the stages are told. -/
def linkKinds : List EdgeKind := [.transforms, .navigatesTo, .requires]

/-- The labels by which links between the stages are told. -/
def linkLabels : List String := ["contains", "traverses"]

/-- The edge is none of those between what the stages of a run found. -/
structure Edge.Aside (e : Edge α) : Prop where
  kind : e.kind ∉ linkKinds
  label : e.label ∉ linkLabels
  target : e.kind = .uses → ∀ name, e.target.key ≠ componentKey name

private theorem aside_of {e : Edge α} (kind : EdgeKind) (label : String) (hk : e.kind = kind)
    (hl : e.label = label) (hkind : kind ∉ linkKinds ++ [.uses]) (hlabel : label ∉ linkLabels) :
    e.Aside := by
  subst hk hl
  refine ⟨fun hmem => hkind ?_, hlabel, fun huses => absurd ?_ hkind⟩
  · exact List.mem_append_left _ hmem
  · rw [huses]
    decide

variable [Scalar α]

private theorem aside_of_story {capabilities : List Capability} {x : Story α} {e : Edge α}
    (h : x.Draws capabilities e) : e.Aside := by
  cases h with
  | belongsTo => exact aside_of .belongsTo "belongs to" rfl rfl (by decide) (by decide)
  | implements => exact aside_of .implements "implemented by" rfl rfl (by decide) (by decide)

private theorem aside_of_capability {c : Capability} {e : Edge α} (h : c.Draws e) : e.Aside := by
  obtain ⟨-, -⟩ := h
  have hkind : EdgeKind.uses ∉ linkKinds := by decide
  have hlabel : "uses" ∉ linkLabels := by decide
  refine ⟨hkind, hlabel, fun _ component hkey => ?_⟩
  exact append_ne_of_stems (by decide) (by decide) (by decide) _ _ (Key.text.inj hkey)

private theorem aside_of_rule {r : Rule} {e : Edge α} (h : r.Draws e) : e.Aside := by
  cases h with
  | validates => exact aside_of .validates "validates" rfl rfl (by decide) (by decide)
  | enforces => exact aside_of .implements "enforced by" rfl rfl (by decide) (by decide)

namespace Graph

variable {s : Sources α}

omit [Scalar α] in
private theorem aside_of_relationship (hs : s.Found) {r : Relationship α}
    (hr : r ∈ s.features.relationships) {e : Edge α} (h : r.Draws e) : e.Aside := by
  obtain ⟨hsource, ⟨f, hf, htarget⟩, hkind, hlength⟩ := hs.related r hr
  obtain @⟨kind, hk⟩ := h
  have hlabel : r.description ∉ linkLabels := by
    have hshort : ∀ word ∈ linkLabels, word.length < 12 := by decide
    intro hmem
    have := hshort _ hmem
    omega
  have hdrawn : kind ∉ linkKinds := by
    rcases hkind with hkind | hkind
    · rw [hkind] at hk
      cases hk
      decide
    · rw [hkind] at hk
      cases hk
      decide
  refine ⟨hdrawn, hlabel, fun _ name hkey => ?_⟩
  obtain ⟨rest, hrest⟩ := hs.owned.exists_id hf
  have hid : r.target = "component-" ++ name := Key.text.inj hkey
  rw [htarget, hrest] at hid
  exact append_ne_of_stems (by decide) (by decide) (by decide) _ _ hid

/-- The edges that are offered: those that are drawn for the relationships of journeys, and before
and after them the other links between the stages and what is no such link. -/
structure Drawn (s : Sources α) (es before rels after : List (Edge α)) : Prop where
  eq : es = before ++ s.features.features.flatMap Feature.edges ++ rels ++
    s.journeys.journeys.flatMap Journey.edges ++ s.journeys.flow.edges.map FlowEdge.edge ++ after
  before : ∀ e ∈ before, e.Aside
  after : ∀ e ∈ after, e.Aside
  rels : List.flatten <$> s.journeys.relationships.mapM JourneyRelationship.edges = .ok rels

theorem offers_drawn (hs : s.Found) : Offers (β := β) .edge
    (fun es => ∃ before rels after, Drawn s es before rels after) (addAllEdges s) := by
  refine (offers_drawsEdges s).imp fun es hes => ?_
  obtain ⟨stories, capabilities, relationships, rels, rules, hdraws⟩ := hes
  refine ⟨stories ++ capabilities ++ relationships, rels, rules, hdraws.eq, ?_, ?_, hdraws.rels⟩
  · refine List.forall_mem_append.mpr ⟨List.forall_mem_append.mpr ⟨fun e he => ?_, fun e he => ?_⟩,
      fun e he => ?_⟩
    · obtain ⟨x, -, he⟩ := (hdraws.stories e).mp he
      exact aside_of_story he
    · obtain ⟨c, -, he⟩ := (hdraws.capabilities e).mp he
      exact aside_of_capability he
    · obtain ⟨r, hr, he⟩ := (hdraws.relationships e).mp he
      exact aside_of_relationship hs hr he
  · intro e he
    obtain ⟨r, -, he⟩ := (hdraws.rules e).mp he
    exact aside_of_rule he

end Graph

end BusinessAtlas
