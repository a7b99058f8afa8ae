import BusinessAtlas.Proofs.Network.Collapse
import BusinessAtlas.Proofs.Number.Order

/-!
# What a link stands for

Links take in the edges one by one, and each edge goes to the link between its ends: there is one link
for any two ends that some edge has, in the order in which they first appear, and it stands for all
edges between them. It has the label of the first one, the kinds of all of them in their order, and a
weight of theirs that none of theirs exceeds.
-/

namespace BusinessAtlas

variable {α β : Type}

/-- The nodes that an edge leads from and to. -/
def Edge.ends (e : Edge α) : Key × Key := (e.source.key, e.target.key)

def Link.ends (l : Link α) : Key × Key := (l.source.key, l.target.key)

/-- The link has the ends and the label of the first of the edges, the kinds of all of them, and the
largest of their weights. -/
structure Link.Stands (l : Link Number) (es : List (Edge Number)) : Prop where
  first : ∃ e rest, es = e :: rest ∧ l.source = e.source ∧ l.target = e.target ∧ l.label = e.label
  kinds : l.kinds = es.map (·.kind)
  weight_mem : l.weight ∈ es.map (·.weight)
  weight_max : ∀ e ∈ es, l.weight.less e.weight = false

namespace Network

theorem joins_iff {l : Link α} {e : Edge α} : Link.joins l e = true ↔ l.ends = e.ends := by
  simp [Link.joins, Link.ends, Edge.ends, Ident.same]

theorem stands_singleton (e : Edge Number) :
    Link.Stands ⟨e.source, e.target, [e.kind], e.weight, e.label⟩ [e] := by
  refine ⟨⟨e, [], rfl, rfl, rfl, rfl⟩, rfl, List.mem_singleton_self _, fun e' he => ?_⟩
  rw [List.mem_singleton.mp he]
  exact e.weight.less_self

private theorem larger_max {w x y : Number} (h : w.less y = false) :
    (Scalar.larger w x).less y = false := by
  rw [Scalar.larger]
  split
  · next hless =>
    rw [Bool.eq_false_iff] at h ⊢
    exact fun hxy => h (Number.less_trans hless hxy)
  · exact h

private theorem larger_max_right (w x : Number) : (Scalar.larger w x).less x = false := by
  rw [Scalar.larger]
  split
  · exact x.less_self
  · next hless => exact Bool.eq_false_iff.mpr hless

theorem stands_merge {l : Link Number} {es : List (Edge Number)} (h : l.Stands es)
    (e : Edge Number) : (Link.merge l e).Stands (es ++ [e]) := by
  obtain ⟨first, rest, rfl, hsource, htarget, hlabel⟩ := h.first
  constructor
  · exact ⟨first, rest ++ [e], rfl, hsource, htarget, hlabel⟩
  · rw [List.map_append, ← h.kinds]
    rfl
  · change Scalar.larger l.weight e.weight ∈ _
    rw [List.map_append, List.mem_append, Scalar.larger]
    split
    · exact .inr (List.mem_singleton_self _)
    · exact .inl h.weight_mem
  · intro e' he
    rcases List.mem_append.mp he with he | he
    · exact larger_max (h.weight_max e' he)
    · rw [List.mem_singleton.mp he]
      exact larger_max_right _ _

theorem putLink_of_new [Scalar α] {e : Edge α} {ls : List (Link α)}
    (h : e.ends ∉ ls.map Link.ends) :
    putLink e ls = ls ++ [⟨e.source, e.target, [e.kind], e.weight, e.label⟩] := by
  induction ls with
  | nil => rfl
  | cons l rest ih =>
    rw [List.map_cons, List.mem_cons, not_or] at h
    have hjoins : ¬Link.joins l e = true := fun hj => h.1 (joins_iff.mp hj).symm
    rw [putLink, if_neg hjoins, ih h.2]
    rfl

theorem putLink_of_mem [Scalar α] {e : Edge α} {ls : List (Link α)} (h : e.ends ∈ ls.map Link.ends)
    (hnodup : (ls.map Link.ends).Nodup) :
    putLink e ls = ls.map fun l => if l.ends = e.ends then Link.merge l e else l := by
  induction ls with
  | nil => cases h
  | cons l rest ih =>
    rw [List.map_cons, List.nodup_cons] at hnodup
    rw [putLink, List.map_cons]
    by_cases hl : l.ends = e.ends
    · have hrest : ∀ l' ∈ rest, (if l'.ends = e.ends then Link.merge l' e else l') = l' := by
        intro l' hl'
        refine if_neg fun he => hnodup.1 ?_
        rw [hl, ← he]
        exact List.mem_map_of_mem hl'
      rw [if_pos (joins_iff.mpr hl), if_pos hl, List.map_congr_left hrest, List.map_id']
    · have hmem : e.ends ∈ rest.map Link.ends :=
        (List.mem_cons.mp h).resolve_left fun he => hl he.symm
      rw [if_neg fun hj => hl (joins_iff.mp hj), if_neg hl, ih hmem hnodup.2]

/-- There is one link for any two ends that some edge has, and it stands for the edges between
them. -/
structure Merged (ls : List (Link Number)) (es : List (Edge Number)) : Prop where
  ends : ls.map Link.ends = distinctItems (es.map Edge.ends)
  stands : ∀ l ∈ ls, l.Stands (es.filter (·.ends = l.ends))

namespace Merged

variable {ls : List (Link Number)} {es : List (Edge Number)} {e : Edge Number}

private theorem filter_of_ne {l : Link Number} (hl : l.ends ≠ e.ends) :
    (es ++ [e]).filter (·.ends = l.ends) = es.filter (·.ends = l.ends) := by
  simp [hl.symm]

private theorem merge (h : Merged ls es) (hin : e.ends ∈ es.map Edge.ends) :
    Merged (ls.map fun l => if l.ends = e.ends then Link.merge l e else l) (es ++ [e]) where
  ends := by
    have hends (l : Link Number) :
        (if l.ends = e.ends then Link.merge l e else l).ends = l.ends := by
      split <;> rfl
    rw [List.map_map, List.map_append, List.map_singleton, distinctItems_concat, if_pos hin,
      List.append_nil, ← h.ends]
    exact List.map_congr_left fun l _ => hends l
  stands := by
    refine List.forall_mem_map.mpr fun l hl => ?_
    split
    · next hends =>
      have hstands := stands_merge (h.stands l hl) e
      have hfilter : (es ++ [e]).filter (·.ends = (Link.merge l e).ends) =
          es.filter (·.ends = l.ends) ++ [e] := by
        change (es ++ [e]).filter (·.ends = l.ends) = _
        simp [hends]
      rwa [hfilter]
    · next hends =>
      rw [filter_of_ne hends]
      exact h.stands l hl

private theorem concat (h : Merged ls es) (hnew : e.ends ∉ es.map Edge.ends) :
    Merged (ls ++ [⟨e.source, e.target, [e.kind], e.weight, e.label⟩]) (es ++ [e]) where
  ends := by
    rw [List.map_append, List.map_append, List.map_singleton, List.map_singleton,
      distinctItems_concat, if_neg hnew, h.ends]
    rfl
  stands := by
    refine List.forall_mem_append.mpr ⟨fun l hl => ?_, List.forall_mem_singleton.mpr ?_⟩
    · have hne : l.ends ≠ e.ends := by
        intro he
        rw [← mem_distinctItems, ← h.ends, ← he] at hnew
        exact hnew (List.mem_map_of_mem hl)
      rw [filter_of_ne hne]
      exact h.stands l hl
    · have hnone : es.filter (·.ends = e.ends) = [] := by
        refine List.filter_eq_nil_iff.mpr fun e' he' heq => hnew ?_
        rw [← of_decide_eq_true heq]
        exact List.mem_map_of_mem he'
      have hfilter : (es ++ [e]).filter (·.ends = e.ends) = [e] := by
        rw [List.filter_append, hnone, List.nil_append]
        simp
      have hstands := stands_singleton e
      rwa [← hfilter] at hstands

theorem putLink (h : Merged ls es) (e : Edge Number) : Merged (putLink e ls) (es ++ [e]) := by
  have hnodup : (ls.map Link.ends).Nodup := h.ends ▸ nodup_distinctItems _
  have hmem : e.ends ∈ ls.map Link.ends ↔ e.ends ∈ es.map Edge.ends := by
    rw [h.ends, mem_distinctItems]
  by_cases hin : e.ends ∈ es.map Edge.ends
  · rw [putLink_of_mem (hmem.mpr hin) hnodup]
    exact h.merge hin
  · rw [putLink_of_new (mt hmem.mp hin)]
    exact h.concat hin

end Merged

theorem merged_foldl (es : List (Edge Number)) :
    Merged (es.foldl (fun ls e => Network.putLink e ls) []) es := by
  induction es using List.reverseRecOn with
  | nil => exact ⟨rfl, nofun⟩
  | append_singleton es e ih =>
    rw [List.foldl_append]
    exact ih.putLink e

end Network

end BusinessAtlas
