import BusinessAtlas.Journey.Inference
import BusinessAtlas.Proofs.Text.Joined
import Mathlib.Data.List.Nodup
import Mathlib.Data.List.Perm.Subperm

/-!
# The first id that is free

The ids that are tried for a journey are all different, so one of them is free among one more of them
than there are ids to avoid. The search that tries them in turn, going on while an id is taken, ends
for this reason, and it ends at the first one that is free.
-/

namespace BusinessAtlas

variable {taken : List String} {base : String}

private theorem exists_idCandidate (base : String) (n : Nat) :
    ∃ suffix, idCandidate base n = base ++ suffix := by
  cases n with
  | zero => exact ⟨"", by simp [idCandidate]⟩
  | succ n => exact ⟨"-" ++ toString (n + 2), String.append_assoc⟩

private theorem idCandidate_injective : Function.Injective (idCandidate base) := by
  have hne (n : Nat) : idCandidate base (n + 1) ≠ base := by
    intro h
    have hcandidate : idCandidate base (n + 1) = base ++ "-" ++ toString (n + 2) := rfl
    have hlen := congrArg String.length (hcandidate.symm.trans h)
    have hdash : "-".length = 1 := rfl
    simp only [String.length_append, hdash] at hlen
    omega
  intro m n h
  cases m with
  | zero =>
    cases n with
    | zero => rfl
    | succ n => exact absurd h.symm (hne n)
  | succ m =>
    cases n with
    | zero => exact absurd h (hne m)
    | succ n =>
      have htext : toString (m + 2) = toString (n + 2) := (String.append_right_inj _).mp h
      have hnumber : m + 2 = n + 2 := toString_inj htext
      omega

/-- One of the ids that are tried is free, for they are more than those taken. -/
private theorem exists_free (taken : List String) (base : String) :
    ∃ id ∈ (List.range (taken.length + 1)).map (idCandidate base), id ∉ taken := by
  by_contra hnone
  have hsub : (List.range (taken.length + 1)).map (idCandidate base) ⊆ taken := by
    intro id hid
    by_contra hfree
    exact hnone ⟨id, hid, hfree⟩
  have hnodup : ((List.range (taken.length + 1)).map (idCandidate base)).Nodup :=
    List.nodup_range.map idCandidate_injective
  have hlen := (List.subperm_of_subset hnodup hsub).length_le
  rw [List.length_map, List.length_range] at hlen
  omega

theorem exists_freeId (taken : List String) (base : String) : ∃ n ≤ taken.length,
    freeId taken base = idCandidate base n ∧ idCandidate base n ∉ taken ∧
      ∀ k < n, idCandidate base k ∈ taken := by
  unfold freeId
  cases h : ((List.range (taken.length + 1)).map (idCandidate base)).find? fun id =>
      !taken.contains id with
  | none =>
    obtain ⟨id, hid, hfree⟩ := exists_free taken base
    have htaken := List.find?_eq_none.mp h id hid
    exact absurd (by simpa using hfree) htaken
  | some id =>
    obtain ⟨hfree, n, hn, hat, hbefore⟩ := List.find?_eq_some_iff_getElem.mp h
    simp only [List.length_map, List.length_range] at hn
    simp only [List.getElem_map, List.getElem_range] at hat hbefore
    refine ⟨n, Nat.le_of_lt_succ hn, by rw [Option.getD_some, hat], ?_, ?_⟩
    · rw [hat]
      simpa using hfree
    · intro k hk
      simpa using hbefore k hk

theorem freeId_cases (taken : List String) (base : String) :
    freeId taken base ∉ taken ∧ ∃ suffix, freeId taken base = base ++ suffix := by
  obtain ⟨n, -, hid, hfree, -⟩ := exists_freeId taken base
  rw [hid]
  exact ⟨hfree, exists_idCandidate base n⟩

/-- A search that tries `id` ends at `found`: an id that is taken is followed by the base with the
number that is due. -/
inductive SearchEnds (taken : List String) (base : String) : Nat → String → String → Prop where
  | free {n id} : id ∉ taken → SearchEnds taken base n id id
  | next {n id found} : id ∈ taken →
    SearchEnds taken base (n + 1) (base ++ "-" ++ toString n) found → SearchEnds taken base n id found

theorem SearchEnds.unique {n : Nat} {id found other : String} (h : SearchEnds taken base n id found)
    (h' : SearchEnds taken base n id other) : found = other := by
  induction h with
  | free hfree =>
    cases h' with
    | free => rfl
    | next htaken => exact absurd htaken hfree
  | next htaken _ ih =>
    cases h' with
    | free hfree => exact absurd htaken hfree
    | next _ h' => exact ih h'

theorem searchEnds_idCandidate {m k : Nat} (hfree : idCandidate base (m + k) ∉ taken)
    (htaken : ∀ i < m + k, idCandidate base i ∈ taken) :
    SearchEnds taken base (m + 2) (idCandidate base m) (idCandidate base (m + k)) := by
  induction k generalizing m with
  | zero => exact .free hfree
  | succ k ih =>
    have hstep : m + (k + 1) = m + 1 + k := by omega
    rw [hstep] at hfree htaken ⊢
    apply SearchEnds.next
    · exact htaken m (by omega)
    · exact ih hfree htaken

/-- The search for an id ends, at this one and no other, and it is the first of those that are tried
that is free. -/
structure FirstFree (taken : List String) (base id : String) : Prop where
  search : ∀ found, SearchEnds taken base 2 base found ↔ found = id
  free : id ∉ taken
  first : ∃ n ≤ taken.length, id = idCandidate base n ∧ ∀ k < n, idCandidate base k ∈ taken

theorem firstFree_freeId (taken : List String) (base : String) :
    FirstFree taken base (freeId taken base) := by
  obtain ⟨n, hn, hid, hfree, htaken⟩ := exists_freeId taken base
  have hends : SearchEnds taken base 2 base (idCandidate base n) := by
    have hcandidate : SearchEnds taken base (0 + 2) (idCandidate base 0) (idCandidate base (0 + n)) := by
      apply searchEnds_idCandidate
      · simpa using hfree
      · simpa using htaken
    simpa [idCandidate] using hcandidate
  rw [hid]
  refine ⟨?_, hfree, n, hn, rfl, htaken⟩
  intro found
  constructor
  · intro hfound
    exact hfound.unique hends
  · intro hfound
    rw [hfound]
    exact hends

end BusinessAtlas
