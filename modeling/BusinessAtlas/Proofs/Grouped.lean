import BusinessAtlas.Grouping
import BusinessAtlas.Number.Scalar
import Mathlib.Algebra.BigOperators.Group.List.Basic
import Mathlib.Algebra.GroupWithZero.Nat
import Mathlib.Data.List.Induction
import Mathlib.Data.List.Nodup
import Mathlib.Data.List.Perm.Basic

/-!
# What groups hold

Collecting items under their keys shares them out. There is one group for each key, in the order in
which the keys first appear, and in it are the items of that key in their own order. The groups of
distinct keys that cover all items hold every item once. Counts add up item by item: what is counted
for the items of several lists is counted for the lists together, and what is counted for each of some
distinct keys comes to as many items as there are.
-/

namespace BusinessAtlas

section Groups

variable {ι κ : Type} [DecidableEq κ]

/-- The items that come with a key. -/
def itemsAt (items : List (κ × ι)) (key : κ) : List ι :=
  (items.filter (·.1 = key)).map (·.2)

private theorem putGrouped_map {f : κ → List ι} {keys : List κ} (h : keys.Nodup) (key : κ)
    (item : ι) : putGrouped key item (keys.map fun k => (k, f k)) =
      keys.map (fun k => (k, if key = k then f k ++ [item] else f k)) ++
        if key ∈ keys then [] else [(key, [item])] := by
  induction keys with
  | nil => rfl
  | cons k rest ih =>
    obtain ⟨hk, hrest⟩ := List.nodup_cons.mp h
    by_cases hkey : k = key
    · have hsame : rest.map (fun other => (other, if key = other then f other ++ [item] else f other)) =
          rest.map fun other => (other, f other) := by
        refine List.map_congr_left fun other hother => ?_
        rw [if_neg]
        rintro rfl
        exact hk (hkey ▸ hother)
      simp [putGrouped, hkey, hsame]
    · have hne : ¬key = k := fun he => hkey he.symm
      simp [putGrouped, hkey, hne, ih hrest]

/-- There is one group for each key, in the order in which the keys first appear. -/
theorem grouped_eq (items : List (κ × ι)) :
    grouped items = (distinctItems (items.map (·.1))).map fun key => (key, itemsAt items key) := by
  induction items using List.reverseRecOn with
  | nil => rfl
  | append_singleton items item ih =>
    obtain ⟨key, x⟩ := item
    have hitems (k : κ) : itemsAt (items ++ [(key, x)]) k =
        if key = k then itemsAt items k ++ [x] else itemsAt items k := by
      unfold itemsAt
      rw [List.filter_append]
      split
      · next h => simp [h]
      · next h => simp [h]
    have hnew (h : key ∉ items.map (·.1)) : itemsAt items key = [] := by
      rw [itemsAt, List.filter_eq_nil_iff.mpr, List.map_nil]
      intro i hi hik
      exact h (List.mem_map.mpr ⟨i, hi, of_decide_eq_true hik⟩)
    have hstep : grouped (items ++ [(key, x)]) = putGrouped key x (grouped items) :=
      List.foldl_concat ..
    rw [hstep, ih, putGrouped_map (nodup_distinctItems _), List.map_append, List.map_singleton,
      distinctItems_concat, List.map_append]
    simp only [hitems, mem_distinctItems]
    congr 1
    by_cases hin : key ∈ items.map (·.1)
    · rw [if_pos hin, if_pos hin, List.map_nil]
    · rw [if_neg hin, if_neg hin, List.map_singleton, if_pos rfl, hnew hin, List.nil_append]

/-- Items that are shared out by their keys are all there, whatever the order of the keys. -/
theorem perm_flatMap_filter {key : ι → κ} {keys : List κ} (hkeys : keys.Nodup) {items : List ι}
    (h : ∀ x ∈ items, key x ∈ keys) :
    (keys.flatMap fun k => items.filter fun x => key x = k).Perm items := by
  induction keys generalizing items with
  | nil =>
    have hnone : items = [] := List.eq_nil_iff_forall_not_mem.mpr fun x hx => by simpa using h x hx
    rw [hnone]
    exact .refl _
  | cons k rest ih =>
    obtain ⟨hk, hrest⟩ := List.nodup_cons.mp hkeys
    have hothers : ∀ x ∈ items.filter (fun x => !decide (key x = k)), key x ∈ rest := by
      intro x hx
      obtain ⟨hmem, hne⟩ := List.mem_filter.mp hx
      exact (List.mem_cons.mp (h x hmem)).resolve_left (by simpa using hne)
    have hlater : (rest.flatMap fun other => items.filter fun x => key x = other) =
        rest.flatMap fun other =>
          (items.filter fun x => !decide (key x = k)).filter fun x => key x = other := by
      apply List.flatMap_congr
      intro other hother
      rw [List.filter_filter]
      apply List.filter_congr
      intro x _
      by_cases hx : key x = other
      · have hne : ¬other = k := fun he => hk (he ▸ hother)
        simp [hx, hne]
      · simp [hx]
    rw [List.flatMap_cons, hlater]
    exact ((ih hrest hothers).append_left _).trans (List.filter_append_perm _ items)

end Groups

section Counts

variable {ι κ : Type}

theorem totalOf_eq_sum (ns : List Nat) : totalOf ns = ns.sum := rfl

theorem totalOf_map_flatMap (weight : κ → Nat) (items : ι → List κ) (xs : List ι) :
    totalOf ((xs.flatMap items).map weight) =
      totalOf (xs.map fun x => totalOf ((items x).map weight)) := by
  rw [List.map_flatMap, totalOf_eq_sum, List.flatMap_def, List.sum_flatten, List.map_map]
  rfl

theorem totalOf_map_add (f g : ι → Nat) (xs : List ι) :
    totalOf (xs.map fun x => f x + g x) = totalOf (xs.map f) + totalOf (xs.map g) :=
  List.sum_map_add

variable [DecidableEq κ]

private theorem totalOf_indicator (keys : List κ) (x : κ) :
    totalOf (keys.map fun k => if x = k then 1 else 0) = keys.count x := by
  induction keys with
  | nil => rfl
  | cons k rest ih =>
    rw [List.map_cons, totalOf_cons, ih, List.count_cons, Nat.add_comm]
    simp only [beq_iff_eq, @eq_comm _ x k]

/-- Items that are all among some distinct keys are counted once each. -/
theorem totalOf_count {keys items : List κ} (hkeys : keys.Nodup) (h : ∀ x ∈ items, x ∈ keys) :
    totalOf (keys.map fun k => items.count k) = items.length := by
  induction items with
  | nil =>
    have hnone : totalOf (keys.map fun k => List.count k []) ≤ 0 * keys.length :=
      totalOf_map_le fun _ _ => Nat.le_refl 0
    simpa using hnone
  | cons x rest ih =>
    obtain ⟨hx, hrest⟩ := List.forall_mem_cons.mp h
    simp only [List.count_cons, beq_iff_eq]
    rw [totalOf_map_add, ih hrest, totalOf_indicator, List.count_eq_one_of_mem hkeys hx,
      List.length_cons]

end Counts

end BusinessAtlas
