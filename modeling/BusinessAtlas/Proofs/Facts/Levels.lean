import BusinessAtlas.Proofs.Facts.Legible
import Mathlib.Logic.Relation

/-!
# Components level by level

A forest of nested records has a first level, a level of the records that those of the first one list,
and so on. Taking records from the front of a queue and putting those nested in them at its back gives
the records in this order. Each record is heavier than all that it puts back, so the queue comes to its
end, and the weight of what is pending is fuel enough.
-/

namespace BusinessAtlas

namespace Json

section

variable {v w : Json} {fields : List (String × Json)} {xs ys : List Json} {key : String}
  {spellings : List String} {p : Json → Bool}

theorem weight_pos (v : Json) : 0 < v.weight := by
  cases v <;> simp [weight]

@[simp] theorem listWeight_append : listWeight (xs ++ ys) = listWeight xs + listWeight ys := by
  induction xs with
  | nil => simp [listWeight]
  | cons x rest ih => simp [listWeight, ih, Nat.add_assoc]

theorem listWeight_filter_le : listWeight (xs.filter p) ≤ listWeight xs := by
  induction xs with
  | nil => exact Nat.le_refl _
  | cons x rest ih =>
    rw [List.filter_cons]
    split
    · rw [listWeight, listWeight]
      exact Nat.add_le_add_left ih _
    · rw [listWeight]
      exact Nat.le_trans ih (Nat.le_add_left _ _)

theorem weight_lt_of_lookup (h : lookup key fields = some w) : w.weight < (record fields).weight := by
  have hle : w.weight ≤ fieldWeight fields := by
    induction fields with
    | nil => cases h
    | cons f rest ih =>
      obtain ⟨k, u⟩ := f
      rw [fieldWeight]
      rw [lookup] at h
      split at h
      · cases h
        exact Nat.le_add_right _ _
      · exact Nat.le_trans (ih h) (Nat.le_add_left _ _)
  rw [weight]
  exact Nat.lt_succ_of_le hle

theorem lookup_of_given (h : given key fields = some w) : lookup key fields = some w :=
  (Option.filter_eq_some_iff.mp h).1

theorem items_cases (h : v.items = .ok xs) : v = .list xs ∨ ∀ x ∈ xs, ∃ s, x = .text s := by
  cases v with
  | list items => exact .inl (by rw [Except.ok.inj h])
  | text s =>
    cases h
    exact .inr (List.forall_mem_map.mpr fun c _ => ⟨_, rfl⟩)
  | record fields =>
    cases h
    exact .inr (List.forall_mem_map.mpr fun k _ => ⟨_, rfl⟩)
  | _ => cases h

theorem listWeight_items_lt (hp : ∀ s, p (.text s) = false) :
    Yields v.items fun xs => listWeight (xs.filter p) < v.weight := by
  intro xs h
  rcases items_cases h with rfl | htexts
  · rw [weight]
    exact Nat.lt_succ_of_le listWeight_filter_le
  · have hnone : xs.filter p = [] := by
      refine List.filter_eq_nil_iff.mpr fun x hx => ?_
      obtain ⟨s, rfl⟩ := htexts x hx
      simp [hp]
    rw [hnone]
    exact weight_pos v

theorem listWeight_pickItems_lt (hp : ∀ s, p (.text s) = false) :
    Yields ((record fields).pickItems spellings) fun xs =>
      listWeight (xs.filter p) < (record fields).weight := by
  unfold pickItems
  rw [pickD_record, ok_bind]
  cases h : spellings.findSome? (given · fields) with
  | none => exact yields_ok (weight_pos _)
  | some w =>
    obtain ⟨key, -, hkey⟩ := List.exists_of_findSome?_eq_some h
    exact (listWeight_items_lt hp).imp fun xs hxs =>
      Nat.lt_trans hxs (weight_lt_of_lookup (lookup_of_given hkey))

theorem fieldOffers_of_first {P : Json → Prop} (h : FirstOffers [key] P fields) :
    FieldOffers key P fields := by
  intro w hw
  cases hnull : w.isNull with
  | true =>
    cases w with
    | null => exact .inl rfl
    | _ => cases hnull
  | false => exact .inr (h w (by simp [given, hw, Option.filter_some, hnull]))

end

end Json

namespace Component

open Json (lookup listWeight)

/-- A record lists another one among its children. -/
def Nests (v w : Json) : Prop := ∃ fields items, v = .record fields ∧
  Json.lookup "children" fields = some (.list items) ∧ w ∈ items ∧ w.isRecord = true

/-- A record is another one or nested in it, at any depth. -/
def Within : Json → Json → Prop := Relation.ReflTransGen Nests

/-- The records that a record lists as its children. -/
def inner : Json → List Json
  | .record fields => match lookup "children" fields with
    | some (.list items) => items.filter Json.isRecord
    | _ => []
  | _ => []

/-- The first levels of a forest: its first records, then the records that these list, and so on. -/
def levels : Nat → List Json → List Json
  | 0, _ => []
  | n + 1, vs => vs ++ levels n (vs.flatMap inner)

/-- The records of a forest level by level. Every level weighs less than the one above it, so there
are no more levels than the first one weighs. -/
def levelOrder (vs : List Json) : List Json := levels (listWeight vs) vs

section

variable {v w : Json} {vs xs ys ns : List Json}

theorem within_iff : Within v w ↔ v = w ∨ ∃ c, Nests v c ∧ Within c w :=
  Relation.ReflTransGen.cases_head_iff

theorem mem_inner : w ∈ inner v ↔ Nests v w := by
  cases v with
  | record fields =>
    cases h : lookup "children" fields with
    | none => simp [inner, Nests, h]
    | some u => cases u <;> simp [inner, Nests, h]
  | _ => simp [inner, Nests]

theorem listWeight_inner_lt (v : Json) : listWeight (inner v) < v.weight := by
  cases v with
  | record fields =>
    cases h : lookup "children" fields with
    | none => simpa [inner, h, listWeight] using Json.weight_pos _
    | some u =>
      have hu := Json.weight_lt_of_lookup h
      cases u with
      | list items =>
        have hitems : listWeight (items.filter Json.isRecord) ≤ listWeight items :=
          Json.listWeight_filter_le
        simp only [inner, h]
        rw [Json.weight] at hu
        omega
      | _ => simpa [inner, h, listWeight] using Json.weight_pos _
  | _ => exact Json.weight_pos _

theorem listWeight_flatMap_inner_lt (h : vs ≠ []) : listWeight (vs.flatMap inner) < listWeight vs := by
  induction vs with
  | nil => exact absurd rfl h
  | cons v rest ih =>
    have hv := listWeight_inner_lt v
    rw [List.flatMap_cons, Json.listWeight_append, listWeight]
    by_cases hrest : rest = []
    · subst hrest
      simpa [listWeight] using hv
    · have hlt := ih hrest
      omega

theorem levels_nil (n : Nat) : levels n [] = [] := by
  induction n with
  | zero => rfl
  | succ n ih => rw [levels, List.flatMap_nil, ih, List.append_nil]

theorem levels_eq {m n : Nat} (hm : listWeight vs ≤ m) (hn : listWeight vs ≤ n) :
    levels m vs = levels n vs := by
  induction m generalizing n vs with
  | zero =>
    cases vs with
    | nil => rw [levels_nil, levels_nil]
    | cons v rest =>
      have hpos := Json.weight_pos v
      rw [listWeight] at hm
      omega
  | succ m ih =>
    by_cases hvs : vs = []
    · rw [hvs, levels_nil, levels_nil]
    · have hlt := listWeight_flatMap_inner_lt hvs
      cases n with
      | zero => omega
      | succ n =>
        rw [levels, levels]
        congr 1
        apply ih <;> omega

@[simp] theorem levelOrder_nil : levelOrder [] = [] := rfl

theorem levelOrder_eq (vs : List Json) : levelOrder vs = vs ++ levelOrder (vs.flatMap inner) := by
  by_cases hvs : vs = []
  · rw [hvs]
    rfl
  · have hlt := listWeight_flatMap_inner_lt hvs
    have hmore : levelOrder vs = levels (listWeight vs + 1) vs :=
      levels_eq (Nat.le_refl _) (Nat.le_succ _)
    rw [hmore, levels, levelOrder]
    congr 1
    exact levels_eq (Nat.le_of_lt hlt) (Nat.le_refl _)

/-- The invariant of the queue: what is in it is the rest of a level and the part of the next level
that is known. -/
theorem levelOrder_append (xs ys : List Json) :
    levelOrder (xs ++ ys) = xs ++ levelOrder (ys ++ xs.flatMap inner) := by
  induction h : listWeight (xs ++ ys) using Nat.strong_induction_on generalizing xs ys with
  | h n ih =>
    cases xs with
    | nil => simp
    | cons x rest =>
      have hlt : listWeight (ys ++ (x :: rest).flatMap inner) < n := by
        have hnext := listWeight_flatMap_inner_lt (List.cons_ne_nil x rest)
        rw [Json.listWeight_append] at h ⊢
        omega
      calc levelOrder (x :: rest ++ ys)
          = x :: rest ++ ys ++ levelOrder ((x :: rest).flatMap inner ++ ys.flatMap inner) := by
            rw [levelOrder_eq, List.flatMap_append]
        _ = x :: rest ++ (ys ++ levelOrder ((x :: rest).flatMap inner ++ ys.flatMap inner)) :=
            List.append_assoc _ _ _
        _ = x :: rest ++ levelOrder (ys ++ (x :: rest).flatMap inner) := by
            rw [ih _ hlt ys _ rfl]

theorem levelOrder_cons (v : Json) (vs : List Json) :
    levelOrder (v :: vs) = v :: levelOrder (vs ++ inner v) := by
  have h := levelOrder_append [v] vs
  simpa using h

/-- Level order goes through all that is nested in the records of the first level, at any depth. -/
theorem mem_levelOrder : w ∈ levelOrder vs ↔ ∃ v ∈ vs, Within v w := by
  induction h : listWeight vs using Nat.strong_induction_on generalizing vs with
  | h n ih =>
    by_cases hvs : vs = []
    · simp [hvs]
    · have hlt := listWeight_flatMap_inner_lt hvs
      rw [levelOrder_eq, List.mem_append, ih _ (h ▸ hlt) rfl]
      simp only [List.mem_flatMap, mem_inner]
      constructor
      · rintro (hw | ⟨c, ⟨v, hv, hc⟩, hw⟩)
        · exact ⟨w, hw, .refl⟩
        · exact ⟨v, hv, within_iff.mpr (.inr ⟨c, hc, hw⟩)⟩
      · rintro ⟨v, hv, hw⟩
        rcases within_iff.mp hw with rfl | ⟨c, hc, hw⟩
        · exact .inl hv
        · exact .inr ⟨c, ⟨v, hv, hc⟩, hw⟩

theorem nested_eq (h : nested v = .ok ns) : ns = inner v := by
  obtain ⟨xs, hxs, hns⟩ := bind_eq_ok.mp h
  cases hns
  cases v with
  | record fields =>
    rw [Json.itemsOf, Json.getOr_record, ok_bind] at hxs
    cases hlookup : lookup "children" fields with
    | none =>
      rw [hlookup] at hxs
      cases hxs
      simp [inner, hlookup]
    | some u =>
      rw [hlookup, Option.getD_some, Json.orElse] at hxs
      cases hvacant : u.isVacant with
      | true =>
        rw [hvacant, if_pos rfl] at hxs
        cases hxs
        cases u with
        | list items => simp [inner, hlookup, List.isEmpty_iff.mp hvacant]
        | _ => simp [inner, hlookup]
      | false =>
        rw [hvacant, if_neg Bool.false_ne_true] at hxs
        rcases Json.items_cases hxs with rfl | htexts
        · simp [inner, hlookup]
        · have hnone : xs.filter Json.isRecord = [] := by
            refine List.filter_eq_nil_iff.mpr fun x hx => ?_
            obtain ⟨s, rfl⟩ := htexts x hx
            simp [Json.isRecord]
          cases u with
          | list items => cases hxs; simp [inner, hlookup]
          | _ => simp [inner, hlookup, hnone]
  | _ => cases hxs

theorem nested_of_ofJson {c : Component} (h : ofJson v = .ok c) : nested v = .ok (inner v) := by
  obtain ⟨fields, rfl, hlisted⟩ := gives_ofJson.mp ⟨c, h, trivial⟩
  obtain ⟨xs, hxs, -⟩ := Json.fieldOffers_iff.mp (Json.fieldOffers_of_first hlisted.children)
  have hns : nested (.record fields) = .ok (xs.filter Json.isRecord) :=
    bind_eq_ok.mpr ⟨xs, hxs, rfl⟩
  rw [hns, nested_eq hns]

/-- Given fuel for all that is pending, collecting reads the records level by level. -/
theorem collect_eq {fuel : Nat} (h : listWeight vs ≤ fuel) :
    collect fuel vs = (levelOrder vs).mapM ofJson := by
  induction fuel generalizing vs with
  | zero =>
    cases vs with
    | nil => rfl
    | cons v rest =>
      have hpos := Json.weight_pos v
      rw [listWeight] at h
      omega
  | succ fuel ih =>
    cases vs with
    | nil => rfl
    | cons v rest =>
      have hlt := listWeight_inner_lt v
      rw [listWeight] at h
      rw [collect, levelOrder_cons, List.mapM_cons]
      cases hc : ofJson v with
      | error e => rfl
      | ok c =>
        simp only [ok_bind, nested_of_ofJson hc]
        rw [ih]
        rw [Json.listWeight_append]
        omega

end

/-- The run of a queue. A text is passed over; a record gives a component and puts the records nested
in it at the back. -/
inductive Drains : List Json → List Component → Prop where
  | done : Drains [] []
  | skip {v rest cs} : v.isText = true → Drains rest cs → Drains (v :: rest) cs
  | take {v rest c ns cs} : v.isText = false → ofJson v = .ok c → nested v = .ok ns →
    Drains (rest ++ ns) cs → Drains (v :: rest) (c :: cs)

/-- The values of a list that are not only names. -/
def objects (vs : List Json) : List Json := vs.filter fun v => !v.isText

section

variable {v : Json} {vs : List Json} {cs : List Component}

theorem objects_append_inner (vs : List Json) (v : Json) :
    objects (vs ++ inner v) = objects vs ++ inner v := by
  have hinner : objects (inner v) = inner v := by
    refine List.filter_eq_self.mpr fun w hw => ?_
    obtain ⟨_, _, _, _, _, hrecord⟩ := mem_inner.mp hw
    cases w with
    | record fields => rfl
    | _ => cases hrecord
  rw [objects, List.filter_append]
  exact congrArg (objects vs ++ ·) hinner

/-- A queue comes to its end exactly if every record in level order can be read, and it gives what
they are read as. -/
theorem drains_iff : Drains vs cs ↔ (levelOrder (objects vs)).mapM ofJson = .ok cs := by
  constructor
  · intro h
    induction h with
    | done => rfl
    | skip htext _ ih =>
      rwa [objects, List.filter_cons_of_neg (by simpa using htext)]
    | @take v rest c ns cs htext hc hns _ ih =>
      rw [nested_eq hns, objects_append_inner] at ih
      rw [objects, List.filter_cons_of_pos (by simpa using htext), levelOrder_cons]
      exact mapM_cons_eq_ok.mpr ⟨c, cs, hc, ih, rfl⟩
  · intro h
    induction hn : listWeight vs using Nat.strong_induction_on generalizing vs cs with
    | h n ih =>
      cases vs with
      | nil =>
        cases h
        exact .done
      | cons v rest =>
        have hpos := Json.weight_pos v
        have hlt := listWeight_inner_lt v
        rw [listWeight] at hn
        cases htext : v.isText with
        | true =>
          rw [objects, List.filter_cons_of_neg (by simpa using htext)] at h
          exact .skip htext (ih _ (by omega) h rfl)
        | false =>
          rw [objects, List.filter_cons_of_pos (by simpa using htext), levelOrder_cons] at h
          obtain ⟨c, later, hc, hlater, rfl⟩ := mapM_cons_eq_ok.mp h
          refine .take htext hc (nested_of_ofJson hc) (ih _ ?_ ?_ rfl)
          · rw [Json.listWeight_append]
            omega
          · rw [objects_append_inner]
            exact hlater

end

end Component

end BusinessAtlas
