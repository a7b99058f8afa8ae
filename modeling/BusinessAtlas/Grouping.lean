/-!
# Groups and first appearances

Lists read as collections that keep the order in which things first appear: `grouped` collects items
under their keys, `distinctItems` leaves out what appeared before.
-/

namespace BusinessAtlas

/-- Puts an item into the group of its key, which comes last if it is new. -/
def putGrouped {κ β : Type} [DecidableEq κ] (key : κ) (item : β) :
    List (κ × List β) → List (κ × List β)
  | [] => [(key, [item])]
  | (k, items) :: rest =>
    if k = key then (k, items ++ [item]) :: rest else (k, items) :: putGrouped key item rest

/-- Items in groups, in the order in which the groups first appear. -/
def grouped {κ β : Type} [DecidableEq κ] (items : List (κ × β)) : List (κ × List β) :=
  items.foldl (fun groups item => putGrouped item.1 item.2 groups) []

variable {κ ι : Type} [DecidableEq κ]

private theorem of_mem_putGrouped {key : κ} {item : ι} {groups : List (κ × List ι)}
    {P : κ → ι → Prop} (hgroups : ∀ g ∈ groups, g.2 ≠ [] ∧ ∀ x ∈ g.2, P g.1 x) (hitem : P key item) :
    ∀ g ∈ putGrouped key item groups, g.2 ≠ [] ∧ ∀ x ∈ g.2, P g.1 x := by
  induction groups with
  | nil =>
    intro g hg
    obtain rfl := List.mem_singleton.mp hg
    refine ⟨List.cons_ne_nil _ _, fun x hx => ?_⟩
    obtain rfl := List.mem_singleton.mp hx
    exact hitem
  | cons first rest ih =>
    obtain ⟨⟨hne, hfirst⟩, hrest⟩ := List.forall_mem_cons.mp hgroups
    intro g hg
    rw [putGrouped] at hg
    split at hg
    · next hk =>
      rcases List.mem_cons.mp hg with rfl | hg
      · refine ⟨by simp, fun x hx => ?_⟩
        rcases List.mem_append.mp hx with hx | hx
        · exact hfirst x hx
        · obtain rfl := List.mem_singleton.mp hx
          exact hk ▸ hitem
      · exact hrest g hg
    · rcases List.mem_cons.mp hg with rfl | hg
      · exact ⟨hne, hfirst⟩
      · exact ih hrest g hg

theorem of_mem_grouped {items : List (κ × ι)} {g : κ × List ι} (h : g ∈ grouped items) :
    g.2 ≠ [] ∧ ∀ x ∈ g.2, (g.1, x) ∈ items := by
  suffices hall : ∀ (later : List (κ × ι)) (groups : List (κ × List ι)), (∀ i ∈ later, i ∈ items) →
      (∀ g ∈ groups, g.2 ≠ [] ∧ ∀ x ∈ g.2, (g.1, x) ∈ items) →
      ∀ g ∈ later.foldl (fun groups item => putGrouped item.1 item.2 groups) groups,
        g.2 ≠ [] ∧ ∀ x ∈ g.2, (g.1, x) ∈ items from
    hall items [] (fun _ hi => hi) (fun _ hg => absurd hg List.not_mem_nil) g h
  intro later
  induction later with
  | nil => exact fun groups _ hgroups => hgroups
  | cons item later ih =>
    intro groups hlater hgroups
    obtain ⟨hitem, hlater⟩ := List.forall_mem_cons.mp hlater
    exact ih _ hlater (of_mem_putGrouped (P := fun k x => (k, x) ∈ items) hgroups hitem)

private theorem length_putGrouped_le {key : κ} {item : ι} {groups : List (κ × List ι)} {n : Nat}
    (h : ∀ g ∈ groups, g.2.length ≤ n) :
    ∀ g ∈ putGrouped key item groups, g.2.length ≤ n + 1 := by
  induction groups with
  | nil => exact List.forall_mem_singleton.mpr (Nat.le_add_left 1 n)
  | cons first rest ih =>
    obtain ⟨hfirst, hrest⟩ := List.forall_mem_cons.mp h
    have hrest' : ∀ g ∈ rest, g.2.length ≤ n + 1 := fun g hg => Nat.le_succ_of_le (hrest g hg)
    rw [putGrouped]
    split
    · refine List.forall_mem_cons.mpr ⟨?_, hrest'⟩
      rw [List.length_append, List.length_singleton]
      exact Nat.succ_le_succ hfirst
    · exact List.forall_mem_cons.mpr ⟨Nat.le_succ_of_le hfirst, ih hrest⟩

theorem length_le_of_mem_grouped {items : List (κ × ι)} {g : κ × List ι} (h : g ∈ grouped items) :
    g.2.length ≤ items.length := by
  suffices hall : ∀ (later : List (κ × ι)) (groups : List (κ × List ι)) (n : Nat),
      (∀ g ∈ groups, g.2.length ≤ n) →
      ∀ g ∈ later.foldl (fun groups item => putGrouped item.1 item.2 groups) groups,
        g.2.length ≤ n + later.length by
    have hle := hall items [] 0 (fun _ hg => absurd hg List.not_mem_nil) g h
    rwa [Nat.zero_add] at hle
  intro later
  induction later with
  | nil => exact fun groups n hgroups => hgroups
  | cons item later ih =>
    intro groups n hgroups g hg
    have hle := ih _ _ (length_putGrouped_le hgroups) g hg
    rw [List.length_cons]
    omega

/-- The items whose key is neither among `seen` nor that of an item before them. -/
def firstFrom (key : ι → κ) (seen : List κ) : List ι → List ι
  | [] => []
  | x :: rest =>
    if key x ∈ seen then firstFrom key seen rest else x :: firstFrom key (key x :: seen) rest

def firstPer (key : ι → κ) (items : List ι) : List ι := firstFrom key [] items

/-- The distinct items of a list in the order in which they first appear. -/
def distinctItems (items : List κ) : List κ := firstPer id items

theorem mem_map_firstFrom {key : ι → κ} {seen : List κ} {items : List ι} {k : κ} :
    k ∈ (firstFrom key seen items).map key ↔ k ∈ items.map key ∧ k ∉ seen := by
  induction items generalizing seen with
  | nil => simp [firstFrom]
  | cons y rest ih =>
    by_cases hy : key y ∈ seen
    · rw [firstFrom, if_pos hy, ih, List.map_cons, List.mem_cons]
      constructor
      · rintro ⟨h, hs⟩; exact ⟨.inr h, hs⟩
      · rintro ⟨rfl | h, hs⟩
        · exact absurd hy hs
        · exact ⟨h, hs⟩
    · rw [firstFrom, if_neg hy]
      simp only [List.map_cons, List.mem_cons, ih, not_or]
      constructor
      · rintro (rfl | ⟨h, _, hs⟩)
        · exact ⟨.inl rfl, hy⟩
        · exact ⟨.inr h, hs⟩
      · rintro ⟨h, hs⟩
        by_cases hk : k = key y
        · exact .inl hk
        · exact .inr ⟨h.resolve_left hk, hk, hs⟩

theorem nodup_map_firstFrom (key : ι → κ) (seen : List κ) (items : List ι) :
    ((firstFrom key seen items).map key).Nodup := by
  induction items generalizing seen with
  | nil => simp [firstFrom]
  | cons y rest ih =>
    by_cases hy : key y ∈ seen
    · rw [firstFrom, if_pos hy]
      exact ih seen
    · rw [firstFrom, if_neg hy, List.map_cons, List.nodup_cons]
      exact ⟨fun h => (mem_map_firstFrom.mp h).2 List.mem_cons_self, ih _⟩

theorem mem_of_mem_firstFrom {key : ι → κ} {seen : List κ} {items : List ι} {x : ι}
    (h : x ∈ firstFrom key seen items) : x ∈ items := by
  induction items generalizing seen with
  | nil => cases h
  | cons y rest ih =>
    by_cases hy : key y ∈ seen
    · rw [firstFrom, if_pos hy] at h
      exact List.mem_cons_of_mem _ (ih h)
    · rw [firstFrom, if_neg hy] at h
      rcases List.mem_cons.mp h with rfl | h
      · exact List.mem_cons_self
      · exact List.mem_cons_of_mem _ (ih h)

private theorem firstFrom_concat (key : ι → κ) (seen : List κ) (items : List ι) (x : ι) :
    firstFrom key seen (items ++ [x]) = firstFrom key seen items ++
      if key x ∈ seen ∨ key x ∈ items.map key then [] else [x] := by
  induction items generalizing seen with
  | nil => by_cases hx : key x ∈ seen <;> simp [firstFrom, hx]
  | cons y rest ih =>
    by_cases hy : key y ∈ seen
    · rw [List.cons_append, firstFrom, if_pos hy, ih, firstFrom, if_pos hy]
      have hiff : key x ∈ seen ∨ key x ∈ (y :: rest).map key ↔
          key x ∈ seen ∨ key x ∈ rest.map key := by
        rw [List.map_cons, List.mem_cons]
        constructor
        · rintro (h | h | h)
          · exact .inl h
          · exact .inl (h ▸ hy)
          · exact .inr h
        · rintro (h | h)
          · exact .inl h
          · exact .inr (.inr h)
      simp only [hiff]
    · rw [List.cons_append, firstFrom, if_neg hy, ih, firstFrom, if_neg hy, List.cons_append]
      have hiff : key x ∈ seen ∨ key x ∈ (y :: rest).map key ↔
          key x ∈ key y :: seen ∨ key x ∈ rest.map key := by
        simp only [List.map_cons, List.mem_cons]
        exact or_left_comm.trans or_assoc.symm
      simp only [hiff]

theorem firstPer_concat (key : ι → κ) (items : List ι) (x : ι) :
    firstPer key (items ++ [x]) =
      firstPer key items ++ if key x ∈ items.map key then [] else [x] := by
  rw [firstPer, firstFrom_concat]
  simp [firstPer]

theorem mem_map_firstPer (key : ι → κ) (items : List ι) {k : κ} :
    k ∈ (firstPer key items).map key ↔ k ∈ items.map key := by
  simp [firstPer, mem_map_firstFrom]

theorem nodup_map_firstPer (key : ι → κ) (items : List ι) :
    ((firstPer key items).map key).Nodup := nodup_map_firstFrom key [] items

theorem mem_of_mem_firstPer {key : ι → κ} {items : List ι} {x : ι} (h : x ∈ firstPer key items) :
    x ∈ items := mem_of_mem_firstFrom h

private theorem find?_of_mem_firstFrom {key : ι → κ} {seen : List κ} {items : List ι} {x : ι}
    (h : x ∈ firstFrom key seen items) : items.find? (fun y => key y = key x) = some x := by
  induction items generalizing seen with
  | nil => cases h
  | cons y rest ih =>
    have hnew : key x ∉ seen := (mem_map_firstFrom.mp (List.mem_map_of_mem h)).2
    by_cases hy : key y ∈ seen
    · have hne : ¬key y = key x := fun he => hnew (he ▸ hy)
      rw [firstFrom, if_pos hy] at h
      rw [List.find?_cons_of_neg (by simpa using hne), ih h]
    · rw [firstFrom, if_neg hy] at h
      rcases List.mem_cons.mp h with rfl | h
      · exact List.find?_cons_of_pos (by simp)
      · have hne := List.ne_of_not_mem_cons (mem_map_firstFrom.mp (List.mem_map_of_mem h)).2
        rw [List.find?_cons_of_neg (by simpa using hne.symm), ih h]

theorem find?_of_mem_firstPer {key : ι → κ} {items : List ι} {x : ι} (h : x ∈ firstPer key items) :
    items.find? (fun y => key y = key x) = some x :=
  find?_of_mem_firstFrom h

theorem find?_firstPer (key : ι → κ) (items : List ι) (k : κ) :
    (firstPer key items).find? (fun y => key y = k) = items.find? fun y => key y = k := by
  cases h : (firstPer key items).find? fun y => key y = k with
  | some x =>
    have hk : key x = k := by simpa using List.find?_some h
    rw [← hk, find?_of_mem_firstPer (List.mem_of_find?_eq_some h)]
  | none =>
    rw [List.find?_eq_none] at h
    refine (List.find?_eq_none.mpr fun x hx => ?_).symm
    have hx' : key x ∈ (firstPer key items).map key :=
      (mem_map_firstPer key items).mpr (List.mem_map_of_mem hx)
    obtain ⟨y, hy, hyx⟩ := List.mem_map.mp hx'
    rw [← hyx]
    exact h y hy

private theorem filter_firstFrom {key : ι → κ} {p : ι → Bool} {seen : List κ} {items : List ι}
    (hseen : ∀ x ∈ items, p x = true → key x ∉ seen)
    (h : items.Pairwise fun x y => p y = true → key x ≠ key y) :
    (firstFrom key seen items).filter p = items.filter p := by
  induction items generalizing seen with
  | nil => rfl
  | cons y rest ih =>
    obtain ⟨hy, hrest⟩ := List.pairwise_cons.mp h
    have hseen' : ∀ x ∈ rest, p x = true → key x ∉ seen := fun x hx =>
      hseen x (List.mem_cons_of_mem _ hx)
    by_cases hk : key y ∈ seen
    · have hp : ¬p y = true := fun hp => hseen y List.mem_cons_self hp hk
      rw [firstFrom, if_pos hk, List.filter_cons_of_neg hp]
      exact ih hseen' hrest
    · have hnew : ∀ x ∈ rest, p x = true → key x ∉ key y :: seen := by
        intro x hx hp hmem
        rcases List.mem_cons.mp hmem with he | hmem
        · exact hy x hx hp he.symm
        · exact hseen' x hx hp hmem
      rw [firstFrom, if_neg hk, List.filter_cons, List.filter_cons, ih hnew hrest]

/-- Items whose key no item before them has are all among the first ones. -/
theorem filter_firstPer {key : ι → κ} {p : ι → Bool} {items : List ι}
    (h : items.Pairwise fun x y => p y = true → key x ≠ key y) :
    (firstPer key items).filter p = items.filter p :=
  filter_firstFrom (fun _ _ _ => List.not_mem_nil) h

theorem firstPer_eq_self_iff {key : ι → κ} {items : List ι} :
    firstPer key items = items ↔ (items.map key).Nodup := by
  constructor
  · intro h
    rw [← h]
    exact nodup_map_firstPer key items
  · intro h
    have hpairs : items.Pairwise fun x y => (fun _ => true) y = true → key x ≠ key y :=
      (List.pairwise_map.mp h).imp fun hne _ => hne
    have hall (items : List ι) : items.filter (fun _ => true) = items :=
      List.filter_eq_self.mpr fun _ _ => rfl
    have hkept := filter_firstPer hpairs
    rwa [hall, hall] at hkept

theorem distinctItems_concat (items : List κ) (x : κ) :
    distinctItems (items ++ [x]) = distinctItems items ++ if x ∈ items then [] else [x] := by
  simpa [distinctItems] using firstPer_concat id items x

theorem distinctItems_append_replicate {items : List κ} {x : κ} (h : x ∉ items) (n : Nat) :
    distinctItems (items ++ List.replicate (n + 1) x) = distinctItems items ++ [x] := by
  induction n with
  | zero => rw [List.replicate_one, distinctItems_concat, if_neg h]
  | succ n ih =>
    have hmem : x ∈ items ++ List.replicate (n + 1) x := by simp
    rw [List.replicate_succ', ← List.append_assoc, distinctItems_concat, if_pos hmem,
      List.append_nil, ih]

@[simp] theorem mem_distinctItems {x : κ} {items : List κ} : x ∈ distinctItems items ↔ x ∈ items := by
  rw [distinctItems]
  simpa using mem_map_firstPer id items

theorem nodup_distinctItems (items : List κ) : (distinctItems items).Nodup := by
  rw [distinctItems]
  simpa using nodup_map_firstPer id items

theorem distinctItems_eq_self {items : List κ} (h : items.Nodup) : distinctItems items = items :=
  firstPer_eq_self_iff.mpr (by simpa using h)

end BusinessAtlas
