import BusinessAtlas.Network.Cycle
import Mathlib.Data.Finset.Max
import Mathlib.Data.List.Cycle
import Mathlib.Logic.Relation

/-!
# Every elementary cycle is found

The search for cycles takes the nodes as roots, one after the other, and looks for the ways from a root
through later nodes back to it. It leaves out nodes from which the root is out of reach, and it stops
when its budget is used up. What it finds are the first ones of all elementary cycles, of which each
comes once, from its first node on.
-/

namespace BusinessAtlas

/-- Something is led through by a relation from place to place, comes to no place twice, and is back
where it started. -/
structure SimpleCycle {κ : Type} (r : κ → κ → Prop) (c : Cycle κ) : Prop where
  ne_nil : c ≠ .nil
  nodup : c.Nodup
  chain : c.Chain r

section

variable {κ : Type} {r : κ → κ → Prop}

private theorem exists_before_of_isChain {a x : κ} {l : List κ} (h : (a :: l).IsChain r) (hx : x ∈ l) :
    ∃ y, r y x := by
  induction l generalizing a with
  | nil => cases hx
  | cons b rest ih =>
    obtain ⟨hab, hrest⟩ := List.isChain_cons_cons.mp h
    rcases List.mem_cons.mp hx with rfl | hx
    · exact ⟨a, hab⟩
    · exact ih hrest hx

theorem SimpleCycle.exists_before {c : Cycle κ} (h : SimpleCycle r c) {x : κ} (hx : x ∈ c) :
    ∃ y, r y x := by
  induction c using Cycle.induction_on with
  | nil => cases hx
  | cons a l _ =>
    have hchain := (Cycle.chain_coe_cons r a l).mp h.chain
    have hmem : x ∈ l ++ [a] := by simpa [or_comm] using hx
    exact exists_before_of_isChain hchain hmem

private theorem exists_simpleCycle_of_not_nodup {l : List κ} (h : l.IsChain r) (hl : ¬l.Nodup) :
    ∃ c, SimpleCycle r c := by
  induction l with
  | nil => exact absurd List.nodup_nil hl
  | cons x rest ih =>
    by_cases hrest : rest.Nodup
    · have hx : x ∈ rest := by
        by_contra hx
        exact hl (List.nodup_cons.mpr ⟨hx, hrest⟩)
      obtain ⟨a, b, rfl⟩ := List.mem_iff_append.mp hx
      have hround : (x :: (a ++ [x])).IsChain r := by
        apply h.prefix
        exact ⟨b, by simp⟩
      obtain ⟨ha, -, hdisjoint⟩ := List.nodup_append.mp hrest
      refine ⟨(x :: a : List κ), ⟨by simp, ?_, (Cycle.chain_coe_cons r x a).mpr hround⟩⟩
      rw [Cycle.nodup_coe_iff, List.nodup_cons]
      exact ⟨fun hxa => hdisjoint x hxa x List.mem_cons_self rfl, ha⟩
    · exact ih h.tail hrest

/-- There is a simple cycle exactly if something leads back to where it started. -/
theorem exists_simpleCycle_iff : (∃ c, SimpleCycle r c) ↔ ∃ k, Relation.TransGen r k k := by
  constructor
  · rintro ⟨c, h⟩
    induction c using Cycle.induction_on with
    | nil => exact absurd rfl h.ne_nil
    | cons a l _ =>
      have hchain := (Cycle.chain_coe_cons r a l).mp h.chain
      refine ⟨a, ?_⟩
      cases l with
      | nil => exact .single (List.isChain_cons_cons.mp hchain).1
      | cons b rest =>
        obtain ⟨hab, hrest⟩ := List.isChain_cons_cons.mp hchain
        have hlast : (b :: (rest ++ [a])).getLast (List.cons_ne_nil _ _) = a := by simp
        exact .head' hab (List.relationReflTransGen_of_exists_isChain_cons _ hrest hlast)
  · rintro ⟨k, h⟩
    obtain ⟨b, hkb, hback⟩ := Relation.TransGen.head'_iff.mp h
    obtain ⟨l, hchain, hlast⟩ := List.exists_isChain_cons_of_relationReflTransGen hback
    have hround : (k :: b :: l).IsChain r := List.isChain_cons_cons.mpr ⟨hkb, hchain⟩
    refine exists_simpleCycle_of_not_nodup hround fun hnodup => ?_
    have hk : k ∈ b :: l := hlast ▸ List.getLast_mem _
    exact (List.nodup_cons.mp hnodup).1 hk

end

namespace Digraph

variable {g : Digraph} {root : Nat}

def Leads (g : Digraph) (v w : Nat) : Prop := w ∈ g.next v

/-- One node can be reached from another through nodes of `left`. -/
def Through (g : Digraph) (left : List Nat) : Nat → Nat → Prop :=
  Relation.ReflTransGen fun v w => g.Leads v w ∧ w ∈ left

theorem mem_nearTo {v w : Nat} {left : List Nat} :
    w ∈ g.nearTo v left ↔ w ∈ left ∧ g.Leads v w := by
  simp [nearTo, Leads]

theorem mem_farFrom {v w : Nat} {left : List Nat} :
    w ∈ g.farFrom v left ↔ w ∈ left ∧ ¬g.Leads v w := by
  simp [farFrom, Leads]

theorem mem_strike {v w : Nat} {left : List Nat} : v ∈ strike w left ↔ v ∈ left ∧ v ≠ w := by
  simp [strike]

private theorem reached_cases {left rest : List Nat} {u v x : Nat} (hv : v ∈ u :: rest)
    (h : g.Through left v x) :
    x = u ∨ ∃ y ∈ g.nearTo u left ++ rest, g.Through (g.farFrom u left) y x := by
  induction h with
  | refl =>
    rcases List.mem_cons.mp hv with rfl | hv
    · exact .inl rfl
    · exact .inr ⟨v, List.mem_append_right _ hv, .refl⟩
  | @tail y z _ hstep ih =>
    obtain ⟨hyz, hz⟩ := hstep
    by_cases hnear : g.Leads u z
    · exact .inr ⟨z, List.mem_append_left _ (mem_nearTo.mpr ⟨hz, hnear⟩), .refl⟩
    · rcases ih with rfl | ⟨w, hw, hwy⟩
      · exact absurd hyz hnear
      · exact .inr ⟨w, hw, hwy.tail ⟨hyz, mem_farFrom.mpr ⟨hz, hnear⟩⟩⟩

theorem mem_spread {left frontier : List Nat} {v x : Nat} (hv : v ∈ frontier)
    (h : g.Through left v x) : x ∈ g.spread left frontier := by
  induction left, frontier using spread.induct g generalizing v with
  | case1 left => cases hv
  | case2 left u rest ih =>
    rw [spread]
    rcases reached_cases hv h with rfl | ⟨y, hy, hyx⟩
    · exact List.mem_cons_self
    · exact List.mem_cons_of_mem _ (ih hy hyx)

/-- All cycles that start with a path and go on to one of the candidates and from there through nodes
of `left` back to `root`. -/
def closures (g : Digraph) (root : Nat) (left path candidates : List Nat) : List (List Nat) :=
  match candidates with
  | [] => []
  | w :: rest =>
    (if w == root then [path.reverse]
      else if _h : w ∈ left then closures g root (strike w left) (w :: path) (g.next w)
      else []) ++ closures g root left path rest
termination_by (left.length, candidates.length)
decreasing_by
  · exact Prod.Lex.left _ _ (length_strike_lt _h)
  · exact Prod.Lex.right _ (by simp)

/-- The nodes lead from one of the candidates, all different and among `left`, to `root`. -/
structure Closes (g : Digraph) (root : Nat) (left candidates more : List Nat) : Prop where
  nodup : more.Nodup
  subset : ∀ v ∈ more, v ∈ left
  chain : (more ++ [root]).IsChain g.Leads
  first : ∃ w ∈ candidates, (more ++ [root]).head? = some w

section

variable {left candidates rest more : List Nat} {v w : Nat}

private theorem closes_nil : g.Closes root left candidates [] ↔ root ∈ candidates := by
  constructor
  · rintro ⟨-, -, -, w, hw, hfirst⟩
    cases hfirst
    exact hw
  · intro h
    exact ⟨List.nodup_nil, nofun, List.isChain_singleton root, root, h, rfl⟩

private theorem closes_cons : g.Closes root left candidates (w :: more) ↔
    w ∈ candidates ∧ w ∈ left ∧ g.Closes root (strike w left) (g.next w) more := by
  constructor
  · rintro ⟨hnodup, hsubset, hchain, w', hw, hfirst⟩
    cases hfirst
    obtain ⟨hnew, hnodup⟩ := List.nodup_cons.mp hnodup
    obtain ⟨hleft, hsubset⟩ := List.forall_mem_cons.mp hsubset
    obtain ⟨hnext, hchain⟩ := List.isChain_cons.mp hchain
    refine ⟨hw, hleft, hnodup, fun v hv => ?_, hchain, ?_⟩
    · exact mem_strike.mpr ⟨hsubset v hv, fun he => hnew (he ▸ hv)⟩
    · obtain ⟨v, hv⟩ := Option.isSome_iff_exists.mp (show (more ++ [root]).head?.isSome by simp)
      exact ⟨v, hnext v hv, hv⟩
  · rintro ⟨hw, hleft, hnodup, hsubset, hchain, v, hv, hfirst⟩
    refine ⟨?_, ?_, ?_, w, hw, rfl⟩
    · exact List.nodup_cons.mpr ⟨fun hmem => (mem_strike.mp (hsubset w hmem)).2 rfl, hnodup⟩
    · exact List.forall_mem_cons.mpr ⟨hleft, fun u hu => (mem_strike.mp (hsubset u hu)).1⟩
    · refine List.isChain_cons.mpr ⟨fun u hu => ?_, hchain⟩
      obtain rfl : v = u := Option.some.inj (hfirst.symm.trans hu)
      exact hv

private theorem closes_cons_candidates : g.Closes root left (w :: rest) more ↔
    g.Closes root left [w] more ∨ g.Closes root left rest more := by
  constructor
  · rintro ⟨hnodup, hsubset, hchain, v, hv, hfirst⟩
    rcases List.mem_cons.mp hv with rfl | hv
    · exact .inl ⟨hnodup, hsubset, hchain, v, List.mem_singleton_self v, hfirst⟩
    · exact .inr ⟨hnodup, hsubset, hchain, v, hv, hfirst⟩
  · rintro (⟨hnodup, hsubset, hchain, v, hv, hfirst⟩ | ⟨hnodup, hsubset, hchain, v, hv, hfirst⟩)
    · exact ⟨hnodup, hsubset, hchain, v, List.mem_singleton.mp hv ▸ List.mem_cons_self, hfirst⟩
    · exact ⟨hnodup, hsubset, hchain, v, List.mem_cons_of_mem _ hv, hfirst⟩

private theorem closes_singleton : g.Closes root left [w] more ↔
    (w = root ∧ more = []) ∨
      (w ∈ left ∧ ∃ tail, more = w :: tail ∧ g.Closes root (strike w left) (g.next w) tail) := by
  cases more with
  | nil =>
    rw [closes_nil, List.mem_singleton]
    simp [eq_comm]
  | cons v tail =>
    rw [closes_cons, List.mem_singleton]
    constructor
    · rintro ⟨rfl, hleft, h⟩
      exact .inr ⟨hleft, tail, rfl, h⟩
    · rintro (⟨-, hnil⟩ | ⟨hleft, _, hcons, h⟩)
      · cases hnil
      · cases hcons
        exact ⟨rfl, hleft, h⟩

private theorem Closes.through (h : g.Closes root left (g.next v) more) :
    ∃ x, g.Through left v x ∧ g.Leads x root := by
  induction more generalizing left v with
  | nil => exact ⟨v, .refl, closes_nil.mp h⟩
  | cons w rest ih =>
    obtain ⟨hw, hleft, hrest⟩ := closes_cons.mp h
    obtain ⟨x, hx, hback⟩ := ih hrest
    have hthrough : g.Through left w x := by
      refine Relation.ReflTransGen.mono (fun u v hs => ?_) w x hx
      exact ⟨hs.1, (mem_strike.mp hs.2).1⟩
    exact ⟨x, hthrough.head ⟨hw, hleft⟩, hback⟩

end

private theorem not_mem_strike {v : Nat} {left : List Nat} (h : root ∉ left) :
    root ∉ strike v left :=
  fun hmem => h (mem_strike.mp hmem).1

private theorem closures_cons (left path : List Nat) (w : Nat) (rest : List Nat) :
    g.closures root left path (w :: rest) =
      (if w = root then [path.reverse]
        else if w ∈ left then g.closures root (strike w left) (w :: path) (g.next w)
        else []) ++ g.closures root left path rest := by
  rw [closures]
  simp

theorem mem_closures {left path candidates c : List Nat} (hroot : root ∉ left) :
    c ∈ g.closures root left path candidates ↔
      ∃ more, g.Closes root left candidates more ∧ c = path.reverse ++ more := by
  induction left, path, candidates using closures.induct g with
  | case1 left path =>
    rw [closures]
    constructor
    · intro h
      cases h
    · rintro ⟨more, ⟨-, -, -, w, hw, -⟩, -⟩
      cases hw
  | case2 left path w rest ih₁ ih₂ =>
    rw [closures_cons, List.mem_append, ih₂ hroot]
    have hsplit (more : List Nat) : g.Closes root left (w :: rest) more ↔
        g.Closes root left [w] more ∨ g.Closes root left rest more := closes_cons_candidates
    simp only [hsplit, or_and_right, exists_or]
    refine or_congr_left ?_
    simp only [closes_singleton]
    split
    · next hw =>
      subst hw
      simp [hroot]
    · next hw =>
      split
      · next hleft =>
        rw [ih₁ hleft (not_mem_strike hroot)]
        constructor
        · rintro ⟨more, hmore, rfl⟩
          exact ⟨w :: more, .inr ⟨hleft, more, rfl, hmore⟩, by simp⟩
        · rintro ⟨_, ⟨he, -⟩ | ⟨-, more, rfl, hmore⟩, rfl⟩
          · exact absurd he hw
          · exact ⟨more, hmore, by simp⟩
      · next hleft =>
        simp [hw, hleft]

theorem nodup_closures {left path candidates : List Nat} (hnext : ∀ v, (g.next v).Nodup)
    (hcandidates : candidates.Nodup) (hroot : root ∉ left) :
    (g.closures root left path candidates).Nodup := by
  induction left, path, candidates using closures.induct g with
  | case1 left path =>
    rw [closures]
    exact List.nodup_nil
  | case2 left path w rest ih₁ ih₂ =>
    obtain ⟨hw, hrest⟩ := List.nodup_cons.mp hcandidates
    have hsplit : g.closures root left path (w :: rest) = _ := closures_cons left path w rest
    have hfirst : ∀ c ∈ g.closures root left path [w], c ∉ g.closures root left path rest := by
      intro c hc hin
      obtain ⟨more, hmore, rfl⟩ := (mem_closures hroot).mp hc
      obtain ⟨other, hother, he⟩ := (mem_closures hroot).mp hin
      obtain rfl := List.append_cancel_left he
      obtain ⟨u, hu, hhead⟩ := hmore.first
      obtain ⟨v, hv, hhead'⟩ := hother.first
      obtain rfl : u = v := Option.some.inj (hhead.symm.trans hhead')
      exact hw (List.mem_singleton.mp hu ▸ hv)
    have hsingle : g.closures root left path [w] = _ := closures_cons left path w []
    rw [closures, List.append_nil] at hsingle
    rw [hsplit, ← hsingle, List.nodup_append]
    refine ⟨?_, ih₂ hrest hroot, fun c hc d hd he => hfirst c hc (he ▸ hd)⟩
    rw [hsingle]
    split
    · exact List.nodup_singleton _
    · split
      · next hleft => exact ih₁ hleft (hnext w) (not_mem_strike hroot)
      · exact List.nodup_nil

private theorem closures_of_unreached {left path : List Nat} {v : Nat} (hroot : root ∉ left)
    (h : ¬g.reaches root left v = true) : g.closures root left path (g.next v) = [] := by
  rw [List.eq_nil_iff_forall_not_mem]
  intro c hc
  obtain ⟨more, hmore, -⟩ := (mem_closures hroot).mp hc
  obtain ⟨x, hx, hback⟩ := hmore.through
  refine h (List.any_eq_true.mpr ⟨x, mem_spread (List.mem_singleton_self v) hx, ?_⟩)
  exact List.contains_iff_mem.mpr hback

private theorem take_append_take {κ : Type} (budget : Nat) (xs ys : List κ) :
    xs.take budget ++ ys.take (budget - (xs.take budget).length) = (xs ++ ys).take budget := by
  rw [List.take_append, List.length_take]
  congr 2
  omega

theorem cyclesVia_eq {left path candidates : List Nat} (budget : Nat) (hroot : root ∉ left) :
    g.cyclesVia root budget left path candidates =
      (g.closures root left path candidates).take budget := by
  induction left, path, candidates using closures.induct g generalizing budget with
  | case1 left path => simp [cyclesVia, closures]
  | case2 left path w rest ih₁ ih₂ =>
    rw [cyclesVia]
    by_cases hbudget : budget = 0
    · simp [hbudget]
    · have hfound : (if w == root then [path.reverse] else if _h : w ∈ left then
          if g.reaches root (strike w left) w then
            g.cyclesVia root budget (strike w left) (w :: path) (g.next w) else [] else []) =
          (if w = root then [path.reverse] else if w ∈ left then
            g.closures root (strike w left) (w :: path) (g.next w) else []).take budget := by
        by_cases hw : w = root
        · simp [hw, Nat.one_le_iff_ne_zero.mpr hbudget]
        · by_cases hleft : w ∈ left
          · by_cases hreach : g.reaches root (strike w left) w = true
            · simp [hw, hleft, hreach, ih₁ hleft budget (not_mem_strike hroot)]
            · simp [hw, hleft, hreach, closures_of_unreached (not_mem_strike hroot) hreach]
          · simp [hw, hleft]
      rw [if_neg (by simpa using hbudget)]
      dsimp only
      rw [hfound, ih₂ _ hroot, take_append_take, closures_cons]

/-- The nodes after a node. -/
def later (g : Digraph) (root : Nat) : List Nat := g.nodes.filter (root < ·)

theorem mem_later {v : Nat} : v ∈ g.later root ↔ v < g.size ∧ root < v := by
  simp [later, nodes]

private theorem not_mem_later : root ∉ g.later root :=
  fun h => Nat.lt_irrefl root (mem_later.mp h).2

/-- All elementary cycles, each from its first node on. -/
def elementary (g : Digraph) : List (List Nat) :=
  g.nodes.flatMap fun root => g.closures root (g.later root) [root] (g.next root)

theorem cycles_eq (g : Digraph) (budget : Nat) : g.cycles budget = g.elementary.take budget := by
  suffices h : ∀ (roots : List Nat) (before : List (List Nat)),
      roots.foldl (fun found root => found ++ g.cyclesAt (budget - found.length) root)
          (before.take budget) =
        (before ++ roots.flatMap fun root =>
          g.closures root (g.later root) [root] (g.next root)).take budget by
    have hall := h g.nodes []
    rwa [List.take_nil, List.nil_append] at hall
  intro roots
  induction roots with
  | nil => simp
  | cons root rest ih =>
    intro before
    have hroot (n : Nat) : g.cyclesAt n root =
        (g.closures root (g.later root) [root] (g.next root)).take n := cyclesVia_eq n not_mem_later
    rw [List.foldl_cons, hroot, take_append_take, ih, List.flatMap_cons, List.append_assoc]

theorem mem_elementary {c : List Nat} : c ∈ g.elementary ↔ ∃ root more, c = root :: more ∧
    root < g.size ∧ g.Closes root (g.later root) (g.next root) more := by
  simp only [elementary, List.mem_flatMap, nodes, List.mem_range, mem_closures not_mem_later]
  constructor
  · rintro ⟨root, hroot, more, hmore, rfl⟩
    exact ⟨root, more, rfl, hroot, hmore⟩
  · rintro ⟨root, more, rfl, hroot, hmore⟩
    exact ⟨root, hroot, more, hmore, rfl⟩

private theorem nodup_elementary (hnext : ∀ v, (g.next v).Nodup) : g.elementary.Nodup := by
  refine List.nodup_flatMap.mpr ⟨fun root _ => nodup_closures hnext (hnext root) not_mem_later, ?_⟩
  refine List.nodup_range.imp fun {a b} hab => ?_
  intro c ha hb
  obtain ⟨more, -, rfl⟩ := (mem_closures not_mem_later).mp ha
  obtain ⟨other, -, he⟩ := (mem_closures not_mem_later).mp hb
  exact hab (List.cons.inj he).1

private theorem eq_of_isRotated {κ : Type} {a : κ} {xs ys : List κ} (hnodup : (a :: xs).Nodup)
    (h : (a :: xs) ~r (a :: ys)) : xs = ys := by
  obtain ⟨n, hn, hrotate⟩ := List.isRotated_iff_mod.mp h
  have hsame : (a :: xs).rotate n = a :: xs := by
    rcases hn.lt_or_eq with hlt | rfl
    · have hhead := List.head?_rotate hlt
      rw [hrotate, List.head?_cons, List.getElem?_eq_getElem hlt] at hhead
      have hfirst : (a :: xs)[n] = (a :: xs)[0] := (Option.some.inj hhead).symm
      obtain rfl := (List.Nodup.getElem_inj_iff hnodup).mp hfirst
      exact List.rotate_zero _
    · exact List.rotate_length _
  exact (List.cons.inj (hsame.symm.trans hrotate)).2

private theorem root_le_of_mem {more : List Nat} {v : Nat}
    (h : g.Closes root (g.later root) (g.next root) more) (hv : v ∈ root :: more) : root ≤ v := by
  rcases List.mem_cons.mp hv with rfl | hv
  · exact Nat.le_refl _
  · exact (mem_later.mp (h.subset v hv)).2.le

private theorem nodup_round {more : List Nat}
    (h : g.Closes root (g.later root) (g.next root) more) : (root :: more).Nodup :=
  List.nodup_cons.mpr ⟨fun hmem => not_mem_later (h.subset root hmem), h.nodup⟩

/-- No two of the elementary cycles go round the same nodes in the same order. -/
theorem nodup_map_elementary (hnext : ∀ v, (g.next v).Nodup) :
    (g.elementary.map fun c : List Nat => (c : Cycle Nat)).Nodup := by
  refine List.Nodup.map_on ?_ (nodup_elementary hnext)
  intro c hc d hd he
  obtain ⟨root, more, rfl, -, hmore⟩ := mem_elementary.mp hc
  obtain ⟨root', other, rfl, -, hother⟩ := mem_elementary.mp hd
  have hrotated : (root :: more) ~r (root' :: other) := Cycle.coe_eq_coe.mp he
  have hle := root_le_of_mem hmore (hrotated.mem_iff.mpr List.mem_cons_self)
  have hle' := root_le_of_mem hother (hrotated.mem_iff.mp List.mem_cons_self)
  obtain rfl := Nat.le_antisymm hle hle'
  rw [eq_of_isRotated (nodup_round hmore) hrotated]

private theorem exists_least_first {c : Cycle Nat} (h : c ≠ .nil) :
    ∃ root more, c = ((root :: more : List Nat) : Cycle Nat) ∧ ∀ v ∈ c, root ≤ v := by
  induction c using Cycle.induction_on with
  | nil => exact absurd rfl h
  | cons a l _ =>
    obtain ⟨root, hroot, hleast⟩ := Finset.exists_min_image (a :: l).toFinset id ⟨a, by simp⟩
    obtain ⟨before, after, hl⟩ := List.mem_iff_append.mp (List.mem_toFinset.mp hroot)
    refine ⟨root, after ++ before, ?_, fun v hv => hleast v (List.mem_toFinset.mpr hv)⟩
    rw [hl]
    exact Cycle.coe_eq_coe.mpr List.isRotated_append

/-- The elementary cycles are all simple cycles. -/
theorem mem_map_elementary (hends : ∀ v w, g.Leads v w → w < g.size) (c : Cycle Nat) :
    c ∈ g.elementary.map (fun c : List Nat => (c : Cycle Nat)) ↔ SimpleCycle g.Leads c := by
  rw [List.mem_map]
  constructor
  · rintro ⟨_, hc, rfl⟩
    obtain ⟨root, more, rfl, -, hmore⟩ := mem_elementary.mp hc
    refine ⟨by simp, Cycle.nodup_coe_iff.mpr (nodup_round hmore), ?_⟩
    rw [Cycle.chain_coe_cons, List.isChain_cons]
    refine ⟨fun v hv => ?_, hmore.chain⟩
    obtain ⟨w, hw, hfirst⟩ := hmore.first
    obtain rfl : v = w := Option.some.inj (hv.symm.trans hfirst)
    exact hw
  · intro h
    have hsize : ∀ v ∈ c, v < g.size := by
      intro v hv
      obtain ⟨u, hu⟩ := h.exists_before hv
      exact hends u v hu
    obtain ⟨root, more, rfl, hleast⟩ : ∃ root more, c = ((root :: more : List Nat) : Cycle Nat) ∧
        ∀ v ∈ c, root ≤ v := exists_least_first h.ne_nil
    have hnodup := Cycle.nodup_coe_iff.mp h.nodup
    obtain ⟨hnew, hmore⟩ := List.nodup_cons.mp hnodup
    obtain ⟨hfirst, hchain⟩ := List.isChain_cons.mp ((Cycle.chain_coe_cons _ _ _).mp h.chain)
    refine ⟨root :: more, mem_elementary.mpr ⟨root, more, rfl, hsize root (by simp), ?_⟩, rfl⟩
    refine ⟨hmore, fun v hv => mem_later.mpr ⟨hsize v (by simp [hv]), ?_⟩, hchain, ?_⟩
    · refine (hleast v (by simp [hv])).lt_of_ne fun he => hnew (he ▸ hv)
    · obtain ⟨v, hv⟩ := Option.isSome_iff_exists.mp (show (more ++ [root]).head?.isSome by simp)
      exact ⟨v, hfirst v hv, hv⟩

end Digraph

end BusinessAtlas
