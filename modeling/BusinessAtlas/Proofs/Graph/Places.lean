import BusinessAtlas.Graph.Layout
import BusinessAtlas.Proofs.Json.Printer
import BusinessAtlas.Proofs.Number.Bounded

/-!
# Finite places

A layout whose numbers are bounded puts nodes into finite places. The settings of a layout may be any
values, so the bounds are those of all numbers in a value, and the arithmetic of coordinates raises
them a little.
-/

namespace BusinessAtlas

namespace Number

variable {j k : Nat} {a b : Number}

private theorem yields_inRange (a : Number) : Yields (inRange a) fun n => n = a := by
  unfold inRange
  split
  · exact yields_error _
  · exact yields_ok rfl

theorem Below.plus? (hk : k ≤ 960) (ha : Below k a) (hb : Below k b) :
    Yields (a.plus? b) (Below (k + 6)) := by
  unfold Number.plus?
  split
  · exact yields_ok (ha.add hk hb)
  · refine Yields.bind (yields_inRange a) fun m hm => ?_
    refine Yields.bind (yields_inRange b) fun n hn => yields_ok ?_
    rw [hm, hn]
    exact ha.add hk hb

theorem Below.split? {n : Nat} (hk : k ≤ 960) (ha : Below k a) (hn : n ≠ 0) (hn' : n < 2 ^ 60) :
    Yields (a.split? n) (Below (k + 4)) := by
  have hpart : Below (k + 4) (a.div (.int n)) := ha.div hk hn hn'
  unfold Number.split?
  split
  · dsimp only
    split
    · exact yields_error _
    · exact yields_ok hpart
  · exact yields_ok hpart

end Number

namespace Json

/-- All numbers in the value are below a power of two. -/
def Bounded (k : Nat) (v : Json) : Prop := ∀ n, Holds n v → Number.Below k n

variable {j k n : Nat} {v w : Json} {items : List Json}

@[simp] theorem bounded_text (s : String) : Bounded k (.text s) := nofun

@[simp] theorem bounded_number {x : Number} : Bounded k (.number x) ↔ x.Below k :=
  ⟨fun h => h x .self, fun h _ => fun | .self => h⟩

@[simp] theorem bounded_list : Bounded k (.list items) ↔ ∀ v ∈ items, v.Bounded k :=
  ⟨fun h _ hv n hn => h n (.item hv hn), fun h n => fun | .item hv hn => h _ hv n hn⟩

theorem Bounded.mono (h : v.Bounded j) (hjk : j ≤ k) : v.Bounded k :=
  fun n hn => (h n hn).mono hjk

theorem Bounded.finite (h : v.Bounded k) : v.Finite := fun n hn => (h n hn).finite

private theorem Bounded.asNumber? (hk : 0 < k) (h : v.Bounded k) {x : Number}
    (hx : v.asNumber? = some x) : x.Below k := by
  cases v with
  | number y =>
    cases hx
    exact bounded_number.mp h
  | bool b =>
    have hone : 1 < 2 ^ k := Nat.one_lt_two_pow (by omega)
    cases b <;> cases hx
    · exact Number.below_nat (by omega : 0 < 2 ^ k)
    · exact Number.below_nat hone
  | _ => cases hx

theorem Bounded.plus (hk : 0 < k) (hk' : k ≤ 960) (hv : v.Bounded k) (hw : w.Bounded k) :
    Yields (v.plus w) (Bounded (k + 6)) := by
  unfold Json.plus
  split
  · exact yields_ok (bounded_text _)
  · refine yields_ok (Bounded.mono ?_ (Nat.le_add_right k 6))
    exact bounded_list.mpr (List.forall_mem_append.mpr ⟨bounded_list.mp hv, bounded_list.mp hw⟩)
  · split
    · next x y hx hy =>
      have hsum := (hv.asNumber? hk hx).plus? hk' (hw.asNumber? hk hy)
      exact Yields.bind hsum fun _ hs => yields_ok (bounded_number.mpr hs)
    · exact yields_error _

theorem Bounded.times (hk : 0 < k) (hjk : j + k ≤ 960) (hn : n < 2 ^ j) (hv : v.Bounded k) :
    Yields (v.times n) (Bounded (j + k + 9)) := by
  unfold Json.times
  split
  · exact yields_ok (bounded_text _)
  · refine yields_ok (Bounded.mono (bounded_list.mpr fun w hw => ?_) (by omega : k ≤ j + k + 9))
    obtain ⟨ws, hws, hw⟩ := List.mem_flatten.mp hw
    rw [List.eq_of_mem_replicate hws] at hw
    exact bounded_list.mp hv w hw
  · split
    · next x hx =>
      have hproduct := (Number.below_nat hn).mul hjk (hv.asNumber? hk hx)
      exact yields_ok (bounded_number.mpr hproduct)
    · exact yields_error _

theorem Bounded.split (hk : 0 < k) (hk' : k ≤ 960) (hn : n ≠ 0) (hn' : n < 2 ^ 60)
    (hv : v.Bounded k) : Yields (v.split n) (Bounded (k + 4)) := by
  unfold Json.split
  split
  · next x hx =>
    exact Yields.bind ((hv.asNumber? hk hx).split? hk' hn hn') fun _ hs =>
      yields_ok (bounded_number.mpr hs)
  · exact yields_error _

end Json

/-- No number of the layout is as large as `2 ^ k`. -/
structure Layout.Bounded (k : Nat) (l : Layout Json) : Prop where
  totalWidth : l.totalWidth.Bounded k
  levelGap : l.levelGap.Bounded k
  leftMargin : l.leftMargin.Bounded k
  topMargin : l.topMargin.Bounded k

/-- The coordinates of the place are finite. -/
structure Position.Finite (p : Position Json) : Prop where
  x : p.x.Finite
  y : p.y.Finite

namespace Layout

variable {α : Type} {l : Layout Json} {level : Nat}

private theorem Bounded.height (h : l.Bounded 800) (hlevel : level < NodeKind.levels) :
    Yields (l.height level) Json.Finite := by
  have hgap := h.levelGap.times (j := 3) (by decide) (by decide) (Nat.lt_succ_of_lt hlevel)
  refine Yields.bind hgap fun gap hgap => ?_
  have hy := (h.topMargin.mono (by decide)).plus (by decide) (by decide) hgap
  exact hy.imp fun _ hy => hy.finite

private theorem Bounded.place (h : l.Bounded 800) {spacing y : Json} (hspacing : spacing.Bounded 804)
    (hy : y.Finite) {index : Nat} (hindex : index < 2 ^ 60) :
    Yields (l.place spacing y index) Position.Finite := by
  have hoffset := hspacing.times (by decide) (by decide) hindex
  refine Yields.bind hoffset fun offset hoffset => ?_
  have hx := (h.leftMargin.mono (by decide)).plus (by decide) (by decide) hoffset
  exact Yields.bind hx fun _ hx => yields_ok ⟨hx.finite, hy⟩

private theorem Bounded.placeRow (h : l.Bounded 800) {P : Node α Json → Prop}
    (hP : ∀ n, P n → ∀ p : Position Json, p.Finite → P { n with position := some p })
    {spacing y : Json} (hspacing : spacing.Bounded 804) (hy : y.Finite) {index : Nat}
    {ns : List (Node α Json)} (hindex : index + ns.length ≤ 2 ^ 60) (hns : ∀ n ∈ ns, P n) :
    Yields (l.placeRow level spacing y index ns) fun ns' => ∀ n ∈ ns', P n := by
  induction ns generalizing index with
  | nil => exact yields_ok (List.forall_mem_nil P)
  | cons n rest ih =>
    obtain ⟨hn, hrest⟩ := List.forall_mem_cons.mp hns
    rw [List.length_cons] at hindex
    unfold Layout.placeRow
    split
    · refine Yields.bind (h.place hspacing hy (by omega)) fun p hp => ?_
      refine Yields.bind (ih (by omega) hrest) fun placed hplaced => yields_ok ?_
      exact List.forall_mem_cons.mpr ⟨hP n hn p hp, hplaced⟩
    · refine Yields.bind (ih (by omega) hrest) fun placed hplaced => yields_ok ?_
      exact List.forall_mem_cons.mpr ⟨hn, hplaced⟩

/-- Placing a level keeps of the nodes what finite places do not change. -/
theorem Bounded.placeLevel (h : l.Bounded 800) {P : Node α Json → Prop}
    (hP : ∀ n, P n → ∀ p : Position Json, p.Finite → P { n with position := some p })
    (hlevel : level < NodeKind.levels) {ns : List (Node α Json)} (hlength : ns.length < 2 ^ 60)
    (hns : ∀ n ∈ ns, P n) : Yields (l.placeLevel ns level) fun ns' => ∀ n ∈ ns', P n := by
  unfold Layout.placeLevel
  split
  · exact yields_ok hns
  · next row hrow =>
    have hcount : row + 1 ≤ ns.length := hrow.symm.trans_le List.countP_le_length
    refine Yields.bind (h.height hlevel) fun y hy => ?_
    have hspacing := h.totalWidth.split (by decide) (by decide) (Nat.succ_ne_zero row)
      (by omega : row + 1 < 2 ^ 60)
    refine Yields.bind hspacing fun spacing hspacing => ?_
    exact h.placeRow hP hspacing hy (by omega) hns

end Layout

end BusinessAtlas
