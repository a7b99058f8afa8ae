import BusinessAtlas.Config.Settings
import BusinessAtlas.Proofs.Facts.Shape
import BusinessAtlas.Proofs.Graph.Passes
import Mathlib.Algebra.Order.Field.Rat
import Mathlib.Data.List.Nodup
import Mathlib.Tactic.Linarith
import Mathlib.Tactic.Positivity
import Mathlib.Tactic.Ring

/-!
# Rows of nodes

The nodes of one level stand in a row, from the left margin on and evenly spread over the width. With
exact coordinates the place of a node is told by its level, by how many nodes its row has and by how
many come before it there. Settings of the right shape give a width and a gap between levels above
zero, so the rows lie below each other and the nodes of a row beside each other: no two nodes have one
place.
-/

namespace BusinessAtlas

variable {α β : Type}

section

/-- The value is a finite number, and this is its exact value. -/
def Json.Reads (v : Json) (q : Rat) : Prop := ∃ n, v = .number n ∧ n.rational? = some q

theorem Number.less_zero {n : Number} {q : Rat} (h : n.rational? = some q) :
    n.less (.int 0) = true ↔ q < 0 := by
  cases n with
  | int a =>
    cases h
    simp [Number.less]
  | float x =>
    have hzero : (Number.int 0).rational? = some 0 := rfl
    simp [Number.less, h, hzero]

theorem Number.same_zero {n : Number} {q : Rat} (h : n.rational? = some q) :
    n.same (.int 0) = true ↔ q = 0 := by
  cases n with
  | int a =>
    cases h
    simp [Number.same]
  | float x =>
    have hzero : (Number.int 0).rational? = some 0 := rfl
    simp [Number.same, h, hzero]

theorem Json.Conforms.pos {v : Json} {q : Rat}
    (h : v.Conforms [.kinds [.number], .above (.int 0)]) (hreads : v.Reads q) : 0 < q := by
  obtain ⟨n, rfl, hq⟩ := hreads
  obtain ⟨path, hnone⟩ := h.tail.head
  have hfails : ¬(n.less (.int 0) || n.same (.int 0)) = true := by
    intro hbad
    rw [Check.violations, if_pos hbad] at hnone
    cases hnone
  rw [Bool.or_eq_true, Number.less_zero hq, Number.same_zero hq, not_or] at hfails
  exact lt_of_le_of_ne (not_lt.mp hfails.1) (Ne.symm hfails.2)

theorem Json.Conforms.nonneg {v : Json} {q : Rat}
    (h : v.Conforms [.kinds [.number], .atLeast (.int 0)]) (hreads : v.Reads q) : 0 ≤ q := by
  obtain ⟨n, rfl, hq⟩ := hreads
  obtain ⟨path, hnone⟩ := h.tail.head
  have hfails : ¬n.less (.int 0) = true := by
    intro hbad
    rw [Check.violations, if_pos hbad] at hnone
    cases hnone
  exact not_lt.mp (mt (Number.less_zero hq).mpr hfails)

end

namespace Layout

/-- The settings that a layout is given by. -/
def toSettings (l : Layout Json) : Json :=
  .record [("layout", .record [("total_width", l.totalWidth), ("level_gap", l.levelGap),
    ("left_margin", l.leftMargin), ("top_margin", l.topMargin)])]

/-- The values of a layout are finite numbers, and these are their exact values. -/
structure Reads (l : Layout Json) (exact : Layout Rat) : Prop where
  totalWidth : l.totalWidth.Reads exact.totalWidth
  levelGap : l.levelGap.Reads exact.levelGap
  leftMargin : l.leftMargin.Reads exact.leftMargin
  topMargin : l.topMargin.Reads exact.topMargin

/-- There is room for nodes beside and below each other. -/
structure Roomy (l : Layout Rat) : Prop where
  totalWidth : 0 < l.totalWidth
  levelGap : 0 < l.levelGap
  leftMargin : 0 ≤ l.leftMargin
  topMargin : 0 ≤ l.topMargin

theorem roomy_of_accepts {l : Layout Json} {exact : Layout Rat}
    (h : Config.schema.accepts l.toSettings = true) (hreads : l.Reads exact) : exact.Roomy := by
  have hsections := (Json.conforms_of_accepts h).tail.field
  simp only [List.forall_mem_cons] at hsections
  have hfields := (hsections.2.1 _ rfl).tail.field
  simp only [List.forall_mem_cons] at hfields
  obtain ⟨hwidth, hgap, hleft, htop, -⟩ := hfields
  exact ⟨(hwidth _ rfl).pos hreads.totalWidth, (hgap _ rfl).pos hreads.levelGap,
    (hleft _ rfl).nonneg hreads.leftMargin, (htop _ rfl).nonneg hreads.topMargin⟩

/-- The place of the node at a position in a row of some length on a level. -/
def spot (l : Layout Rat) (level row i : Nat) : Position Rat :=
  ⟨l.leftMargin + i * (l.totalWidth / row), l.topMargin + level * l.levelGap⟩

variable {l : Layout Rat} {level row i j : Nat}

theorem Roomy.step_pos (h : l.Roomy) (hrow : 0 < row) : 0 < l.totalWidth / row :=
  div_pos h.totalWidth (Nat.cast_pos.mpr hrow)

theorem Roomy.spot_x_lt (h : l.Roomy) (hi : i < j) (hj : j < row) :
    (l.spot level row i).x < (l.spot level row j).x := by
  have hstep := h.step_pos (Nat.zero_lt_of_lt hj)
  have hindex : (i : Rat) < j := Nat.cast_lt.mpr hi
  have hless := mul_lt_mul_of_pos_right hindex hstep
  change l.leftMargin + _ < l.leftMargin + _
  linarith

theorem spot_x_succ (l : Layout Rat) (level row i : Nat) :
    (l.spot level row (i + 1)).x = (l.spot level row i).x + l.totalWidth / row := by
  change l.leftMargin + ((i + 1 : Nat) : Rat) * _ = l.leftMargin + _ + _
  push_cast
  ring

theorem Roomy.spot_x_bounds (h : l.Roomy) (hi : i < row) :
    l.leftMargin ≤ (l.spot level row i).x ∧
      (l.spot level row i).x < l.leftMargin + l.totalWidth := by
  have hrow : (0 : Rat) < row := Nat.cast_pos.mpr (Nat.zero_lt_of_lt hi)
  have hstep := h.step_pos (Nat.zero_lt_of_lt hi)
  have hindex : (i : Rat) < row := Nat.cast_lt.mpr hi
  have hless := mul_lt_mul_of_pos_right hindex hstep
  rw [mul_div_cancel₀ _ hrow.ne'] at hless
  have hpos : 0 ≤ (i : Rat) * (l.totalWidth / row) := by positivity
  change l.leftMargin ≤ l.leftMargin + _ ∧ l.leftMargin + _ < _
  exact ⟨by linarith, by linarith⟩

theorem Roomy.spot_y_lt (h : l.Roomy) {upper lower : Nat} (hlevel : upper < lower) (row' j : Nat) :
    (l.spot upper row i).y < (l.spot lower row' j).y := by
  have hindex : (upper : Rat) < lower := Nat.cast_lt.mpr hlevel
  have hless := mul_lt_mul_of_pos_right hindex h.levelGap
  change l.topMargin + _ < l.topMargin + _
  linarith

end Layout

/-- The settings with the values of their layout read exactly. -/
def GraphSettings.exactly (settings : GraphSettings Json) (layout : Layout Rat) :
    GraphSettings Rat :=
  ⟨settings.title, settings.description, layout, settings.collapseThreshold⟩

private theorem nodup_map_of_parts {ι κ : Type} {f : ι → κ} {xs : List ι} (part : ι → Nat)
    (hparts : ∀ k, ((xs.filter (part · == k)).map f).Nodup)
    (happart : ∀ x ∈ xs, ∀ y ∈ xs, f x = f y → part x = part y) : (xs.map f).Nodup := by
  induction xs with
  | nil => exact List.nodup_nil
  | cons x rest ih =>
    rw [List.map_cons, List.nodup_cons]
    constructor
    · intro hmem
      obtain ⟨y, hy, heq⟩ := List.mem_map.mp hmem
      have hpart := happart y (List.mem_cons_of_mem x hy) x List.mem_cons_self heq
      have hnodup := hparts (part x)
      rw [List.filter_cons_of_pos (by simp), List.map_cons, List.nodup_cons] at hnodup
      exact hnodup.1 (List.mem_map.mpr ⟨y, List.mem_filter.mpr ⟨hy, beq_iff_eq.mpr hpart⟩, heq⟩)
    · refine ih (fun k => ?_) fun y hy z hz =>
        happart y (List.mem_cons_of_mem x hy) z (List.mem_cons_of_mem x hz)
      exact (((List.sublist_cons_self x rest).filter _).map f).nodup (hparts k)

/-- The nodes of a level, in their order. -/
def nodesOn (level : Nat) (ns : List (Node α β)) : List (Node α β) :=
  ns.filter (·.kind.level == level)

theorem nodesOn_cons_of_eq {level : Nat} {n : Node α β} (h : n.kind.level = level)
    (ns : List (Node α β)) : nodesOn level (n :: ns) = n :: nodesOn level ns :=
  List.filter_cons_of_pos (by simpa using h)

theorem nodesOn_cons_of_ne {level : Nat} {n : Node α β} (h : n.kind.level ≠ level)
    (ns : List (Node α β)) : nodesOn level (n :: ns) = nodesOn level ns :=
  List.filter_cons_of_neg (by simpa using h)

namespace Layout

variable {l : Layout Rat} {level : Nat} {ns ns' : List (Node α Rat)}

/-- Some nodes stand in the places of a row. -/
def Fills (l : Layout Rat) (level : Nat) (row : List (Node α Rat)) : Prop :=
  row.map (·.position) = (List.range row.length).map fun i => some (l.spot level row.length i)

theorem Fills.position_eq {row : List (Node α Rat)} (h : l.Fills level row) {i : Nat}
    {n : Node α Rat} (hn : row[i]? = some n) :
    i < row.length ∧ n.position = some (l.spot level row.length i) := by
  have hi : i < row.length := (List.getElem?_eq_some_iff.mp hn).1
  have hat := congrArg (·[i]?) h
  simp only [List.getElem?_map, hn, Option.map_some, List.getElem?_range hi] at hat
  exact ⟨hi, Option.some.inj hat⟩

theorem Fills.nodup {row : List (Node α Rat)} (h : l.Fills level row) (hl : l.Roomy) :
    (row.map (·.position)).Nodup := by
  rw [h]
  refine List.Nodup.map_on (fun i hi j hj hspot => ?_) List.nodup_range
  have hx := congrArg Position.x (Option.some.inj hspot)
  rcases Nat.lt_trichotomy i j with hlt | heq | hlt
  · exact absurd hx (hl.spot_x_lt hlt (List.mem_range.mp hj)).ne
  · exact heq
  · exact absurd hx (hl.spot_x_lt hlt (List.mem_range.mp hi)).ne'

private theorem nodesOn_placeRow {spacing y : Rat} {index : Nat}
    (h : l.placeRow level spacing y index ns = .ok ns') :
    (nodesOn level ns').map (·.position) = (List.range (nodesOn level ns).length).map
      (fun i => some ⟨l.leftMargin + ((index + i : Nat) : Rat) * spacing, y⟩) ∧
    ∀ other ≠ level, nodesOn other ns' = nodesOn other ns := by
  induction ns generalizing index ns' with
  | nil =>
    cases h
    exact ⟨rfl, fun _ _ => rfl⟩
  | cons n rest ih =>
    by_cases hlevel : n.kind.level = level
    · rw [placeRow, if_pos (beq_iff_eq.mpr hlevel)] at h
      obtain ⟨position, hposition, h⟩ := bind_eq_ok.mp h
      obtain ⟨rest', hrest, h⟩ := bind_eq_ok.mp h
      cases hposition
      cases h
      obtain ⟨hplaced, hkept⟩ := ih hrest
      constructor
      · rw [nodesOn_cons_of_eq hlevel, nodesOn_cons_of_eq (by exact hlevel), List.map_cons, hplaced,
          List.length_cons, List.range_succ_eq_map, List.map_cons, List.map_map]
        simp only [Nat.add_assoc, Nat.add_comm 1]
        rfl
      · intro other hne
        have hother : n.kind.level ≠ other := hlevel ▸ hne.symm
        rw [nodesOn_cons_of_ne hother, nodesOn_cons_of_ne (by exact hother), hkept other hne]
    · rw [placeRow, if_neg (by simpa using hlevel)] at h
      obtain ⟨rest', hrest, h⟩ := bind_eq_ok.mp h
      cases h
      obtain ⟨hplaced, hkept⟩ := ih hrest
      constructor
      · rw [nodesOn_cons_of_ne hlevel, nodesOn_cons_of_ne hlevel, hplaced]
      · intro other hne
        by_cases hother : n.kind.level = other
        · rw [nodesOn_cons_of_eq hother, nodesOn_cons_of_eq hother, hkept other hne]
        · rw [nodesOn_cons_of_ne hother, nodesOn_cons_of_ne hother, hkept other hne]

theorem fills_placeLevel (h : l.placeLevel ns level = .ok ns') :
    l.Fills level (nodesOn level ns') ∧ ∀ other ≠ level, nodesOn other ns' = nodesOn other ns := by
  have hcount : ns.countP (·.kind.level == level) = (nodesOn level ns).length :=
    List.countP_eq_length_filter
  unfold placeLevel at h
  split at h
  · next hnone =>
    cases h
    rw [hcount, List.length_eq_zero_iff] at hnone
    rw [hnone]
    exact ⟨rfl, fun _ _ => rfl⟩
  · next row hsome =>
    obtain ⟨y, hy, h⟩ := bind_eq_ok.mp h
    obtain ⟨spacing, hspacing, h⟩ := bind_eq_ok.mp h
    cases hy
    cases hspacing
    obtain ⟨hplaced, hkept⟩ := nodesOn_placeRow h
    have hlength := congrArg List.length hplaced
    rw [List.length_map, List.length_map, List.length_range] at hlength
    refine ⟨?_, hkept⟩
    rw [Fills, hplaced, hlength, ← hcount, hsome]
    simp only [Nat.zero_add]
    rfl

end Layout

namespace Graph

/-- The nodes of a level. -/
def row (g : Graph α β) (level : Nat) : List (Node α β) := nodesOn level g.arena.nodes

theorem mem_row {g : Graph α β} {level : Nat} {n : Node α β} :
    n ∈ g.row level ↔ n ∈ g.arena.nodes ∧ n.kind.level = level := by
  rw [row, nodesOn, List.mem_filter, beq_iff_eq]

variable {l : Layout Rat} {g g' : Graph α Rat}

theorem fills_place (h : place l g = .done g') (level : Nat) : l.Fills level (g'.row level) := by
  have hfilled : ∀ level ∈ List.range NodeKind.levels, l.Fills level (g'.row level) := by
    refine Progress.each_eq_done
      (P := fun before (t : Graph α Rat) => ∀ level ∈ before, l.Fills level (t.row level)) h nofun ?_
    intro before placed t t' ht hs
    obtain ⟨ns, hns, hs⟩ := bind_eq_ok.mp (Progress.step_eq_done.mp hs)
    cases hs
    obtain ⟨hfills, hkept⟩ := Layout.fills_placeLevel hns
    intro level hlevel
    by_cases heq : level = placed
    · subst heq
      exact hfills
    · have hbefore : level ∈ before := by simpa [heq] using hlevel
      have hsame : nodesOn level ns = t.row level := hkept level heq
      change l.Fills level (nodesOn level ns)
      rw [hsame]
      exact ht level hbefore
  by_cases hlevel : level < NodeKind.levels
  · exact hfilled level (List.mem_range.mpr hlevel)
  · have hempty : g'.row level = [] := by
      refine List.filter_eq_nil_iff.mpr fun n _ hn => hlevel ?_
      rw [← eq_of_beq hn]
      exact n.kind.level_lt
    rw [hempty]
    rfl

/-- The nodes of a graph stand in rows, one for each level, from the left margin on and evenly over the
width, and no two of them in one place. -/
structure Arranged (l : Layout Rat) (g : Graph α Rat) : Prop where
  placed : ∀ n ∈ g.arena.nodes, n.position.isSome = true
  levels : ∀ n ∈ g.arena.nodes, ∀ m ∈ g.arena.nodes, ∀ p q,
    n.position = some p → m.position = some q →
      (p.y = q.y ↔ n.kind.level = m.kind.level) ∧ (n.kind.level < m.kind.level → p.y < q.y)
  apart : (g.arena.nodes.map (·.position)).Nodup
  starts : ∀ level n, (g.row level)[0]? = some n → n.position.map (·.x) = some l.leftMargin
  grows : ∀ level i n m, (g.row level)[i]? = some n → (g.row level)[i + 1]? = some m →
    ∃ p q, n.position = some p ∧ m.position = some q ∧ p.x < q.x ∧
      q.x = p.x + l.totalWidth / (g.row level).length
  ends : ∀ n ∈ g.arena.nodes, ∀ p, n.position = some p →
    l.leftMargin ≤ p.x ∧ p.x < l.leftMargin + l.totalWidth

private theorem exists_spot (h : ∀ level, l.Fills level (g.row level)) {n : Node α Rat}
    (hn : n ∈ g.arena.nodes) : ∃ i < (g.row n.kind.level).length,
      n.position = some (l.spot n.kind.level (g.row n.kind.level).length i) := by
  obtain ⟨i, hi⟩ := List.mem_iff_getElem?.mp (mem_row.mpr ⟨hn, rfl⟩)
  exact ⟨i, (h n.kind.level).position_eq hi⟩

private theorem y_lt_of_level_lt (hl : l.Roomy) (h : ∀ level, l.Fills level (g.row level))
    {n m : Node α Rat} (hn : n ∈ g.arena.nodes) (hm : m ∈ g.arena.nodes) {p q : Position Rat}
    (hp : n.position = some p) (hq : m.position = some q) (hlevel : n.kind.level < m.kind.level) :
    p.y < q.y := by
  obtain ⟨i, -, hi⟩ := exists_spot h hn
  obtain ⟨j, -, hj⟩ := exists_spot h hm
  rw [Option.some.inj (hp.symm.trans hi), Option.some.inj (hq.symm.trans hj)]
  exact hl.spot_y_lt hlevel _ j

private theorem y_eq_iff_level_eq (hl : l.Roomy) (h : ∀ level, l.Fills level (g.row level))
    {n m : Node α Rat} (hn : n ∈ g.arena.nodes) (hm : m ∈ g.arena.nodes) {p q : Position Rat}
    (hp : n.position = some p) (hq : m.position = some q) :
    p.y = q.y ↔ n.kind.level = m.kind.level := by
  constructor
  · intro hy
    by_contra hne
    rcases Nat.lt_or_gt_of_ne hne with hlt | hlt
    · exact (y_lt_of_level_lt hl h hn hm hp hq hlt).ne hy
    · exact (y_lt_of_level_lt hl h hm hn hq hp hlt).ne' hy
  · intro hlevel
    obtain ⟨i, -, hi⟩ := exists_spot h hn
    obtain ⟨j, -, hj⟩ := exists_spot h hm
    rw [Option.some.inj (hp.symm.trans hi), Option.some.inj (hq.symm.trans hj), hlevel]
    rfl

theorem arranged_of_fills (hl : l.Roomy) (h : ∀ level, l.Fills level (g.row level)) :
    g.Arranged l := by
  constructor
  · intro n hn
    obtain ⟨i, -, hi⟩ := exists_spot h hn
    rw [hi]
    rfl
  · exact fun n hn m hm p q hp hq =>
      ⟨y_eq_iff_level_eq hl h hn hm hp hq, y_lt_of_level_lt hl h hn hm hp hq⟩
  · refine nodup_map_of_parts (fun n => n.kind.level) (fun level => (h level).nodup hl) ?_
    intro n hn m hm hposition
    obtain ⟨i, -, hi⟩ := exists_spot h hn
    exact (y_eq_iff_level_eq hl h hn hm hi (hposition ▸ hi)).mp rfl
  · intro level n hn
    rw [((h level).position_eq hn).2]
    simp [Layout.spot]
  · intro level i n m hn hm
    obtain ⟨-, hi⟩ := (h level).position_eq hn
    obtain ⟨hlt, hj⟩ := (h level).position_eq hm
    exact ⟨_, _, hi, hj, hl.spot_x_lt (Nat.lt_succ_self i) hlt, l.spot_x_succ level _ i⟩
  · intro n hn p hp
    obtain ⟨i, hlt, hi⟩ := exists_spot h hn
    rw [Option.some.inj (hp.symm.trans hi)]
    exact hl.spot_x_bounds hlt

/-- With settings of the right shape, read exactly, every graph that is built is arranged in rows. -/
theorem arranged_build [Scalar α] (config : Config) (layout : Layout Rat)
    (haccepts : Config.schema.accepts config.layout.toSettings = true)
    (hreads : config.layout.Reads layout) (now : Moment) (s : Sources α) (g : Graph α Rat)
    (h : (build (config.graphSettings.exactly layout) now s).toExcept = .ok g) :
    g.Arranged layout := by
  obtain ⟨g₃, -, hplace⟩ := Progress.andThen_eq_done.mp (Progress.toExcept_eq_ok.mp h)
  exact arranged_of_fills (Layout.roomy_of_accepts haccepts hreads) (fills_place hplace)

/-- A capability, and two entities on the level of a rule. -/
private def ledger : Sources Rat where
  context := {
    stories := []
    capabilities := [⟨.text "sales", .text "Sales", .text "", [], [], [], [], .text "core", .record []⟩]
    entities := ["Order", "Item"].map fun name =>
      ⟨.text name, [], [], [], .text "", .record []⟩
    rules := [⟨.text "paid", .text "", .text "", [], [], [], [], .record []⟩]
    personas := [] }
  features := ⟨[], [], [], []⟩
  journeys := .empty

theorem arranged_build_ledger : ∃ g : Graph Rat Rat,
    Config.schema.accepts Config.default.layout.toSettings = true ∧
    Config.default.layout.Reads ⟨1000, 150, 100, 100⟩ ∧
    (build (Config.default.graphSettings.exactly ⟨1000, 150, 100, 100⟩) ⟨2024, 1, 2, 3, 4, 5, 0⟩
      ledger).toExcept = .ok g ∧
    g.arena.nodes.map (fun n => n.position.map fun p => (p.x, p.y)) =
      [some (100, 550), some (100, 850), some (1300 / 3, 850), some (2300 / 3, 850)] ∧
    g.Arranged ⟨1000, 150, 100, 100⟩ := by
  have haccepts : Config.schema.accepts Config.default.layout.toSettings = true := by
    decide +kernel
  have hreads : Config.default.layout.Reads ⟨1000, 150, 100, 100⟩ :=
    ⟨⟨_, rfl, rfl⟩, ⟨_, rfl, rfl⟩, ⟨_, rfl, rfl⟩, ⟨_, rfl, rfl⟩⟩
  obtain ⟨g, hg, hplaces⟩ := exists_of_any (show (build (Config.default.graphSettings.exactly
    ⟨1000, 150, 100, 100⟩) ⟨2024, 1, 2, 3, 4, 5, 0⟩ ledger).toExcept.toOption.any (fun g =>
      g.arena.nodes.map (fun n => n.position.map fun p => (p.x, p.y)) ==
        [some (100, 550), some (100, 850), some (1300 / 3, 850), some (2300 / 3, 850)]) = true by
    decide +kernel)
  exact ⟨g, haccepts, hreads, hg, eq_of_beq hplaces,
    arranged_build Config.default _ haccepts hreads _ ledger g hg⟩

end Graph

end BusinessAtlas
