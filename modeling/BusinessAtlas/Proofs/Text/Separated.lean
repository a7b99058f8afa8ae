import BusinessAtlas.Text.Lowercase
import BusinessAtlas.Text.Search
import Mathlib.Algebra.Order.BigOperators.Group.List
import Mathlib.Data.List.Infix

/-!
# Texts with separators

Where the first character of a separator does not come again in it, two occurrences never overlap, and
the pieces of texts that were joined by it are the pieces of each of them, in order. So the texts come
out as they went in exactly if the separator occurs in none of them, and otherwise there are more of
them. At a blank, words are found and changed to lowercase each on its own.
-/

namespace BusinessAtlas.Text

/-- The first character of the separator does not come again in it. -/
def Unbordered (sep : List Char) : Prop := ∃ c rest, sep = c :: rest ∧ c ∉ rest

section

variable {sep : List Char}

theorem Unbordered.ne_nil (hsep : Unbordered sep) : sep ≠ [] := by
  obtain ⟨c, rest, rfl, -⟩ := hsep
  exact List.cons_ne_nil c rest

theorem Unbordered.prefix_of_append (hsep : Unbordered sep) {s after : List Char} (hs : s ≠ [])
    (h : sep <+: s ++ (sep ++ after)) : sep <+: s := by
  rcases List.prefix_or_prefix_of_prefix h (List.prefix_append s (sep ++ after)) with hin | hover
  · exact hin
  · obtain ⟨c, rest, rfl, hfirst⟩ := hsep
    obtain ⟨d, s, rfl⟩ := List.exists_cons_of_ne_nil hs
    obtain ⟨tail, htail⟩ := hover
    obtain ⟨rfl, rfl⟩ := List.cons.inj htail
    have hleft : tail <+: d :: (s ++ tail) ++ after := by
      simpa [List.prefix_append_right_inj] using h
    cases tail with
    | nil => simp
    | cons e tail =>
      have he : e = d := by simpa using (List.cons_prefix_cons.mp hleft).1
      exact absurd (by simp [he]) hfirst

theorem splitFrom_skip (sep : List Char) (skip : Nat) (current cs : List Char) :
    splitFrom sep skip current cs = splitFrom sep 0 current (cs.drop skip) := by
  induction cs generalizing skip with
  | nil => simp [splitFrom]
  | cons c cs ih =>
    cases skip with
    | zero => rfl
    | succ k => exact ih k

theorem splitFrom_append (hsep : Unbordered sep) (skip : Nat) (current a b : List Char)
    (hskip : skip ≤ a.length) : splitFrom sep skip current (a ++ (sep ++ b)) =
      splitFrom sep skip current a ++ splitFrom sep 0 [] b := by
  induction a generalizing skip current with
  | nil =>
    obtain rfl : skip = 0 := Nat.le_zero.mp hskip
    obtain ⟨c, rest, rfl⟩ := List.exists_cons_of_ne_nil hsep.ne_nil
    have hstart : (c :: rest).isPrefixOf (c :: (rest ++ b)) = true :=
      List.isPrefixOf_iff_prefix.mpr (List.prefix_append (c :: rest) b)
    simp only [List.nil_append, List.cons_append, splitFrom, hstart, if_true]
    rw [splitFrom_skip]
    simp
  | cons c cs ih =>
    cases skip with
    | succ k => exact ih k current (Nat.le_of_succ_le_succ hskip)
    | zero =>
      have hstart : sep.isPrefixOf (c :: (cs ++ (sep ++ b))) = sep.isPrefixOf (c :: cs) := by
        rw [Bool.eq_iff_iff, List.isPrefixOf_iff_prefix, List.isPrefixOf_iff_prefix]
        constructor
        · exact hsep.prefix_of_append (List.cons_ne_nil c cs)
        · intro h
          exact h.trans (List.prefix_append (c :: cs) (sep ++ b))
      rw [List.cons_append, splitFrom, splitFrom, hstart]
      split
      · next h =>
        have hlength := (List.isPrefixOf_iff_prefix.mp h).length_le
        rw [ih _ _ (by simpa using hlength)]
        rfl
      · exact ih 0 _ (Nat.zero_le _)

theorem splitFrom_of_not_occursIn (current : List Char) {s : List Char}
    (h : occursIn sep s = false) : splitFrom sep 0 current s = [current.reverse ++ s] := by
  induction s generalizing current with
  | nil => simp [splitFrom]
  | cons c cs ih =>
    obtain ⟨hstart, hlater⟩ := Bool.or_eq_false_iff.mp h
    rw [splitFrom, hstart, ih _ hlater]
    simp

end

section

variable {sep : String}

theorem splitOn_ne_nil (sep s : String) : splitOn sep s ≠ [] := by
  simpa [splitOn] using splitFrom_ne_nil sep.toList 0 [] s.toList

theorem splitOn_append (hsep : Unbordered sep.toList) (a b : String) :
    splitOn sep (a ++ sep ++ b) = splitOn sep a ++ splitOn sep b := by
  simp only [splitOn, String.toList_append, List.append_assoc]
  rw [splitFrom_append hsep 0 [] _ _ (Nat.zero_le _), List.map_append]

theorem length_splitOn_eq_one (hsep : Unbordered sep.toList) (s : String) :
    (splitOn sep s).length = 1 ↔ occurs sep s = false := by
  constructor
  · intro hone
    by_contra hoccurs
    obtain ⟨before, after, hs⟩ := (occursIn_iff _ _).mp (Bool.not_eq_false _ ▸ hoccurs)
    have hs : s = .ofList before ++ sep ++ .ofList after := String.toList_inj.mp (by simp [hs])
    rw [hs, splitOn_append hsep, List.length_append] at hone
    have hbefore := List.length_pos_iff.mpr (splitOn_ne_nil sep (.ofList before))
    have hafter := List.length_pos_iff.mpr (splitOn_ne_nil sep (.ofList after))
    omega
  · intro hnone
    rw [splitOn, splitFrom_of_not_occursIn [] hnone]
    rfl

theorem splitOn_of_not_occurs {s : String} (h : occurs sep s = false) : splitOn sep s = [s] := by
  rw [splitOn, splitFrom_of_not_occursIn [] h]
  simp

/-- The pieces of joined texts are the pieces of each of them. -/
theorem splitOn_intercalate (hsep : Unbordered sep.toList) {pieces : List String}
    (hpieces : pieces ≠ []) :
    splitOn sep (sep.intercalate pieces) = pieces.flatMap (splitOn sep) := by
  induction pieces with
  | nil => exact absurd rfl hpieces
  | cons a rest ih =>
    cases rest with
    | nil => simp
    | cons b rest =>
      rw [String.intercalate_cons_of_ne_nil (List.cons_ne_nil b rest), splitOn_append hsep,
        ih (List.cons_ne_nil b rest)]
      rfl

/-- As many pieces come out as texts went in exactly if the separator occurs in none of them. -/
theorem length_splitOn_intercalate (hsep : Unbordered sep.toList) {pieces : List String}
    (hpieces : pieces ≠ []) : (splitOn sep (sep.intercalate pieces)).length = pieces.length ↔
      ∀ s ∈ pieces, occurs sep s = false := by
  rw [splitOn_intercalate hsep hpieces]
  simp only [← length_splitOn_eq_one hsep]
  clear hpieces
  induction pieces with
  | nil => simp
  | cons a rest ih =>
    have hfirst := List.length_pos_iff.mpr (splitOn_ne_nil sep a)
    have hrest : rest.length ≤ (rest.flatMap (splitOn sep)).length := by
      have hpieces : ∀ n ∈ rest.map fun s => (splitOn sep s).length, 1 ≤ n := by
        intro n hn
        obtain ⟨s, -, rfl⟩ := List.mem_map.mp hn
        exact List.length_pos_iff.mpr (splitOn_ne_nil sep s)
      simpa using List.length_le_sum_of_one_le _ hpieces
    rw [List.forall_mem_cons, ← ih, List.flatMap_cons, List.length_append, List.length_cons]
    omega

theorem splitOn_intercalate_of_not_occurs (hsep : Unbordered sep.toList) {pieces : List String}
    (hpieces : pieces ≠ []) (h : ∀ s ∈ pieces, occurs sep s = false) :
    splitOn sep (sep.intercalate pieces) = pieces := by
  rw [splitOn_intercalate hsep hpieces]
  calc pieces.flatMap (splitOn sep)
      = pieces.flatMap fun s => [s] := by
        rw [List.flatMap_def, List.flatMap_def,
          List.map_congr_left fun s hs => splitOn_of_not_occurs (h s hs)]
    _ = pieces := List.flatMap_singleton' pieces

end

theorem occursIn_append_cons {needle : List Char} {d : Char} (hd : d ∉ needle)
    (xs ys : List Char) :
    occursIn needle (xs ++ d :: ys) = (occursIn needle xs || occursIn needle ys) := by
  have hstart (l : List Char) : needle <+: l ++ d :: ys ↔ needle <+: l := by
    constructor
    · intro h
      have hwhole : l ++ [d] <+: l ++ d :: ys := ⟨ys, by simp⟩
      rcases List.prefix_or_prefix_of_prefix h hwhole with hin | hover
      · rcases List.prefix_concat_iff.mp hin with rfl | hin
        · exact absurd (by simp) hd
        · exact hin
      · exact absurd (hover.subset (by simp)) hd
    · intro h
      exact h.trans (List.prefix_append l (d :: ys))
  induction xs with
  | nil =>
    have hhere : needle.isPrefixOf (d :: ys) = needle.isEmpty := by
      rw [Bool.eq_iff_iff, List.isPrefixOf_iff_prefix, List.isEmpty_iff, ← List.prefix_nil]
      exact hstart []
    rw [List.nil_append, occursIn, occursIn, hhere]
  | cons x xs ih =>
    have hhere : needle.isPrefixOf (x :: (xs ++ d :: ys)) = needle.isPrefixOf (x :: xs) := by
      rw [Bool.eq_iff_iff, List.isPrefixOf_iff_prefix, List.isPrefixOf_iff_prefix]
      exact hstart (x :: xs)
    rw [List.cons_append, occursIn, occursIn, hhere, ih, Bool.or_assoc]

theorem inRanges_eq_any (ranges : Array (Nat × Nat)) (n : Nat) :
    inRanges ranges n = ranges.toList.any fun r => r.1 ≤ n && n ≤ r.2 := Array.any_toList.symm

theorem nextIsCased_append_blank (cs ds : List Char) :
    nextIsCased (cs ++ ' ' :: ds) = nextIsCased cs := by
  induction cs with
  | nil =>
    have hignored : inRanges caseIgnorableRanges ' '.toNat = false := by
      rw [inRanges_eq_any]
      decide +kernel
    have hcased : inRanges casedRanges ' '.toNat = false := by
      rw [inRanges_eq_any]
      decide +kernel
    rw [List.nil_append, nextIsCased.eq_2, hignored, hcased]
    rfl
  | cons c cs ih => rw [List.cons_append, nextIsCased, nextIsCased, ih]

theorem lowerFrom_after_blank (passed before cs : List Char) :
    lowerFrom (passed ++ ' ' :: before) cs = lowerFrom passed cs := by
  induction cs generalizing passed with
  | nil => rfl
  | cons c cs ih =>
    have hrest := ih (c :: passed)
    rw [List.cons_append] at hrest
    rw [lowerFrom, lowerFrom, hrest, nextIsCased_append_blank]

theorem lowerFrom_append_blank (passed cs ds : List Char) :
    lowerFrom passed (cs ++ ' ' :: ds) = lowerFrom passed cs ++ ' ' :: lowerFrom [] ds := by
  induction cs generalizing passed with
  | nil =>
    have hblank : lowerChar ' ' = ' ' := by decide
    rw [List.nil_append, lowerFrom]
    simpa [hblank, lowerFrom] using lowerFrom_after_blank [] passed ds
  | cons c cs ih =>
    rw [List.cons_append, lowerFrom, lowerFrom, ih, nextIsCased_append_blank]
    split
    · rfl
    · split <;> rfl

/-- Words are changed to lowercase each on its own. -/
theorem lower_append_blank (s rest : String) :
    lower (s ++ " " ++ rest) = lower s ++ " " ++ lower rest := by
  rw [← String.toList_inj]
  simpa [lower] using lowerFrom_append_blank [] s.toList rest.toList

/-- A word is found in a text exactly if it is found on one side of a blank. -/
theorem occurs_append_blank {word : String} (hword : ' ' ∉ word.toList) (s rest : String) :
    occurs word (s ++ " " ++ rest) = (occurs word s || occurs word rest) := by
  simpa [occurs] using occursIn_append_cons hword s.toList rest.toList

end BusinessAtlas.Text
