import BusinessAtlas.Decimal.Shortest
import BusinessAtlas.Proofs.Json.Grammar
import Mathlib.Data.List.DropRight

/-!
# Numbers as numerals

The text of an integer and the shortest text of a finite double are numerals of JSON. The digits
never begin with a zero unless they are those of zero: the digits of a double of at least one are
taken on a grid on which it is at least one, too.
-/

namespace BusinessAtlas.Decimal

open Json.Strict (Numeral Whole Fraction Exponent)

private theorem isDigit_of_mem_toDigits {n : Nat} : ∀ c ∈ Nat.toDigits 10 n, c.isDigit = true :=
  fun _ hc => Nat.isDigit_of_mem_toDigits (by decide) (by decide) hc

theorem head?_toDigits_ne {n : Nat} (hn : n ≠ 0) : (Nat.toDigits 10 n).head? ≠ some '0' := by
  induction n using Nat.strongRecOn with
  | _ n ih =>
    by_cases hsmall : n < 10
    · rw [Nat.toDigits_of_lt_base hsmall, List.head?_cons]
      exact fun h => hn (Nat.digitChar_eq_zero.mp (Option.some.inj h))
    · rw [Nat.toDigits_of_base_le (by decide) (by omega), List.head?_append_of_ne_nil _ Nat.toDigits_ne_nil]
      exact ih (n / 10) (by omega) (by omega)

theorem whole_toDigits (n : Nat) : Whole (Nat.toDigits 10 n) := by
  refine ⟨⟨Nat.toDigits_ne_nil, isDigit_of_mem_toDigits⟩, fun hzero => ?_⟩
  by_cases hn : n = 0
  · rw [hn, Nat.toDigits_zero]
  · exact absurd hzero (head?_toDigits_ne hn)

/-- Digits of which the first is not a zero, unless they are those of zero or of a fraction that
vanishes. -/
structure Digits.Leading (d : Digits) : Prop where
  digits : Json.Strict.Digits d.digits
  zero : d.digits.head? = some '0' → d.digits = ['0'] ∧ d.exponent ≤ 0

private theorem digits_zero : Json.Strict.Digits ['0'] :=
  ⟨List.cons_ne_nil _ _, List.forall_mem_singleton.mpr (by decide)⟩

theorem Digits.leading_zero : Digits.Leading ⟨['0'], 0⟩ := ⟨digits_zero, by decide⟩

theorem Digits.leading_ofGrid {a : Nat} {e : Int} (h : a = 0 → e ≤ 0) : (ofGrid a e).Leading := by
  let kept := (Nat.toDigits 10 a).rdropWhile (· == '0')
  have hgrid : ofGrid a e =
      ⟨if kept.isEmpty then ['0'] else kept, e + (Nat.toDigits 10 a).length - 1⟩ := rfl
  have hkeeps : kept <+: Nat.toDigits 10 a := List.rdropWhile_prefix _ _
  by_cases ha : a = 0
  · have hzero : ofGrid a e = ⟨['0'], e + 1 - 1⟩ := by
      rw [ha]
      rfl
    rw [hzero]
    exact ⟨⟨by simp, by simp⟩, fun _ => ⟨rfl, by have := h ha; dsimp only; omega⟩⟩
  · have hhead : ∀ c cs, Nat.toDigits 10 a = c :: cs → c ≠ '0' := by
      rintro c cs hcs rfl
      exact head?_toDigits_ne ha (by rw [hcs, List.head?_cons])
    have hkept : kept ≠ [] := by
      obtain ⟨c, cs, hcs⟩ := List.exists_cons_of_ne_nil (Nat.toDigits_ne_nil (n := a) (b := 10))
      intro hnil
      have hall := List.rdropWhile_eq_nil_iff.mp hnil c (by rw [hcs]; exact List.mem_cons_self)
      exact hhead c cs hcs (by simpa using hall)
    rw [hgrid, if_neg (by simpa using hkept)]
    refine ⟨⟨hkept, fun c hc => isDigit_of_mem_toDigits c (hkeeps.subset hc)⟩, fun hzero => ?_⟩
    obtain ⟨cs, hcs⟩ := List.head?_eq_some_iff.mp hzero
    obtain ⟨rest, hrest⟩ := hkeeps
    exact absurd rfl (hhead '0' (cs ++ rest) (by rw [← hrest, show kept = _ from hcs, List.cons_append]))

theorem exponent_exponentText (e : Int) : Exponent ('e' :: exponentText e) := by
  have hdigits := (whole_toDigits e.natAbs).1
  have hpadded : Json.Strict.Digits (if (Nat.toDigits 10 e.natAbs).length < 2
      then '0' :: Nat.toDigits 10 e.natAbs else Nat.toDigits 10 e.natAbs) := by
    split
    · exact ⟨List.cons_ne_nil _ _, List.forall_mem_cons.mpr ⟨by decide, hdigits.2⟩⟩
    · exact hdigits
  refine .inr ⟨'e', [if e < 0 then '-' else '+'], _, by decide, ?_, hpadded, rfl⟩
  split <;> decide

/-- A number without its sign, taken apart at its point and at the mark of its exponent. -/
structure Figure where
  whole : List Char
  fraction : List Char
  exponent : Option Int

namespace Figure

def fractionText (f : Figure) : List Char := if f.fraction.isEmpty then [] else '.' :: f.fraction

def exponentPart (f : Figure) : List Char := f.exponent.elim [] fun e => 'e' :: exponentText e

def text (f : Figure) : List Char := f.whole ++ (f.fractionText ++ f.exponentPart)

theorem text_integer (whole : List Char) : text ⟨whole, [], none⟩ = whole := by
  simp [text, fractionText, exponentPart]

theorem text_pointed (whole : List Char) {fraction : List Char} (h : fraction ≠ []) :
    text ⟨whole, fraction, none⟩ = whole ++ '.' :: fraction := by
  simp [text, fractionText, exponentPart, h]

structure Sound (f : Figure) : Prop where
  whole : Whole f.whole
  fraction : ∀ c ∈ f.fraction, c.isDigit = true

theorem Sound.numeral {f : Figure} (h : f.Sound) {sign : List Char} (hsign : sign ∈ [[], ['-']]) :
    Numeral (sign ++ f.text) := by
  refine ⟨sign, f.whole, f.fractionText, f.exponentPart, hsign, h.whole, ?_, ?_, by simp [text]⟩
  · unfold fractionText
    split
    · exact .inl rfl
    · next hfraction => exact .inr ⟨_, ⟨by simpa using hfraction, h.fraction⟩, rfl⟩
  · unfold exponentPart
    cases f.exponent with
    | none => exact .inl rfl
    | some e => exact exponent_exponentText e

/-- The figure is that of a double with the digits: they stand between zeros, and the point is where
their exponent puts it. -/
structure Shows (f : Figure) (d : Digits) : Prop where
  sound : f.Sound
  marked : f.exponent = none → f.fraction ≠ []
  digits : ∃ before after, f.whole ++ f.fraction =
      List.replicate before '0' ++ d.digits ++ List.replicate after '0' ∧
    f.exponent.getD 0 - f.fraction.length = d.exponent + 1 - d.digits.length - after

end Figure

/-- The figure of a whole number. -/
def Figure.ofNat (n : Nat) : Figure := ⟨Nat.toDigits 10 n, [], none⟩

theorem Figure.sound_ofNat (n : Nat) : (Figure.ofNat n).Sound := ⟨whole_toDigits n, nofun⟩

theorem toList_toString (n : Int) :
    (toString n).toList = (if n < 0 then ['-'] else []) ++ (Figure.ofNat n.natAbs).text := by
  cases n with
  | ofNat m => simp [toString, Int.repr, Figure.ofNat, Figure.text_integer]
  | negSucc m => simp [toString, Int.repr, Figure.ofNat, Figure.text_integer]

theorem numeral_toString (n : Int) : Numeral (toString n).toList := by
  rw [toList_toString]
  exact (Figure.sound_ofNat _).numeral (by split <;> decide)

section Layout

variable {digits : List Char} {exponent : Int}

private theorem isDigit_of_mem_zeros {n : Nat} : ∀ c ∈ List.replicate n '0', c.isDigit = true := by
  intro c hc
  rw [List.eq_of_mem_replicate hc]
  rfl

private theorem shows_below (hd : Digits.Leading ⟨digits, exponent⟩) (hneg : exponent < 0) :
    Figure.Shows ⟨['0'], List.replicate (exponent.natAbs - 1) '0' ++ digits, none⟩
      ⟨digits, exponent⟩ := by
  refine ⟨⟨⟨digits_zero, fun _ => rfl⟩, List.forall_mem_append.mpr ⟨isDigit_of_mem_zeros, hd.digits.2⟩⟩,
    fun _ => by simpa using fun _ => hd.digits.1, exponent.natAbs, 0, ?_, ?_⟩
  · rw [show exponent.natAbs = exponent.natAbs - 1 + 1 by omega, List.replicate_succ]
    simp
  · simp only [List.length_append, List.length_replicate, Option.getD_none]
    omega

private theorem shows_padded (hd : Digits.Leading ⟨digits, exponent⟩) (hpos : ¬exponent < 0)
    (hshort : digits.length ≤ exponent.toNat + 1) :
    Figure.Shows ⟨digits ++ List.replicate (exponent.toNat + 1 - digits.length) '0', ['0'], none⟩
      ⟨digits, exponent⟩ := by
  obtain ⟨⟨hne, hdigits⟩, hzero⟩ := hd
  refine ⟨⟨⟨⟨by simp [hne], List.forall_mem_append.mpr ⟨hdigits, isDigit_of_mem_zeros⟩⟩, fun hc => ?_⟩,
    digits_zero.2⟩, by simp, 0, exponent.toNat + 1 - digits.length + 1, ?_, ?_⟩
  · rw [List.head?_append_of_ne_nil _ hne] at hc
    obtain ⟨hcs, he⟩ := hzero hc
    dsimp only at hcs he
    rw [hcs, Int.toNat_of_nonpos he]
    rfl
  · simp [List.replicate_succ']
  · simp only [List.length_singleton, Option.getD_none]
    omega

private theorem shows_pointed (hd : Digits.Leading ⟨digits, exponent⟩) (hpos : ¬exponent < 0)
    (hlong : ¬digits.length ≤ exponent.toNat + 1) :
    Figure.Shows ⟨digits.take (exponent.toNat + 1), digits.drop (exponent.toNat + 1), none⟩
      ⟨digits, exponent⟩ := by
  obtain ⟨⟨hne, hdigits⟩, hzero⟩ := hd
  refine ⟨⟨⟨⟨by simpa using hne, fun d hd => hdigits d (List.mem_of_mem_take hd)⟩, fun hc => ?_⟩,
    fun d hd => hdigits d (List.mem_of_mem_drop hd)⟩, fun _ => ?_, 0, 0, by simp, ?_⟩
  · rw [List.head?_take, if_neg (Nat.succ_ne_zero _)] at hc
    obtain ⟨hcs, -⟩ := hzero hc
    dsimp only at hcs
    rw [hcs] at hlong
    exact absurd (Nat.succ_le_succ (Nat.zero_le _)) hlong
  · rw [ne_eq, List.drop_eq_nil_iff]
    exact hlong
  · simp only [List.length_drop, Option.getD_none]
    omega

private theorem shows_marked (hd : Digits.Leading ⟨digits, exponent⟩) :
    Figure.Shows ⟨digits.take 1, digits.drop 1, some exponent⟩ ⟨digits, exponent⟩ := by
  obtain ⟨⟨hne, hdigits⟩, hzero⟩ := hd
  refine ⟨⟨⟨⟨by simpa using hne, fun d hd => hdigits d (List.mem_of_mem_take hd)⟩, fun hc => ?_⟩,
    fun d hd => hdigits d (List.mem_of_mem_drop hd)⟩, by simp, 0, 0,
    (List.take_append_drop 1 digits).trans (by simp), ?_⟩
  · rw [List.head?_take, if_neg Nat.one_ne_zero] at hc
    obtain ⟨hcs, -⟩ := hzero hc
    dsimp only at hcs
    rw [hcs]
    rfl
  · have hlength := List.length_pos_iff.mpr hne
    dsimp only at hlength
    simp only [List.length_drop, Option.getD_some]
    omega

/-- However leading digits are laid out, they make a figure. -/
theorem exists_figure {d : Digits} (hd : d.Leading) :
    ∃ f : Figure, f.Shows d ∧ layOut shortestStyle d = f.text := by
  obtain ⟨digits, exponent⟩ := d
  have hne : digits ≠ [] := hd.digits.1
  unfold layOut
  dsimp only
  split
  · split
    · next hneg => exact ⟨_, shows_below hd hneg, by simp [Figure.text_pointed, hne]⟩
    · next hpos =>
      split
      · next hshort =>
        exact ⟨_, shows_padded hd hpos hshort, by simp [Figure.text_pointed, shortestStyle]⟩
      · next hlong =>
        have hdrop : digits.drop (exponent.toNat + 1) ≠ [] := by
          rw [ne_eq, List.drop_eq_nil_iff]
          exact hlong
        exact ⟨_, shows_pointed hd hpos hlong, (Figure.text_pointed _ hdrop).symm⟩
  · exact ⟨_, shows_marked hd, by simp [Figure.text, Figure.fractionText, Figure.exponentPart]⟩

end Layout

theorem ten_pow_le_of_lt_length {n k : Nat} (hn : 0 < n) (hk : k < (Nat.toDigits 10 n).length) :
    Nat.pow 10 k ≤ n := by
  by_cases hzero : k = 0
  · rw [hzero]
    exact hn
  · rw [← not_le, Nat.length_toDigits_le_iff (by decide) (by omega)] at hk
    exact Nat.le_of_not_lt hk

theorem gridFloor_pos {num den : Nat} {e : Int} (hden : 0 < den) (hle : den ≤ num)
    (he : e ≤ leadingExponent num den) : 0 < gridFloor e num den := by
  unfold gridFloor
  split
  · exact Nat.div_pos (Nat.le_trans hle (Nat.le_mul_of_pos_right _ (Nat.pow_pos (by decide)))) hden
  · next hneg =>
    rw [leadingExponent, if_pos hle] at he
    have hpower : Nat.pow 10 e.natAbs ≤ num / den :=
      ten_pow_le_of_lt_length (Nat.div_pos hle hden) (by omega)
    have hscale : 0 < den * Nat.pow 10 e.natAbs := Nat.mul_pos hden (Nat.pow_pos (by decide))
    refine Nat.div_pos ?_ hscale
    rw [Nat.mul_comm]
    exact (Nat.le_div_iff_mul_le hden).mp hpower

namespace Interval

variable {i : Interval}

theorem gridFloor_le_of_onGrid {a : Nat} {e : Int} (h : i.onGrid e = some a) :
    gridFloor e i.value.1 i.value.2 ≤ a := by
  unfold onGrid at h
  dsimp only at h
  split at h
  · cases h
    exact Nat.le_refl _
  · cases h
    exact Nat.le_succ _
  · cases h
  · split at h
    · cases h
      exact Nat.le_add_right _ _
    · split at h
      · cases h
        exact Nat.le_refl _
      · cases h
        exact Nat.le_succ _

theorem search_cases (top : Int) (fuel count : Nat) (hcount : 1 ≤ count) :
    i.search top fuel count = (0, 0) ∨
      (i.search top fuel count).2 ≤ top ∧
        i.onGrid (i.search top fuel count).2 = some (i.search top fuel count).1 := by
  induction fuel generalizing count with
  | zero => exact .inl rfl
  | succ fuel ih =>
    rw [search]
    split
    · next a ha => exact .inr ⟨by dsimp only; omega, ha⟩
    · exact ih (count + 1) (by omega)

end Interval

theorem leading_shortestDigits (p : Binary64.Parts) : (shortestDigits p).Leading := by
  let i := interval p
  let top := leadingExponent i.value.1 i.value.2
  have hden : 0 < i.value.2 := by
    show 0 < (Binary64.Parts.ratio _).2
    unfold Binary64.Parts.ratio
    split
    · exact Nat.pow_pos (by decide)
    · exact Nat.one_pos
  show (Digits.ofGrid (i.search top 17 1).1 (i.search top 17 1).2).Leading
  refine Digits.leading_ofGrid fun hzero => ?_
  rcases Interval.search_cases (i := i) top 17 1 (Nat.le_refl 1) with hnone | ⟨htop, hfound⟩
  · exact Int.le_of_eq (congrArg Prod.snd hnone)
  · have hfloor : gridFloor (i.search top 17 1).2 i.value.1 i.value.2 = 0 :=
      Nat.le_zero.mp (hzero ▸ Interval.gridFloor_le_of_onGrid hfound)
    have hsmall : ¬i.value.2 ≤ i.value.1 := fun hle =>
      Nat.ne_of_gt (gridFloor_pos hden hle htop) hfloor
    have hnegative : top ≤ 0 := by
      show leadingExponent i.value.1 i.value.2 ≤ 0
      rw [leadingExponent, if_neg hsmall]
      dsimp only
      have := Nat.length_toDigits_pos (b := 10) (n := i.value.2 / i.value.1)
      split <;> omega
    exact Int.le_trans htop hnegative

/-- The digits in which a finite double is written. -/
def writtenDigits (p : Binary64.Parts) : Digits :=
  if p.significand == 0 then ⟨['0'], 0⟩ else shortestDigits p

theorem leading_writtenDigits (p : Binary64.Parts) : (writtenDigits p).Leading := by
  unfold writtenDigits
  split
  · exact Digits.leading_zero
  · exact leading_shortestDigits p

/-- The shortest text of a finite double is a figure of its digits behind a sign. -/
theorem exists_figure_shortest {x : Float} (h : (x.isNaN || x.isInf) = false) :
    ∃ f : Figure, f.Shows (writtenDigits (Binary64.parts x)) ∧
      (shortest x).toList = (if (Binary64.parts x).negative then ['-'] else []) ++ f.text := by
  obtain ⟨f, hf, htext⟩ := exists_figure (leading_writtenDigits (Binary64.parts x))
  refine ⟨f, hf, ?_⟩
  rw [shortest, if_neg (Bool.eq_false_iff.mp h), ← htext]
  show (String.ofList (if _ then '-' :: layOut shortestStyle (writtenDigits (Binary64.parts x))
    else layOut shortestStyle (writtenDigits (Binary64.parts x)))).toList = _
  rw [String.toList_ofList]
  split <;> rfl

/-- The shortest text of a finite double is a numeral. -/
theorem numeral_shortest {x : Float} (h : (x.isNaN || x.isInf) = false) :
    Numeral (shortest x).toList := by
  obtain ⟨f, hf, htext⟩ := exists_figure_shortest h
  rw [htext]
  exact hf.sound.numeral (by split <;> decide)

end BusinessAtlas.Decimal
