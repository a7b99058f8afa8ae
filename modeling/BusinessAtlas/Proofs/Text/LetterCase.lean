import BusinessAtlas.Text.Lowercase
import BusinessAtlas.Text.Search
import Mathlib

/-!
# Texts that differ in the case of letters

Two texts have the same letters if they are one once their ASCII letters are made small. An ASCII
text in lowercase does not tell in which case its letters were written. Of all ways to write a word
only the one in small letters can occur in it, and a word in capitals only if it has no letters at
all.
-/

namespace BusinessAtlas.Text

/-- The text holds ASCII characters only. -/
def Ascii (s : String) : Prop := ∀ c ∈ s.toList, c.toNat < 0x80

/-- The text with its ASCII letters made small. -/
def small (s : String) : String := .ofList (s.toList.map Char.toLower)

/-- The text with its ASCII letters made capitals. -/
def capital (s : String) : String := .ofList (s.toList.map Char.toUpper)

/-- The texts differ at most in the case of ASCII letters. -/
def SameLetters (s t : String) : Prop := small s = small t

/-- No character of the text is an ASCII letter. -/
def letterless (s : String) : Bool := s.toList.all fun c => !c.isAlpha

instance : DecidablePred Ascii := fun s => List.decidableBAll _ s.toList

@[simp] theorem toList_small (s : String) : (small s).toList = s.toList.map Char.toLower := by
  simp [small]

@[simp] theorem toList_capital (s : String) : (capital s).toList = s.toList.map Char.toUpper := by
  simp [capital]

@[simp] theorem small_small (s : String) : small (small s) = small s := by
  rw [← String.toList_inj]
  simp

@[simp] theorem small_capital (s : String) : small (capital s) = small s := by
  rw [← String.toList_inj]
  simp

@[simp] theorem letterless_small (s : String) : letterless (small s) = letterless s := by
  simp [letterless, Function.comp_def]

theorem letterless_iff {s : String} : letterless s = true ↔ ∀ c ∈ s.toList, c.isAlpha = false := by
  simp [letterless]

theorem toNat_toLower_lt {c : Char} : c.toLower.toNat < 0x80 ↔ c.toNat < 0x80 := by
  by_cases hc : c.isUpper = true
  · have hle : c.toNat ≤ 90 := by
      simp only [Char.isUpper, decide_eq_true_eq, UInt32.le_iff_toNat_le] at hc
      exact hc.2
    have hvalid : (c.toNat + 32).isValidChar := .inl (by omega)
    rw [Char.toLower_eq_of_isUpper hc, Char.toNat_ofNat, if_pos hvalid]
    omega
  · rw [Char.toLower_eq_of_not_isUpper hc]

theorem lower_of_ascii {s : String} (hs : Ascii s) : lower s = small s := by
  rw [lower, lowerFrom_of_ascii [] s.toList hs, small]

theorem small_eq_self_iff {s : String} : small s = s ↔ ∀ c ∈ s.toList, c.isUpper = false := by
  constructor
  · intro h c hc
    rw [← h, toList_small] at hc
    obtain ⟨d, -, rfl⟩ := List.mem_map.mp hc
    exact Char.isUpper_toLower_eq_false d
  · intro h
    have hchars : s.toList.map Char.toLower = s.toList.map id := by
      apply List.map_congr_left
      intro c hc
      apply Char.toLower_eq_of_not_isUpper
      simp [h c hc]
    rw [← String.toList_inj, toList_small, hchars, List.map_id]

theorem small_of_letterless {s : String} (h : letterless s = true) : small s = s := by
  rw [small_eq_self_iff]
  intro c hc
  have hletter := letterless_iff.mp h c hc
  simp_all [Char.isAlpha]

namespace SameLetters

variable {s t : String}

theorem letterless_eq (h : SameLetters s t) : letterless t = letterless s := by
  rw [← letterless_small t, ← h, letterless_small]

theorem eq_of_letterless (h : SameLetters s t) (hs : letterless s = true) : t = s := by
  have ht : letterless t = true := h.letterless_eq.trans hs
  rw [← small_of_letterless ht, ← h, small_of_letterless hs]

theorem ascii (h : SameLetters s t) (hs : Ascii s) : Ascii t := by
  have hsmall : Ascii (small t) := by
    rw [← h]
    simpa [Ascii, toNat_toLower_lt] using hs
  simpa [Ascii, toNat_toLower_lt] using hsmall

/-- The lowercase form of an ASCII text does not tell in which case its letters were written. -/
theorem lower_eq (h : SameLetters s t) (hs : Ascii s) : lower t = lower s := by
  rw [lower_of_ascii hs, lower_of_ascii (h.ascii hs), h]

end SameLetters

section

variable {word s : String}

theorem mem_of_occurs (h : occurs word s = true) {c : Char} (hc : c ∈ word.toList) :
    c ∈ s.toList := by
  obtain ⟨before, after, hs⟩ := (occursIn_iff _ _).mp h
  simp [hs, hc]

theorem small_of_occurs (h : occurs word (small s) = true) : small word = word := by
  rw [small_eq_self_iff]
  intro c hc
  exact small_eq_self_iff.mp (small_small s) c (mem_of_occurs h hc)

/-- A word in capitals that occurs in a text in small letters has no letters. -/
theorem letterless_of_occurs_capital (h : occurs (capital word) (small s) = true) :
    letterless word = true := by
  rw [letterless_iff]
  intro c hc
  rw [← Char.isUpper_toUpper_eq_isAlpha]
  apply small_eq_self_iff.mp (small_of_occurs h)
  simpa using List.mem_map_of_mem hc

end

end BusinessAtlas.Text
