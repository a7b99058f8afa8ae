import Mathlib.Data.String.Basic

/-!
# Texts joined by hyphens

What can be read off a text that joins two parts with a hyphen, where the parts may hold hyphens
themselves: the parts, or else one first part goes on where the other one stops. A last part without
hyphens, such as a number, is always told.
-/

namespace BusinessAtlas

private theorem parts_of_longer {a b c d : String} {rest : List Char}
    (hc : c.toList = a.toList ++ rest) (hb : '-' :: b.toList = rest ++ '-' :: d.toList) :
    (a = c ∧ b = d) ∨ ∃ x, c = a ++ "-" ++ x ∧ b = x ++ "-" ++ d := by
  cases rest with
  | nil =>
    rw [List.append_nil] at hc
    exact .inl ⟨(String.toList_inj.mp hc).symm, String.toList_inj.mp (List.cons.inj hb).2⟩
  | cons first x =>
    obtain ⟨rfl, hrest⟩ := List.cons.inj hb
    have hrest : b.toList = x ++ '-' :: d.toList := hrest
    exact .inr ⟨.ofList x, String.toList_inj.mp (by simp [hc]), String.toList_inj.mp (by simp [hrest])⟩

/-- Where two joined texts are the same, the parts are, or one first part goes on where the other
one stops. -/
theorem joined_eq_joined {a b c d : String} (h : a ++ "-" ++ b = c ++ "-" ++ d) :
    (a = c ∧ b = d) ∨ (∃ x, c = a ++ "-" ++ x ∧ b = x ++ "-" ++ d) ∨
      ∃ x, a = c ++ "-" ++ x ∧ d = x ++ "-" ++ b := by
  have hlist : a.toList ++ '-' :: b.toList = c.toList ++ '-' :: d.toList := by
    simpa using congrArg String.toList h
  rcases List.append_eq_append_iff.mp hlist with ⟨rest, hc, hb⟩ | ⟨rest, ha, hd⟩
  · rcases parts_of_longer hc hb with h | h
    · exact .inl h
    · exact .inr (.inl h)
  · rcases parts_of_longer ha hd with ⟨hac, hbd⟩ | h
    · exact .inl ⟨hac.symm, hbd.symm⟩
    · exact .inr (.inr h)

theorem last_eq_last {a b c d : String} (hb : '-' ∉ b.toList) (hd : '-' ∉ d.toList)
    (h : a ++ "-" ++ b = c ++ "-" ++ d) : a = c ∧ b = d := by
  rcases joined_eq_joined h with h | ⟨x, -, hx⟩ | ⟨x, -, hx⟩
  · exact h
  · exact absurd (by simp [hx]) hb
  · exact absurd (by simp [hx]) hd

theorem isDigit_of_mem_toString {n : Nat} {c : Char} (h : c ∈ (toString n).toList) :
    c.isDigit = true := by
  rw [Nat.toString_eq_ofList_toDigits, String.toList_ofList] at h
  exact Nat.isDigit_of_mem_toDigits (by decide) (by decide) h

theorem hyphen_notMem_toString (n : Nat) : '-' ∉ (toString n).toList :=
  fun h => absurd (isDigit_of_mem_toString h) (by decide)

theorem toString_inj {m n : Nat} (h : toString m = toString n) : m = n := by
  have hread := congrArg (fun s : String => Nat.ofDigitChars 10 s.toList 0) h
  simpa only [Nat.toString_eq_ofList_toDigits, String.toList_ofList,
    Nat.ofDigitChars_ten_toDigits] using hread

end BusinessAtlas
