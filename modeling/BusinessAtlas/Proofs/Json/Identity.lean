import BusinessAtlas.Facts.Project
import BusinessAtlas.Proofs.Number.Order

/-!
# Identity and keys

The key of an identifier tells what a search among other values goes by: identifiers are one exactly
if they have one key. They are also the same, unless their key is that of the undefined number.
-/

namespace BusinessAtlas

open Binary64 (Extended)

namespace Ident

theorem numberKey_cases (n : Number) :
    (∃ q, n.extended? = some (.ofRat q) ∧ numberKey n = .number q) ∨
    (n.extended? = some ⊤ ∧ numberKey n = .infinite false) ∨
    (n.extended? = some ⊥ ∧ numberKey n = .infinite true) ∨
    (n.extended? = none ∧ numberKey n = .undefined) := by
  cases n with
  | int m => exact .inl ⟨m, rfl, rfl⟩
  | float x =>
    have hvalue : (Number.float x).extended? = Binary64.extended? x.toModel.unpack := rfl
    rcases Binary64.rational?_cases x with ⟨q, hrational, hq⟩ | ⟨hrational, hends⟩
    · have hfinite : (Number.float x).rational? = some q := hrational
      exact .inl ⟨q, hq, by rw [numberKey, hfinite]⟩
    · have hkey : numberKey (.float x) = if x.isNaN = true then .undefined else .infinite (x < 0) := by
        have hnone : (Number.float x).rational? = none := hrational
        rw [numberKey, hnone]
        rfl
      rw [hvalue, hkey]
      cases hp : Binary64.extended? x.toModel.unpack with
      | none =>
        rw [if_pos (Binary64.isNaN_iff.mpr hp)]
        exact .inr (.inr (.inr ⟨rfl, rfl⟩))
      | some p =>
        have hdefined : ¬x.isNaN = true := by
          rw [Binary64.isNaN_iff, hp]
          exact Option.some_ne_none p
        have hneg : x < 0 ↔ p < .ofRat 0 := by
          rw [Binary64.lt_zero_iff, hp]
          simp
        rw [if_neg hdefined]
        rcases hends p hp with rfl | rfl
        · exact .inr (.inr (.inl ⟨rfl, by simp [hneg]⟩))
        · exact .inr (.inl ⟨rfl, by simp [hneg]⟩)

theorem numberKey_eq_iff {a b : Number} :
    numberKey a = numberKey b ↔ a.extended? = b.extended? := by
  have hbot (q : ℚ) : (⊥ : Extended) ≠ .ofRat q := (Extended.bot_lt_ofRat q).ne
  have htop (q : ℚ) : (⊤ : Extended) ≠ .ofRat q := (Extended.ofRat_lt_top q).ne'
  rcases numberKey_cases a with ⟨p, ha, hka⟩ | ⟨ha, hka⟩ | ⟨ha, hka⟩ | ⟨ha, hka⟩ <;>
    rcases numberKey_cases b with ⟨q, hb, hkb⟩ | ⟨hb, hkb⟩ | ⟨hb, hkb⟩ | ⟨hb, hkb⟩ <;>
    simp [ha, hb, hka, hkb, hbot, htop, (hbot _).symm, (htop _).symm]

theorem numberKey_eq_undefined {a : Number} : numberKey a = .undefined ↔ a.extended? = none := by
  rcases numberKey_cases a with ⟨p, ha, hka⟩ | ⟨ha, hka⟩ | ⟨ha, hka⟩ | ⟨ha, hka⟩ <;> simp [ha, hka]

theorem number_same_iff {a b : Number} :
    a.same b = true ↔ numberKey a = numberKey b ∧ numberKey a ≠ .undefined := by
  rw [Number.same_iff, numberKey_eq_iff, Ne, numberKey_eq_undefined]
  cases a.extended? <;> cases b.extended? <;> simp [eq_comm]

end Ident

namespace Json

variable {a b : Json} {k : Key}

theorem key?_of_asNumber {m : Number} (h : a.asNumber? = some m) :
    a.key? = some (Ident.numberKey m) := by
  cases a <;> cases h <;> rfl

private theorem same_of_asNumber {m n : Number} (ha : a.asNumber? = some m)
    (hb : b.asNumber? = some n) : a.same b = m.same n := by
  cases a <;> cases ha <;> cases b <;> cases hb
  · next x y => cases x <;> cases y <;> rfl
  all_goals rfl

/-- A value is the same as an identifier if both have one key that is not the undefined one. -/
theorem same_iff (ha : a.key? = some k) : a.same b = true ↔ b.key? = some k ∧ k ≠ .undefined := by
  have hnumber (n : Number) : Ident.numberKey n ≠ .null ∧ ∀ t, Ident.numberKey n ≠ .text t := by
    rcases Ident.numberKey_cases n with ⟨q, -, h⟩ | ⟨-, h⟩ | ⟨-, h⟩ | ⟨-, h⟩ <;> simp [h]
  cases hm : a.asNumber? with
  | some m =>
    rw [key?_of_asNumber hm, Option.some_inj] at ha
    subst ha
    cases hn : b.asNumber? with
    | some n =>
      rw [same_of_asNumber hm hn, Ident.number_same_iff, key?_of_asNumber hn, Option.some_inj,
        eq_comm]
    | none =>
      obtain ⟨hnull, htext⟩ := hnumber m
      have hkey : b.key? ≠ some (Ident.numberKey m) := by
        cases b <;> simp_all [asNumber?, key?, ident?, Ident.key, eq_comm]
      have hsame : a.same b = false := by
        cases a <;> cases b <;> simp_all [asNumber?, same]
      simp [hkey, hsame]
  | none =>
    cases a with
    | null =>
      cases ha
      cases b <;> simp [same, key?, ident?, Ident.key, (hnumber _).1]
    | text s =>
      cases ha
      rw [same_text, Ident.key_text, key?_eq_some_text]
      simp
    | bool x => cases hm
    | number n => cases hm
    | list items => cases ha
    | record fields => cases ha

theorem isUndefined_iff : a.isUndefined = true ↔ a.key? = some .undefined := by
  have hkey (n : Number) : Ident.numberKey n = .undefined ↔ n.extended? = none :=
    Ident.numberKey_eq_undefined
  cases a with
  | number n =>
    rw [key?_of_asNumber (m := n) rfl, Option.some_inj, hkey]
    cases n with
    | int m => simp [isUndefined, Number.extended?]
    | float x => exact Binary64.isNaN_iff
  | bool x =>
    rw [key?_of_asNumber (m := .int (if x then 1 else 0)) rfl, Option.some_inj, hkey]
    simp [isUndefined, Number.extended?]
  | _ => simp [isUndefined, key?, ident?, Ident.key]

theorem isOne_iff (ha : a.key? = some k) : a.isOne b = true ↔ b.key? = some k := by
  rw [isOne, Bool.or_eq_true, Bool.and_eq_true, same_iff ha, isUndefined_iff, isUndefined_iff, ha]
  by_cases hk : k = .undefined
  · simp [hk]
  · simp [hk]

theorem isAmong_iff (ha : a.key? = some k) {others : List Json} :
    a.isAmong others = true ↔ ∃ b ∈ others, b.key? = some k := by
  simp only [isAmong, List.any_eq_true, isOne_iff ha]

end Json

end BusinessAtlas
