import BusinessAtlas.Json.Access

/-!
# What is read from a value

A property that a value shares with its fields and items, and that texts and empty values have, is one
of whatever is read from the value: of a field, of its default, of the items of either.
-/

namespace BusinessAtlas.Json

/-- A property that passes from a value to its parts. -/
structure Hereditary (P : Json → Prop) : Prop where
  null : P .null
  text (s : String) : P (.text s)
  list {items : List Json} : P (.list items) ↔ ∀ v ∈ items, P v
  field {fields : List (String × Json)} : P (.record fields) → ∀ f ∈ fields, P f.2

namespace Hereditary

variable {P : Json → Prop} {v d : Json} {key : String} {spellings : List String}

theorem lookup (h : Hereditary P) {fields : List (String × Json)} (hv : P (.record fields))
    {w : Json} (hw : Json.lookup key fields = some w) : P w := by
  have hfields := h.field hv
  clear hv
  induction fields with
  | nil => cases hw
  | cons f rest ih =>
    obtain ⟨k, u⟩ := f
    rw [Json.lookup] at hw
    split at hw
    · cases hw
      exact hfields _ List.mem_cons_self
    · exact ih hw fun f hf => hfields f (List.mem_cons_of_mem _ hf)

theorem orElse (hv : P v) (hd : P d) : P (v.orElse d) := by
  unfold Json.orElse
  split
  · exact hd
  · exact hv

private theorem get (h : Hereditary P) (hv : P v) :
    Yields (v.get key) fun w => ∀ u, w = some u → P u := by
  intro w hw u hu
  cases v with
  | record fields =>
    cases hw
    exact h.lookup hv hu
  | _ => cases hw

theorem getD (h : Hereditary P) (hv : P v) (hd : P d) : Yields (v.getD key d) P := by
  refine Yields.bind (h.get hv) fun w hw => yields_ok ?_
  cases w with
  | none => exact hd
  | some u => exact hw u rfl

theorem getOr (h : Hereditary P) (hv : P v) (hd : P d) : Yields (v.getOr key d) P := by
  refine Yields.bind (h.get hv) fun w hw => yields_ok ?_
  cases w with
  | none => exact orElse h.null hd
  | some u => exact orElse (hw u rfl) hd

private theorem pick (h : Hereditary P) (hv : P v) :
    Yields (v.pick spellings) fun w => ∀ u, w = some u → P u := by
  induction spellings with
  | nil =>
    refine yields_ok ?_
    rintro u ⟨⟩
  | cons key rest ih =>
    unfold Json.pick
    split
    · split
      · exact ih
      · exact ih
      · next found hfound =>
        refine yields_ok ?_
        rintro u ⟨⟩
        exact h.lookup hv hfound
    · refine Yields.bind (yields_true _) fun b _ => ?_
      split
      · exact yields_error _
      · exact ih

theorem pickD (h : Hereditary P) (hv : P v) (hd : P d) : Yields (v.pickD spellings d) P := by
  refine Yields.bind (h.pick hv) fun w hw => yields_ok ?_
  cases w with
  | none => exact hd
  | some u => exact hw u rfl

theorem items (h : Hereditary P) (hv : P v) : Yields v.items fun vs => ∀ w ∈ vs, P w := by
  unfold Json.items
  split
  · exact yields_ok (h.list.mp hv)
  · refine yields_ok fun w hw => ?_
    obtain ⟨c, -, rfl⟩ := List.mem_map.mp hw
    exact h.text _
  · refine yields_ok fun w hw => ?_
    obtain ⟨k, -, rfl⟩ := List.mem_map.mp hw
    exact h.text _
  · exact yields_error _

theorem pickItems (h : Hereditary P) (hv : P v) :
    Yields (v.pickItems spellings) fun vs => ∀ w ∈ vs, P w :=
  Yields.bind (h.pickD hv (h.list.mpr nofun)) fun _ hw => h.items hw

theorem itemsOf (h : Hereditary P) (hv : P v) :
    Yields (v.itemsOf key) fun vs => ∀ w ∈ vs, P w :=
  Yields.bind (h.getOr hv (h.list.mpr nofun)) fun _ hw => h.items hw

end Hereditary

end BusinessAtlas.Json
