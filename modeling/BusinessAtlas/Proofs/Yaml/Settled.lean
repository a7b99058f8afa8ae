import BusinessAtlas.Yaml.Value
import Mathlib.Data.List.Nodup

/-!
# Values of settings files

A value that is settled has no two pairs with one text for a key.
-/

namespace BusinessAtlas.Yaml

variable {key value : Yaml} {pairs done : List (Yaml × Yaml)}

/-- The text that a key is, if it is one. -/
def name? : Yaml → Option String
  | .text s => some s
  | _ => none

theorem keys_pairsToJson (pairs : List (Yaml × Yaml)) :
    Json.keys (pairsToJson pairs) = (pairs.map (·.1)).filterMap name? := by
  induction pairs with
  | nil => rfl
  | cons p rest ih =>
    obtain ⟨k, v⟩ := p
    cases k with
    | text s => exact congrArg (s :: ·) ih
    | _ => exact ih

theorem sameKey_text (s : String) : sameKey (.text s) (.text s) = true :=
  (Json.same_text s (.text s)).mpr rfl

private theorem map_put (key value : Yaml) (pairs : List (Yaml × Yaml)) :
    (put key value pairs).map (·.1) = pairs.map (·.1) ∨
      (put key value pairs).map (·.1) = pairs.map (·.1) ++ [key] ∧
        ∀ k ∈ pairs.map (·.1), sameKey k key = false := by
  induction pairs with
  | nil => exact .inr ⟨rfl, nofun⟩
  | cons p rest ih =>
    obtain ⟨k, v⟩ := p
    rw [put]
    cases hsame : sameKey k key with
    | true => exact .inl rfl
    | false =>
      refine ih.imp (congrArg (k :: ·)) fun ⟨hput, hnew⟩ => ⟨congrArg (k :: ·) hput, ?_⟩
      exact List.forall_mem_cons.mpr ⟨hsame, hnew⟩

private theorem nodup_keys_put (h : (Json.keys (pairsToJson pairs)).Nodup) :
    (Json.keys (pairsToJson (put key value pairs))).Nodup := by
  rw [keys_pairsToJson] at h ⊢
  rcases map_put key value pairs with hput | ⟨hput, hnew⟩
  · rwa [hput]
  · rw [hput, List.filterMap_append, List.nodup_append]
    cases key with
    | text s =>
      refine ⟨h, List.nodup_singleton s, fun name hname other hother hsame => ?_⟩
      obtain ⟨k, hk, hkname⟩ := List.mem_filterMap.mp hname
      rw [hsame, List.mem_singleton.mp hother] at hkname
      cases k with
      | text t =>
        cases hkname
        exact absurd (sameKey_text s) (by simp [hnew _ hk])
      | _ => cases hkname
    | _ => exact ⟨h, List.nodup_nil, fun _ _ _ hother => absurd hother List.not_mem_nil⟩

private theorem nodup_keys_settledPairs (h : (Json.keys (pairsToJson done)).Nodup)
    (pairs : List (Yaml × Yaml)) :
    (Json.keys (pairsToJson (settledPairs done pairs))).Nodup := by
  induction pairs generalizing done with
  | nil => exact h
  | cons p rest ih => exact ih (nodup_keys_put h)

/-- A mapping that is settled has no text for a key twice. -/
theorem nodup_keys_of_settled {v : Yaml} (h : v.settled = .mapping pairs) :
    (Json.keys (pairsToJson pairs)).Nodup := by
  cases v with
  | mapping given =>
    cases h
    have hnone : (Json.keys (pairsToJson [])).Nodup := List.nodup_nil
    exact nodup_keys_settledPairs hnone given
  | _ => cases h

end BusinessAtlas.Yaml
