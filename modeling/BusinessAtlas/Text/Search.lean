/-!
# Finding, cutting and joining

Substring search, cutting at a separator and replacing, on lists of characters, with their forms
on strings. The laws that later modules cite stand beside each definition.
-/

namespace BusinessAtlas.Text

/-- Whether `needle` occurs in a text as a run of consecutive characters. -/
def occursIn (needle : List Char) : List Char → Bool
  | [] => needle.isEmpty
  | c :: cs => needle.isPrefixOf (c :: cs) || occursIn needle cs

/-- Whether `needle` occurs in `s`; the empty text occurs everywhere. -/
def occurs (needle s : String) : Bool := occursIn needle.toList s.toList

theorem occursIn_iff (needle s : List Char) :
    occursIn needle s = true ↔ ∃ before after, s = before ++ needle ++ after := by
  induction s with
  | nil => simp [occursIn, List.isEmpty_iff]
  | cons c cs ih =>
    simp only [occursIn, Bool.or_eq_true, List.isPrefixOf_iff_prefix, ih]
    constructor
    · rintro (⟨after, h⟩ | ⟨before, after, h⟩)
      · exact ⟨[], after, by simpa using h.symm⟩
      · exact ⟨c :: before, after, by simp [h]⟩
    · rintro ⟨before, after, h⟩
      cases before with
      | nil => exact .inl ⟨after, by simpa using h.symm⟩
      | cons d before =>
        simp only [List.cons_append, List.cons.injEq] at h
        exact .inr ⟨before, after, h.2⟩

def startsWith (start s : String) : Bool := start.toList.isPrefixOf s.toList

/-- The pieces of a text between the occurrences of the separator `sep`, from left to right;
`skip` counts the characters of the current separator still to be passed over. -/
def splitFrom (sep : List Char) (skip : Nat) (current : List Char) : List Char → List (List Char)
  | [] => [current.reverse]
  | c :: cs =>
    match skip with
    | k + 1 => splitFrom sep k current cs
    | 0 =>
      if sep.isPrefixOf (c :: cs) then
        current.reverse :: splitFrom sep (sep.length - 1) [] cs
      else splitFrom sep 0 (c :: current) cs

/-- The pieces of `s` between the occurrences of `sep`, a separator that is not empty. -/
def splitOn (sep s : String) : List String :=
  (splitFrom sep.toList 0 [] s.toList).map String.ofList

theorem splitFrom_ne_nil (sep : List Char) (skip : Nat) (current cs : List Char) :
    splitFrom sep skip current cs ≠ [] := by
  induction cs generalizing skip current with
  | nil => exact List.cons_ne_nil _ _
  | cons c cs ih =>
    cases skip with
    | succ k => exact ih k current
    | zero =>
      rw [splitFrom]
      split
      · exact List.cons_ne_nil _ _
      · exact ih 0 (c :: current)

theorem intercalate_splitFrom {sep : List Char} (hsep : sep ≠ []) (skip : Nat)
    (current cs : List Char) :
    sep.intercalate (splitFrom sep skip current cs) = current.reverse ++ cs.drop skip := by
  induction cs generalizing skip current with
  | nil => simp [splitFrom]
  | cons c cs ih =>
    cases skip with
    | succ k => exact ih k current
    | zero =>
      rw [splitFrom, List.drop_zero]
      split
      · next hstart =>
        obtain ⟨rest, hrest⟩ := List.isPrefixOf_iff_prefix.mp hstart
        obtain ⟨d, tail, rfl⟩ := List.exists_cons_of_ne_nil hsep
        obtain ⟨rfl, rfl⟩ := List.cons.inj hrest
        rw [List.intercalate_cons_of_ne_nil (splitFrom_ne_nil _ _ _ _), ih]
        simp
      · rw [ih]
        simp

theorem intercalate_splitOn {sep : String} (hsep : sep.toList ≠ []) (s : String) :
    sep.intercalate (splitOn sep s) = s := by
  rw [← String.toList_inj, String.toList_intercalate, splitOn, List.map_map]
  have hchars : (splitFrom sep.toList 0 [] s.toList).map (String.toList ∘ String.ofList) =
      splitFrom sep.toList 0 [] s.toList := by
    simp [Function.comp_def]
  rw [hchars, intercalate_splitFrom hsep]
  rfl

/-- `s` with `new` in place of every occurrence of `old`. -/
def replace (old new s : String) : String := new.intercalate (splitOn old s)

/-- The part of `s` before the first `sep`, all of `s` if there is none. -/
def before (sep s : String) : String := (splitOn sep s).headD s

def join (sep : String) (pieces : List String) : String := sep.intercalate pieces

def copies (n : Nat) (c : Char) : String := .ofList (List.replicate n c)

/-- `s` filled up with `c` on the left to `width` characters. -/
def padLeft (width : Nat) (c : Char) (s : String) : String := copies (width - s.length) c ++ s

/-- `s` filled up with `c` on the right to `width` characters. -/
def padRight (width : Nat) (c : Char) (s : String) : String := s ++ copies (width - s.length) c

/-- Line ends written as carriage return, line feed or both become line feeds. -/
def unifyLineEnds : List Char → List Char
  | '\r' :: '\n' :: cs => '\n' :: unifyLineEnds cs
  | '\r' :: cs => '\n' :: unifyLineEnds cs
  | c :: cs => c :: unifyLineEnds cs
  | [] => []

end BusinessAtlas.Text
