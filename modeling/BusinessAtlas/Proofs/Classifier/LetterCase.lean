import BusinessAtlas.Classifier.Tables
import BusinessAtlas.Proofs.Text.LetterCase

/-!
# Letter case in tables

A table that passes over letter case makes the letters of a text small, but not those of its own
keywords. So the case of the text does not count, while a keyword with a capital is never found in
an ASCII text. What a table may say of a text when its keywords are written in other ways are the
categories of the rows with a keyword that is in the text in some letter case, up to the first row
with a keyword that has no letters and is in the text, and the fallback where there is no such row.
The case of letters does not count exactly if all of these are one.
-/

namespace BusinessAtlas.Classifier

open Text (occurs lower small capital letterless)

namespace Row

/-- The row with each of its keywords written in another way. -/
def rewrite (f : String → String) (row : Row) : Row := { row with keywords := row.keywords.map f }

/-- The row with those of its keywords that have no capitals. -/
def withoutCapitals (row : Row) : Row :=
  { row with keywords := row.keywords.filter fun k => small k == k }

/-- One of the keywords is in the text. -/
def fits (s : String) (row : Row) : Bool := row.keywords.any fun k => occurs k s

/-- One of the keywords is in the text and cannot be written in another way. -/
def settles (s : String) (row : Row) : Bool :=
  row.keywords.any fun k => letterless k && occurs k s

end Row

/-- The table with each of its keywords written in another way. -/
def rewrite (f : String → String) (c : Classifier) : Classifier :=
  { c with rows := c.rows.map (Row.rewrite f) }

/-- The table with those of its keywords that have no capitals. -/
def withoutCapitals (c : Classifier) : Classifier :=
  { c with rows := c.rows.map Row.withoutCapitals }

/-- The tables differ at most in the case of ASCII letters in their keywords. -/
def SameLetters (c c' : Classifier) : Prop := c.rewrite small = c'.rewrite small

/-- What rows may say of a text, depending on how their keywords are written. -/
def answersFrom (fallback : Option String) (s : String) : List Row → List (Option String)
  | [] => [fallback]
  | row :: rest =>
    if row.settles s then [some row.category]
    else if (row.rewrite small).fits s then some row.category :: answersFrom fallback s rest
    else answersFrom fallback s rest

/-- What the table may say of a text, depending on how its keywords are written. -/
def answers (c : Classifier) (s : String) : List (Option String) :=
  answersFrom c.fallback (small s) c.rows

section

variable {fallback x : Option String} {row row' : Row} {rows rows' : List Row} {s : String}

theorem firstMatch_cons : firstMatch fallback s (row :: rows) =
    if row.fits s then some row.category else firstMatch fallback s rows := rfl

namespace Row

@[simp] theorem category_rewrite (f : String → String) (row : Row) :
    (row.rewrite f).category = row.category := rfl

@[simp] theorem small_rewrite_small (row : Row) :
    (row.rewrite small).rewrite small = row.rewrite small := by
  simp [rewrite, Function.comp_def]

@[simp] theorem small_rewrite_capital (row : Row) :
    (row.rewrite capital).rewrite small = row.rewrite small := by
  simp [rewrite, Function.comp_def]

theorem fits_of_settles (h : row.settles s = true) : row.fits s = true := by
  obtain ⟨k, hk, hboth⟩ := List.any_eq_true.mp h
  rw [Bool.and_eq_true] at hboth
  exact List.any_eq_true.mpr ⟨k, hk, hboth.2⟩

theorem settles_small : (row.rewrite small).settles s = row.settles s := by
  have hword (k : String) : (letterless k && occurs (small k) s) =
      (letterless k && occurs k s) := by
    by_cases hk : letterless k = true
    · rw [Text.small_of_letterless hk]
    · simp [hk]
  simp [settles, rewrite, Function.comp_def, hword]

theorem fits_small (h : row.fits (small s) = true) : (row.rewrite small).fits (small s) = true := by
  obtain ⟨k, hk, hoccurs⟩ := List.any_eq_true.mp h
  apply List.any_eq_true.mpr
  refine ⟨small k, List.mem_map_of_mem hk, ?_⟩
  rw [Text.small_of_occurs hoccurs]
  exact hoccurs

theorem settles_of_fits_capital (h : (row.rewrite capital).fits (small s) = true) :
    row.settles (small s) = true := by
  obtain ⟨word, hword, hoccurs⟩ := List.any_eq_true.mp h
  obtain ⟨k, hk, rfl⟩ := List.mem_map.mp hword
  have hnone := Text.letterless_of_occurs_capital hoccurs
  have hsame : Text.SameLetters k (capital k) := (Text.small_capital k).symm
  rw [hsame.eq_of_letterless hnone] at hoccurs
  apply List.any_eq_true.mpr
  exact ⟨k, hk, by simp [hnone, hoccurs]⟩

theorem fits_withoutCapitals : row.withoutCapitals.fits (small s) = row.fits (small s) := by
  have hword (k : String) : (small k == k && occurs k (small s)) = occurs k (small s) := by
    by_cases hk : occurs k (small s) = true
    · simp [Text.small_of_occurs hk]
    · simp [hk]
  simp [fits, withoutCapitals, List.any_filter, hword]

end Row

theorem firstMatch_mem_answersFrom
    (h : rows'.map (Row.rewrite small) = rows.map (Row.rewrite small)) :
    firstMatch fallback (small s) rows' ∈ answersFrom fallback (small s) rows := by
  induction rows generalizing rows' with
  | nil =>
    obtain rfl := List.map_eq_nil_iff.mp h
    simp [firstMatch, answersFrom]
  | cons row rows ih =>
    cases rows' with
    | nil => cases h
    | cons row' rows' =>
      obtain ⟨hrow, hrows⟩ := List.cons.inj h
      have hcategory : row'.category = row.category := by
        simpa using congrArg Row.category hrow
      have hlater := ih hrows
      rw [firstMatch_cons, answersFrom, hcategory]
      by_cases hsettles : row.settles (small s) = true
      · have hsettles' : row'.settles (small s) = true := by
          rw [← Row.settles_small, hrow, Row.settles_small]
          exact hsettles
        simp [hsettles, Row.fits_of_settles hsettles']
      · by_cases hfits : row'.fits (small s) = true
        · have hsmall := Row.fits_small hfits
          rw [hrow] at hsmall
          simp [hsettles, hfits, hsmall]
        · by_cases hsmall : (row.rewrite small).fits (small s) = true
          · simp [hsettles, hfits, hsmall, hlater]
          · simp [hsettles, hfits, hsmall, hlater]

theorem exists_firstMatch (h : x ∈ answersFrom fallback (small s) rows) :
    ∃ rows', rows'.map (Row.rewrite small) = rows.map (Row.rewrite small) ∧
      firstMatch fallback (small s) rows' = x := by
  induction rows with
  | nil => exact ⟨[], rfl, (List.mem_singleton.mp h).symm⟩
  | cons row rows ih =>
    rw [answersFrom] at h
    by_cases hsettles : row.settles (small s) = true
    · refine ⟨row :: rows, rfl, ?_⟩
      have hx : x = some row.category := by simpa [hsettles] using h
      simp [firstMatch_cons, Row.fits_of_settles hsettles, hx]
    · have hcapital : (row.rewrite capital).fits (small s) = false := by
        rw [← Bool.not_eq_true]
        exact fun hfits => hsettles (Row.settles_of_fits_capital hfits)
      have hlater (hx : x ∈ answersFrom fallback (small s) rows) :
          ∃ rows', rows'.map (Row.rewrite small) = (row :: rows).map (Row.rewrite small) ∧
            firstMatch fallback (small s) rows' = x := by
        obtain ⟨rows', hrows, hfirst⟩ := ih hx
        refine ⟨row.rewrite capital :: rows', ?_, ?_⟩
        · simp [hrows]
        · simp [firstMatch_cons, hcapital, hfirst]
      by_cases hsmall : (row.rewrite small).fits (small s) = true
      · rw [if_neg hsettles, if_pos hsmall, List.mem_cons] at h
        rcases h with hx | hx
        · refine ⟨row.rewrite small :: rows, ?_, ?_⟩
          · simp
          · simp [firstMatch_cons, hsmall, hx]
        · exact hlater hx
      · rw [if_neg hsettles, if_neg hsmall] at h
        exact hlater h

theorem head?_answersFrom : (answersFrom fallback (small s) rows).head? =
    some (firstMatch fallback (small s) (rows.map (Row.rewrite small))) := by
  induction rows with
  | nil => rfl
  | cons row rows ih =>
    rw [List.map_cons, firstMatch_cons, answersFrom]
    by_cases hsettles : row.settles (small s) = true
    · have hfits := Row.fits_small (Row.fits_of_settles hsettles)
      simp [hsettles, hfits]
    · by_cases hsmall : (row.rewrite small).fits (small s) = true
      · simp [hsettles, hsmall]
      · simp [hsettles, hsmall, ih]

theorem firstMatch_withoutCapitals : firstMatch fallback (small s) (rows.map Row.withoutCapitals) =
    firstMatch fallback (small s) rows := by
  induction rows with
  | nil => rfl
  | cons row rows ih =>
    rw [List.map_cons, firstMatch_cons, firstMatch_cons, Row.fits_withoutCapitals, ih]
    rfl

namespace SameLetters

variable {c c' : Classifier}

theorem rows_eq (h : c.SameLetters c') :
    c'.rows.map (Row.rewrite small) = c.rows.map (Row.rewrite small) := congrArg (·.rows) h.symm

theorem fallback_eq (h : c.SameLetters c') : c'.fallback = c.fallback :=
  congrArg (·.fallback) h.symm

theorem caseSensitive_eq (h : c.SameLetters c') : c'.caseSensitive = c.caseSensitive :=
  congrArg (·.caseSensitive) h.symm

end SameLetters

theorem classify_of_ascii {c : Classifier} (hc : c.caseSensitive = false) (hs : Text.Ascii s) :
    c.classify s = firstMatch c.fallback (small s) c.rows := by
  simp [classify, hc, Text.lower_of_ascii hs]

theorem classify_of_sameLetters {c : Classifier} {t : String} (hc : c.caseSensitive = false)
    (hs : Text.Ascii s) (h : Text.SameLetters s t) : c.classify t = c.classify s := by
  simp [classify, hc, h.lower_eq hs]

theorem mem_answers_iff {c : Classifier} (hc : c.caseSensitive = false) (hs : Text.Ascii s) :
    x ∈ c.answers s ↔ ∃ c', c.SameLetters c' ∧ c'.classify s = x := by
  constructor
  · intro hx
    obtain ⟨rows', hrows, rfl⟩ := exists_firstMatch hx
    refine ⟨{ c with rows := rows' }, ?_, classify_of_ascii hc hs⟩
    simp [SameLetters, rewrite, hrows]
  · rintro ⟨c', hsame, rfl⟩
    rw [classify_of_ascii (hsame.caseSensitive_eq.trans hc) hs, answers, hsame.fallback_eq]
    exact firstMatch_mem_answersFrom hsame.rows_eq

/-- How the case of letters tells in what a table says of a text. -/
structure TellsCase (c : Classifier) (s : String) : Prop where
  text : ∀ t, Text.SameLetters s t → c.classify t = c.classify s
  withoutCapitals : c.withoutCapitals.classify s = c.classify s
  answers_iff : ∀ x, x ∈ c.answers s ↔ ∃ c', c.SameLetters c' ∧ c'.classify s = x
  head?_answers : (c.answers s).head? = some ((c.rewrite small).classify s)
  blind_iff : (∀ c' t, c.SameLetters c' → Text.SameLetters s t → c'.classify t = c.classify s) ↔
    ∀ x ∈ c.answers s, ∀ y ∈ c.answers s, x = y

/-- A table that passes over letter case does so in ASCII texts, but not in its own keywords. -/
theorem tellsCase_classify (c : Classifier) (s : String) (hc : c.caseSensitive = false)
    (hs : Text.Ascii s) : c.TellsCase s := by
  have hanswers (x : Option String) := mem_answers_iff (x := x) hc hs
  constructor
  case text => exact fun t => classify_of_sameLetters hc hs
  case withoutCapitals =>
    rw [classify_of_ascii hc hs, classify_of_ascii (c := c.withoutCapitals) hc hs]
    exact firstMatch_withoutCapitals
  case answers_iff => exact hanswers
  case head?_answers =>
    rw [classify_of_ascii (c := c.rewrite small) hc hs]
    exact head?_answersFrom
  case blind_iff =>
    constructor
    · intro hblind x hx y hy
      obtain ⟨c₁, hsame₁, rfl⟩ := (hanswers x).mp hx
      obtain ⟨c₂, hsame₂, rfl⟩ := (hanswers y).mp hy
      rw [hblind c₁ s hsame₁ rfl, hblind c₂ s hsame₂ rfl]
    · intro hone c' t hsame ht
      rw [classify_of_sameLetters (hsame.caseSensitive_eq.trans hc) hs ht]
      apply hone
      · exact (hanswers _).mpr ⟨c', hsame, rfl⟩
      · exact (hanswers _).mpr ⟨c, rfl, rfl⟩

theorem tellsCase_classify_todo : entryPoint.caseSensitive = false ∧ Text.Ascii "TodoList" ∧
    entryPoint.answers "TodoList" = [some "list", none] ∧ entryPoint.TellsCase "TodoList" := by
  have hs : Text.Ascii "TodoList" := by decide
  exact ⟨rfl, hs, by decide, tellsCase_classify entryPoint "TodoList" rfl hs⟩

private def kit (keyword : String) : Classifier := ⟨[⟨[keyword], "ui"⟩], none, false⟩

/-- A kit is found by its keyword in small letters, but not by the same in capitals. -/
theorem not_blind_kit : ¬∀ (c c' : Classifier) (s t : String), c.caseSensitive = false →
    Text.Ascii s → c.SameLetters c' → Text.SameLetters s t → c'.classify t = c.classify s := by
  intro hblind
  have hs : Text.Ascii "UI Kit" := by decide
  have hsame : (kit "ui").SameLetters (kit "UI") := by rfl
  have hfound := hblind (kit "ui") (kit "UI") "UI Kit" "UI Kit" rfl hs hsame rfl
  exact absurd hfound (by decide)

end

end BusinessAtlas.Classifier
