import BusinessAtlas.Json.Access
import BusinessAtlas.Text.Lowercase

/-!
# Classifying names

A classifier is a table of keywords and categories. The first row with a keyword that occurs in the
name decides; a name that no row fits gets the fallback. A table is one way to label names, and where
any other does as well, a `Labelling` is asked for.
-/

namespace BusinessAtlas

/-- A row of a table: any of the keywords leads to the category. -/
structure Classifier.Row where
  keywords : List String
  category : String

/-- A table of rows, the category of names that fit none, and whether letter case counts. -/
structure Classifier where
  rows : List Classifier.Row
  fallback : Option String
  caseSensitive : Bool

namespace Classifier

/-- The category of a text that is ready to be searched. -/
def firstMatch (fallback : Option String) (s : String) : List Row → Option String
  | [] => fallback
  | row :: rest =>
    if row.keywords.any fun k => Text.occurs k s then some row.category
    else firstMatch fallback s rest

def classify (c : Classifier) (name : String) : Option String :=
  firstMatch c.fallback (if c.caseSensitive then name else Text.lower name) c.rows

theorem classify_ne_none {c : Classifier} (h : c.fallback ≠ none) (name : String) :
    c.classify name ≠ none := by
  have hrows (s : String) (rows : List Row) : firstMatch c.fallback s rows ≠ none := by
    induction rows with
    | nil => exact h
    | cons row rest ih =>
      rw [firstMatch]
      split
      · exact Option.some_ne_none _
      · exact ih
  exact hrows _ _

/-- Whether one of the keywords is in a value, asked from left to right. -/
def anyWord (v : Json) : List String → Except Fault Bool
  | [] => .ok false
  | k :: rest => do
    if ← v.hasWord k then return true else anyWord v rest

/-- The category of a value that need not be a text. -/
def firstMatchOf (fallback : Option String) (v : Json) : List Row → Except Fault (Option String)
  | [] => .ok fallback
  | row :: rest => do
    if ← anyWord v row.keywords then return some row.category else firstMatchOf fallback v rest

/-- The category of a value. Letter case can only be passed over in a text. -/
def classifyValue (c : Classifier) (v : Json) : Except Fault (Option String) :=
  match v with
  | .text s => .ok (c.classify s)
  | v => if c.caseSensitive then firstMatchOf c.fallback v c.rows else .error .notText

end Classifier

/-- A way to label values, which may stop at a value or leave it without a label. -/
abbrev Labelling : Type := Json → Except Fault (Option String)

instance : Coe Classifier Labelling := ⟨Classifier.classifyValue⟩

end BusinessAtlas
