import BusinessAtlas.Json.Printer
import BusinessAtlas.Proofs.Decimal.Numeral

/-!
# Written JSON

What is written of a value is a JSON text exactly if every number in the value is finite. What is
written of finite numbers follows the rules of the grammar; a number that is infinite or undefined
is written as a word outside of the strings, where the grammar has no such word.
-/

namespace BusinessAtlas

/-- The number has a decimal notation. -/
def Number.Finite : Number → Prop
  | .int _ => True
  | .float x => (x.isNaN || x.isInf) = false

instance : DecidablePred Number.Finite
  | .int _ => inferInstanceAs (Decidable True)
  | .float x => inferInstanceAs (Decidable ((x.isNaN || x.isInf) = false))

namespace Json

/-- A value is taken apart into the items of its lists and the fields of its records. -/
@[elab_as_elim]
theorem induction {motive : Json → Prop} (null : motive .null) (bool : ∀ b, motive (.bool b))
    (number : ∀ n, motive (.number n)) (text : ∀ s, motive (.text s))
    (list : ∀ items, (∀ v ∈ items, motive v) → motive (.list items))
    (record : ∀ fields, (∀ f ∈ fields, motive f.2) → motive (.record fields)) :
    ∀ v, motive v
  | .null => null
  | .bool b => bool b
  | .number n => number n
  | .text s => text s
  | .list items => list items fun v _ => induction null bool number text list record v
  | .record fields => record fields fun f _ => induction null bool number text list record f.2
termination_by v => sizeOf v
decreasing_by
  · decreasing_tactic
  · next hf =>
    have hsize := List.sizeOf_lt_of_mem hf
    obtain ⟨k, v⟩ := f
    simp only [Prod.mk.sizeOf_spec, Json.record.sizeOf_spec] at hsize ⊢
    omega

/-- The number stands somewhere in the value. -/
inductive Holds (n : Number) : Json → Prop where
  | self : Holds n (.number n)
  | item {v : Json} {items : List Json} : v ∈ items → Holds n v → Holds n (.list items)
  | field {f : String × Json} {fields : List (String × Json)} :
    f ∈ fields → Holds n f.2 → Holds n (.record fields)

/-- All numbers in the value are finite. -/
def Finite (v : Json) : Prop := ∀ n, Holds n v → n.Finite

section

variable {n : Number} {items : List Json} {fields : List (String × Json)}

@[simp] theorem finite_null : Finite .null := nofun

@[simp] theorem finite_bool (b : Bool) : Finite (.bool b) := nofun

@[simp] theorem finite_text (s : String) : Finite (.text s) := nofun

@[simp] theorem finite_number : Finite (.number n) ↔ n.Finite :=
  ⟨fun h => h n .self, fun h _ => fun | .self => h⟩

@[simp] theorem finite_nat (k : Nat) : Finite (.nat k) := finite_number.mpr trivial

@[simp] theorem finite_list : Finite (.list items) ↔ ∀ v ∈ items, v.Finite :=
  ⟨fun h _ hv n hn => h n (.item hv hn), fun h n => fun | .item hv hn => h _ hv n hn⟩

@[simp] theorem finite_record : Finite (.record fields) ↔ ∀ f ∈ fields, f.2.Finite :=
  ⟨fun h _ hf n hn => h n (.field hf hn), fun h n => fun | .field hf hn => h _ hf n hn⟩

@[simp] theorem finite_texts (ts : List String) : Finite (.texts ts) := by
  simp [texts]

@[simp] theorem finite_text? (o : Option String) : Finite (.text? o) := by
  cases o <;> simp [text?]

end

mutual

/-- Whether all numbers in the value are finite. -/
def isFinite : Json → Bool
  | .number n => decide n.Finite
  | .list items => areFinite items
  | .record fields => haveFinite fields
  | _ => true

/-- Whether all numbers in the items are finite. -/
def areFinite : List Json → Bool
  | [] => true
  | v :: rest => v.isFinite && areFinite rest

/-- Whether all numbers in the fields are finite. -/
def haveFinite : List (String × Json) → Bool
  | [] => true
  | (_, v) :: rest => v.isFinite && haveFinite rest

end

theorem isFinite_iff (v : Json) : v.isFinite = true ↔ v.Finite := by
  induction v using Json.induction with
  | number n => simp [isFinite]
  | list items ih =>
    have hitems : areFinite items = true ↔ ∀ v ∈ items, v.Finite := by
      induction items with
      | nil => simp [areFinite]
      | cons v rest ihrest =>
        obtain ⟨hv, hrest⟩ := List.forall_mem_cons.mp ih
        rw [areFinite, Bool.and_eq_true, hv, ihrest hrest, List.forall_mem_cons]
    rw [isFinite, hitems, finite_list]
  | record fields ih =>
    have hfields : haveFinite fields = true ↔ ∀ f ∈ fields, f.2.Finite := by
      induction fields with
      | nil => simp [haveFinite]
      | cons f rest ihrest =>
        obtain ⟨hf, hrest⟩ := List.forall_mem_cons.mp ih
        rw [haveFinite, Bool.and_eq_true, hf, ihrest hrest, List.forall_mem_cons]
    rw [isFinite, hfields, finite_record]
  | _ => simp [isFinite]

instance : DecidablePred Finite := fun v => decidable_of_iff _ v.isFinite_iff

namespace Strict

/-- Between the parts of a list or record there are a comma and space. -/
structure Blank (layout : Layout) : Prop where
  line (depth : Nat) : Space (layout.line depth).toList
  comma : ∃ ws, Space ws ∧ layout.comma.toList = ',' :: ws

theorem blank_compact : Blank .compact :=
  ⟨fun _ => nofun, [' '], List.forall_mem_singleton.mpr (by decide), rfl⟩

theorem blank_indented : Blank .indented := by
  refine ⟨fun depth => ?_, [], nofun, rfl⟩
  rw [Layout.indented, String.toList_ofList]
  refine List.forall_mem_cons.mpr ⟨by decide, fun c hc => ?_⟩
  rw [List.eq_of_mem_replicate hc]
  decide

theorem Space.append {a b : List Char} (ha : Space a) (hb : Space b) : Space (a ++ b) :=
  List.forall_mem_append.mpr ⟨ha, hb⟩

section

private theorem isSome_hexDigit {n : Nat} (h : n < 16) :
    (Text.hexDigit? (Nat.digitChar n)).isSome = true := by
  have hdigits : ∀ n : Fin 16, (Text.hexDigit? (Nat.digitChar n)).isSome = true := by decide
  exact hdigits ⟨n, h⟩

private theorem letter_code (n : Nat) : Letter ('\\' :: 'u' :: Text.hexDigits 4 n) := by
  refine .code rfl ?_
  simp only [Text.hexDigits, List.nil_append, List.cons_append, List.forall_mem_cons]
  exact ⟨isSome_hexDigit (Nat.mod_lt _ (by decide)), isSome_hexDigit (Nat.mod_lt _ (by decide)),
    isSome_hexDigit (Nat.mod_lt _ (by decide)), isSome_hexDigit (Nat.mod_lt _ (by decide)), nofun⟩

private theorem exists_letters (c : Char) :
    ∃ letters : List (List Char), (∀ l ∈ letters, Letter l) ∧ escapedChar c = letters.flatten := by
  have hone {l : List Char} (hl : Letter l) :
      ∃ letters : List (List Char), (∀ l ∈ letters, Letter l) ∧ l = letters.flatten :=
    ⟨[l], List.forall_mem_singleton.mpr hl, List.flatten_singleton.symm⟩
  have hpair {l m : List Char} (hl : Letter l) (hm : Letter m) :
      ∃ letters : List (List Char), (∀ l ∈ letters, Letter l) ∧ l ++ m = letters.flatten :=
    ⟨[l, m], List.forall_mem_cons.mpr ⟨hl, List.forall_mem_singleton.mpr hm⟩, by simp⟩
  by_cases hc : c ∈ ['"', '\\', '\n', '\r', '\t', '\x0c', '\x08']
  · have hescapes : ∀ c ∈ ['"', '\\', '\n', '\r', '\t', '\x0c', '\x08'],
        ∃ d ∈ ['"', '\\', '/', 'b', 'f', 'n', 'r', 't'], escapedChar c = ['\\', d] := by simp [escapedChar]
    obtain ⟨d, hd, hescape⟩ := hescapes c hc
    rw [hescape]
    exact hone (.escape hd)
  · simp only [List.mem_cons, List.not_mem_nil, or_false, not_or] at hc
    simp only [escapedChar, beq_iff_eq, hc, if_false]
    split
    · next hplain =>
      simp only [Bool.and_eq_true, decide_eq_true_eq] at hplain
      exact hone (.plain hplain.1 hc.1 hc.2.1)
    split
    · exact hone (letter_code _)
    · exact hpair (letter_code _) (letter_code _)

end

theorem token_writtenText (s : String) : Token (writtenText s).toList := by
  have hletters (cs : List Char) : ∃ letters : List (List Char),
      (∀ l ∈ letters, Letter l) ∧ cs.flatMap escapedChar = letters.flatten := by
    induction cs with
    | nil => exact ⟨[], nofun, rfl⟩
    | cons c cs ih =>
      obtain ⟨first, hfirst, hc⟩ := exists_letters c
      obtain ⟨rest, hrest, hcs⟩ := ih
      refine ⟨first ++ rest, List.forall_mem_append.mpr ⟨hfirst, hrest⟩, ?_⟩
      rw [List.flatMap_cons, hc, hcs, List.flatten_append]
  obtain ⟨letters, hall, hs⟩ := hletters s.toList
  exact ⟨letters, hall, by rw [writtenText, String.toList_ofList, hs]⟩

theorem numeral_writtenNumber {n : Number} (h : n.Finite) : Numeral (writtenNumber n).toList := by
  cases n with
  | int n => exact Decimal.numeral_toString n
  | float x =>
    obtain ⟨hnan, hinf⟩ := Bool.or_eq_false_iff.mp h
    rw [writtenNumber, hnan, hinf]
    exact Decimal.numeral_shortest h

theorem wordless_writtenNumber {n : Number} (h : Wordless (writtenNumber n).toList) : n.Finite := by
  have hwords : ¬Wordless "NaN".toList ∧ ¬Wordless "-Infinity".toList ∧
      ¬Wordless "Infinity".toList := by
    simp [Wordless, bare]
  cases n with
  | int n => exact trivial
  | float x =>
    refine Bool.or_eq_false_iff.mpr ⟨Bool.eq_false_iff.mpr fun hnan => ?_,
      Bool.eq_false_iff.mpr fun hinf => ?_⟩
    · rw [writtenNumber, if_pos hnan] at h
      exact hwords.1 h
    · by_cases hnan : x.isNaN = true
      · rw [writtenNumber, if_pos hnan] at h
        exact hwords.1 h
      · rw [writtenNumber, if_neg hnan, if_pos hinf] at h
        split at h
        · exact hwords.2.1 h
        · exact hwords.2.2 h

theorem closed_writtenNumber (n : Number) : Closed (writtenNumber n).toList := by
  by_cases hn : n.Finite
  · exact (sound_of_numeral (numeral_writtenNumber hn)).closed
  · cases n with
    | int n => exact absurd trivial hn
    | float x =>
      have hword : x.isNaN = true ∨ x.isInf = true := by
        simpa [Number.Finite, or_iff_not_imp_left] using hn
      have hquoteless : '"' ∉ (writtenNumber (.float x)).toList := by
        rw [writtenNumber]
        split
        · decide
        · split
          · split <;> decide
          · next hnan hinf => exact (hword.elim hnan hinf).elim
      exact closed_of_quoteless hquoteless

section

variable {separator : List Char} {parts : List (List Char)}

theorem closed_intercalate (hseparator : Closed separator) (h : ∀ p ∈ parts, Closed p) :
    Closed (separator.intercalate parts) := by
  induction parts with
  | nil => exact closed_of_quoteless List.not_mem_nil
  | cons p rest ih =>
    obtain ⟨hp, hrest⟩ := List.forall_mem_cons.mp h
    cases rest with
    | nil => rwa [List.intercalate_singleton]
    | cons q rest =>
      rw [List.intercalate_cons_cons]
      exact (hp.append hseparator).append (ih hrest)

theorem wordless_of_intercalate (hseparator : Closed separator) (h : ∀ p ∈ parts, Closed p)
    (hwordless : Wordless (separator.intercalate parts)) : ∀ p ∈ parts, Wordless p := by
  induction parts with
  | nil => exact nofun
  | cons p rest ih =>
    obtain ⟨hp, hrest⟩ := List.forall_mem_cons.mp h
    cases rest with
    | nil =>
      rw [List.intercalate_singleton] at hwordless
      exact List.forall_mem_singleton.mpr hwordless
    | cons q rest =>
      rw [List.intercalate_cons_cons, (hp.append hseparator).wordless_append, hp.wordless_append]
        at hwordless
      exact List.forall_mem_cons.mpr ⟨hwordless.1.1, ih hrest hwordless.2⟩

theorem derives_intercalate {σ : Symbol} {ws before after : List Char} (hws : Space ws)
    (hbefore : Space before) (hparts : parts ≠ [])
    (hlast : ∀ a, Space a → ∀ p ∈ parts, Derives σ (a ++ p ++ after))
    (hmore : ∀ a, Space a → ∀ p ∈ parts, ∀ rest, Derives σ rest →
      Derives σ (a ++ p ++ ',' :: rest)) :
    Derives σ (before ++ (',' :: ws).intercalate parts ++ after) := by
  induction parts generalizing before with
  | nil => exact absurd rfl hparts
  | cons p rest ih =>
    cases rest with
    | nil =>
      rw [List.intercalate_singleton]
      exact hlast before hbefore p List.mem_cons_self
    | cons q rest =>
      have hrest := ih hws (List.cons_ne_nil q rest)
        (fun a ha p hp => hlast a ha p (List.mem_cons_of_mem _ hp))
        (fun a ha p hp => hmore a ha p (List.mem_cons_of_mem _ hp))
      have hjoined := hmore before hbefore p List.mem_cons_self _ hrest
      rw [List.intercalate_cons_cons]
      simpa only [List.append_assoc, List.cons_append] using hjoined

end

section

variable {layout : Layout} {opening closing : String}

theorem bracketed_nil (layout : Layout) (depth : Nat) (opening closing : String) :
    bracketed layout depth opening closing [] = opening ++ closing := rfl

theorem toList_bracketed (layout : Layout) (depth : Nat) (opening closing : String)
    {parts : List String} (h : parts ≠ []) :
    (bracketed layout depth opening closing parts).toList = opening.toList ++
      ((layout.line (depth + 1)).toList ++
        (layout.comma.toList ++ (layout.line (depth + 1)).toList).intercalate
          (parts.map String.toList) ++ (layout.line depth).toList) ++ closing.toList := by
  rw [bracketed, if_neg (by simpa using h)]
  simp only [String.toList_append, String.toList_intercalate, List.append_assoc]

theorem writeItems_eq (layout : Layout) (depth : Nat) (items : List Json) :
    writeItems layout depth items = items.map (write layout depth) := by
  induction items with
  | nil => rfl
  | cons v rest ih => rw [writeItems, ih, List.map_cons]

theorem writeFields_eq (layout : Layout) (depth : Nat) (fields : List (String × Json)) :
    writeFields layout depth fields =
      fields.map fun f => writtenText f.1 ++ ": " ++ write layout depth f.2 := by
  induction fields with
  | nil => rfl
  | cons f rest ih => rw [writeFields, ih, List.map_cons]

private theorem derives_writtenList (hlayout : Blank layout) (depth : Nat) {items : List Json}
    (h : ∀ v ∈ items, Derives .value (write layout (depth + 1) v).toList) :
    Derives .value
      (bracketed layout depth "[" "]" (items.map (write layout (depth + 1)))).toList := by
  obtain ⟨comma, hcomma, hwritten⟩ := hlayout.comma
  have hbreak (d : Nat) : Space (comma ++ (layout.line d).toList) := hcomma.append (hlayout.line d)
  by_cases hitems : items = []
  · rw [hitems, List.map_nil, bracketed_nil, show ("[" ++ "]").toList = ['[', ']'] from rfl]
    exact .emptyArray (nofun : Space [])
  · rw [toList_bracketed _ _ _ _ (by simpa using hitems), hwritten, List.cons_append]
    have hparts : ∀ p ∈ ((items.map (write layout (depth + 1))).map String.toList),
        Derives .value p := by
      simpa only [List.forall_mem_map] using h
    exact .array (derives_intercalate (hbreak _) (hlayout.line _) (by simpa using hitems)
      (fun a ha p hp => .element ha (hparts p hp) (hlayout.line _))
      (fun a ha p hp rest hrest => by
        simpa using Derives.elements ha (hparts p hp) (nofun : Space []) hrest))

private theorem derives_writtenRecord (hlayout : Blank layout) (depth : Nat)
    {fields : List (String × Json)}
    (h : ∀ f ∈ fields, Derives .value (write layout (depth + 1) f.2).toList) :
    Derives .value (bracketed layout depth "\x7b" "\x7d" (fields.map fun f =>
      writtenText f.1 ++ ": " ++ write layout (depth + 1) f.2)).toList := by
  obtain ⟨comma, hcomma, hwritten⟩ := hlayout.comma
  have hbreak (d : Nat) : Space (comma ++ (layout.line d).toList) := hcomma.append (hlayout.line d)
  by_cases hfields : fields = []
  · rw [hfields, List.map_nil, bracketed_nil,
      show ("\x7b" ++ "\x7d").toList = ['{', '}'] from rfl]
    exact .emptyObject (nofun : Space [])
  · rw [toList_bracketed _ _ _ _ (by simpa using hfields), hwritten, List.cons_append]
    have hparts : ∀ p ∈ ((fields.map fun f =>
        writtenText f.1 ++ ": " ++ write layout (depth + 1) f.2).map String.toList),
        ∃ k v, Token k ∧ Derives .value v ∧ p = k ++ ':' :: ' ' :: v := by
      simp only [List.forall_mem_map]
      exact fun f hf => ⟨_, _, token_writtenText f.1, h f hf, by simp⟩
    have hblank : Space [' '] := List.forall_mem_singleton.mpr (by decide)
    refine .object (derives_intercalate (hbreak _) (hlayout.line _) (by simpa using hfields) ?_ ?_)
    · intro a ha p hp
      obtain ⟨k, v, hk, hv, rfl⟩ := hparts p hp
      simpa using Derives.member ha hk (nofun : Space []) hblank hv (hlayout.line depth)
    · intro a ha p hp rest hrest
      obtain ⟨k, v, hk, hv, rfl⟩ := hparts p hp
      simpa using Derives.members ha hk (nofun : Space []) hblank hv (nofun : Space []) hrest

/-- Finite numbers are written after the rules of the grammar. -/
theorem derives_write (hlayout : Blank layout) (v : Json) (hv : v.Finite) (depth : Nat) :
    Derives .value (write layout depth v).toList := by
  induction v using Json.induction generalizing depth with
  | null =>
    rw [write, show "null".toList = ['n', 'u', 'l', 'l'] from rfl]
    exact .null
  | bool b => cases b with
    | false =>
      rw [write, show "false".toList = ['f', 'a', 'l', 's', 'e'] from rfl]
      exact .false
    | true =>
      rw [write, show "true".toList = ['t', 'r', 'u', 'e'] from rfl]
      exact .true
  | number n => exact .number (numeral_writtenNumber (finite_number.mp hv))
  | text s => exact .string (token_writtenText s)
  | list items ih =>
    rw [write, writeItems_eq]
    exact derives_writtenList hlayout depth fun v hv' =>
      ih v hv' (finite_list.mp hv v hv') (depth + 1)
  | record fields ih =>
    rw [write, writeFields_eq]
    exact derives_writtenRecord hlayout depth fun f hf =>
      ih f hf (finite_record.mp hv f hf) (depth + 1)

section

variable {depth : Nat} {parts : List String}

private theorem closed_separator (hlayout : Blank layout) (depth : Nat) :
    Closed (layout.comma.toList ++ (layout.line depth).toList) := by
  obtain ⟨ws, hws, hcomma⟩ := hlayout.comma
  rw [hcomma]
  have hmark : Closed [','] := closed_of_quoteless (by decide)
  exact (hmark.append (sound_of_space hws).closed).append (sound_of_space (hlayout.line depth)).closed

theorem closed_bracketed (hlayout : Blank layout) (hopening : '"' ∉ opening.toList)
    (hclosing : '"' ∉ closing.toList) (h : ∀ p ∈ parts, Closed p.toList) :
    Closed (bracketed layout depth opening closing parts).toList := by
  have hline (d : Nat) : Closed (layout.line d).toList := (sound_of_space (hlayout.line d)).closed
  by_cases hparts : parts = []
  · rw [hparts, bracketed_nil, String.toList_append]
    exact (closed_of_quoteless hopening).append (closed_of_quoteless hclosing)
  · rw [toList_bracketed _ _ _ _ hparts]
    have hinside := closed_intercalate (closed_separator hlayout (depth + 1))
      (List.forall_mem_map.mpr h)
    exact ((closed_of_quoteless hopening).append
      (((hline _).append hinside).append (hline _))).append (closed_of_quoteless hclosing)

theorem wordless_of_bracketed (hlayout : Blank layout) (hopening : '"' ∉ opening.toList)
    (h : ∀ p ∈ parts, Closed p.toList)
    (hwordless : Wordless (bracketed layout depth opening closing parts).toList) :
    ∀ p ∈ parts, Wordless p.toList := by
  have hline (d : Nat) : Closed (layout.line d).toList := (sound_of_space (hlayout.line d)).closed
  by_cases hparts : parts = []
  · rw [hparts]
    exact nofun
  · have hseparator := closed_separator hlayout (depth + 1)
    have hclosed := List.forall_mem_map.mpr h
    have hinside := (hline (depth + 1)).append (closed_intercalate hseparator hclosed)
    rw [toList_bracketed _ _ _ _ hparts,
      ((closed_of_quoteless hopening).append (hinside.append (hline depth))).wordless_append,
      (closed_of_quoteless hopening).wordless_append, hinside.wordless_append,
      (hline _).wordless_append] at hwordless
    exact List.forall_mem_map.mp
      (wordless_of_intercalate hseparator hclosed hwordless.1.2.1.2)

end

theorem closed_writtenField {k : String} {written : String} (h : Closed written.toList) :
    Closed (writtenText k ++ ": " ++ written).toList := by
  rw [String.toList_append, String.toList_append]
  exact ((sound_of_token (token_writtenText k)).closed.append
    (closed_of_quoteless (by decide))).append h

theorem closed_write (hlayout : Blank layout) (v : Json) (depth : Nat) :
    Closed (write layout depth v).toList := by
  induction v using Json.induction generalizing depth with
  | null =>
    rw [write]
    exact closed_of_quoteless (by decide)
  | bool b =>
    cases b <;> rw [write] <;> exact closed_of_quoteless (by decide)
  | number n => exact closed_writtenNumber n
  | text s => exact (sound_of_token (token_writtenText s)).closed
  | list items ih =>
    rw [write, writeItems_eq]
    exact closed_bracketed hlayout (by decide) (by decide)
      (List.forall_mem_map.mpr fun v hv => ih v hv (depth + 1))
  | record fields ih =>
    rw [write, writeFields_eq]
    exact closed_bracketed hlayout (by decide) (by decide)
      (List.forall_mem_map.mpr fun f hf => closed_writtenField (ih f hf (depth + 1)))

theorem finite_of_wordless (hlayout : Blank layout) (v : Json) (depth : Nat)
    (h : Wordless (write layout depth v).toList) : v.Finite := by
  induction v using Json.induction generalizing depth with
  | null => exact finite_null
  | bool b => exact finite_bool b
  | number n => exact finite_number.mpr (wordless_writtenNumber h)
  | text s => exact finite_text s
  | list items ih =>
    rw [write, writeItems_eq] at h
    have hparts := wordless_of_bracketed hlayout (by decide)
      (List.forall_mem_map.mpr fun v _ => closed_write hlayout v (depth + 1)) h
    exact finite_list.mpr fun v hv => ih v hv _ (List.forall_mem_map.mp hparts v hv)
  | record fields ih =>
    rw [write, writeFields_eq] at h
    have hparts := wordless_of_bracketed hlayout (by decide)
      (List.forall_mem_map.mpr fun f _ =>
        closed_writtenField (closed_write hlayout f.2 (depth + 1))) h
    refine finite_record.mpr fun f hf => ih f hf (depth + 1) ?_
    have hfield := List.forall_mem_map.mp hparts f hf
    have hname := (sound_of_token (token_writtenText f.1)).closed.append
      (closed_of_quoteless (by decide : '"' ∉ ": ".toList))
    rw [String.toList_append, String.toList_append, hname.wordless_append] at hfield
    exact hfield.2

end

end Strict

/-- In either layout, what is written of a value is a JSON text exactly if all numbers in the value
are finite. -/
theorem strict_render (pretty : Bool) (v : Json) : Strict (v.render pretty) ↔ v.Finite := by
  have hlayout : Strict.Blank (if pretty then .indented else .compact) := by
    split
    · exact Strict.blank_indented
    · exact Strict.blank_compact
  constructor
  · exact fun h => Strict.finite_of_wordless hlayout v 0 h.wordless
  · intro hv
    have hnone : Strict.Space [] := nofun
    exact ⟨[], _, [], hnone, Strict.derives_write hlayout v hv 0, hnone, (List.append_nil _).symm⟩

end Json

end BusinessAtlas
