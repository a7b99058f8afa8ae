import BusinessAtlas.Proofs.Json.Hereditary
import BusinessAtlas.Proofs.Json.Scalars

/-!
# Values read back

A value that is written is read as the same value, in either layout: each part of it is read up to the
mark or the space that follows it. The fields of a record are set one by one, so two of one name would
become one; in a value that was read there are no such fields.
-/

namespace BusinessAtlas.Json

/-- No record in the value has two fields of one name. -/
inductive Distinct : Json → Prop where
  | null : Distinct .null
  | bool (b : Bool) : Distinct (.bool b)
  | number (n : Number) : Distinct (.number n)
  | text (s : String) : Distinct (.text s)
  | list {items : List Json} : (∀ v ∈ items, Distinct v) → Distinct (.list items)
  | record {fields : List (String × Json)} : (keys fields).Nodup → (∀ f ∈ fields, Distinct f.2) →
    Distinct (.record fields)

theorem hereditary_distinct : Hereditary Distinct where
  null := .null
  text := .text
  list := ⟨fun | .list h => h, .list⟩
  field := fun | .record _ h => h

section Parts

variable {cs rest ws : List Char} {v : Json}

/-- A text that begins with neither space nor a mark that ends something. -/
def Begins (cs : List Char) : Prop :=
  ∃ c more, cs = c :: more ∧ c ∉ [' ', '\t', '\n', '\r', ']', '\x7d', '\uFEFF']

/-- The text is read as the value, whatever ends it. -/
structure ReadsAs (cs : List Char) (v : Json) : Prop where
  begins : Begins cs
  read : ∀ fuel rest, 2 * cs.length ≤ fuel → Ends rest → readValue fuel (cs ++ rest) = .ok (v, rest)

theorem Begins.append (h : Begins cs) (rest : List Char) : Begins (cs ++ rest) := by
  obtain ⟨c, more, rfl, hc⟩ := h
  exact ⟨c, more ++ rest, rfl, hc⟩

theorem isSpace_of_mem {c : Char} (hc : c ∈ [' ', '\t', '\n', '\r']) : isSpace c = true := by
  have hspaces : ∀ c ∈ [' ', '\t', '\n', '\r'], isSpace c = true := by simp [isSpace]
  exact hspaces c hc

theorem skipSpace_append (hws : Strict.Space ws) (h : skipSpace cs = cs) :
    skipSpace (ws ++ cs) = cs := by
  rw [skipSpace, List.dropWhile_append_of_pos fun c hc => isSpace_of_mem (hws c hc)]
  exact h

theorem Begins.skipSpace_eq (h : Begins cs) : skipSpace cs = cs := by
  obtain ⟨c, more, rfl, hc⟩ := h
  rw [skipSpace, List.dropWhile_cons_of_neg]
  simp only [List.mem_cons, not_or] at hc
  simp [isSpace, hc]

theorem ends_mark {c : Char} (hc : c ∈ [',', ']', '\x7d']) : Ends (c :: rest) := by
  intro d hd
  cases hd
  exact List.mem_append_left [' ', '\t', '\n', '\r'] hc

theorem ends_space_mark {c : Char} (hc : c ∈ [',', ']', '\x7d']) (hws : Strict.Space ws) :
    Ends (ws ++ c :: rest) := by
  cases ws with
  | nil => exact ends_mark hc
  | cons w ws =>
    intro d hd
    cases hd
    exact List.mem_append_right [',', ']', '\x7d'] (hws w List.mem_cons_self)

theorem skipSpace_mark {c : Char} (hc : c ∈ [',', ']', '\x7d', ':']) :
    skipSpace (c :: rest) = c :: rest := by
  have hmarks : ∀ c ∈ [',', ']', '\x7d', ':'], isSpace c = false := by simp [isSpace]
  exact List.dropWhile_cons_of_neg (by simp [hmarks c hc])

/-- What is neither a text, a list nor a record begins with a letter, a digit or a sign. -/
private def beginsPlain (cs : List Char) : Bool := cs.head?.any fun c => c.isAlphanum || c == '-'

private theorem reads_scalar (hplain : beginsPlain cs = true)
    (h : ∀ rest, Ends rest → readScalar (cs ++ rest) = .ok (v, rest)) : ReadsAs cs v := by
  cases cs with
  | nil => cases hplain
  | cons c more =>
    have hother : ∀ d ∈ [' ', '\t', '\n', '\r', ']', '\x7d', '\uFEFF', '"', '[', '\x7b'],
        (d.isAlphanum || d == '-') = false := by simp
    have hc : c ∉ [' ', '\t', '\n', '\r', ']', '\x7d', '\uFEFF', '"', '[', '\x7b'] := fun hmem =>
      Bool.false_ne_true ((hother c hmem).symm.trans hplain)
    refine ⟨⟨c, more, rfl, fun hmem => hc (by simp_all)⟩, fun fuel rest hfuel hrest => ?_⟩
    obtain ⟨fuel, rfl⟩ : ∃ k, fuel = k + 1 := ⟨fuel - 1, by simp at hfuel; omega⟩
    rw [← h rest hrest, List.cons_append, readValue]
    · exact fun _ heq => hc (by rw [(List.cons.inj heq).1]; decide)
    · exact fun _ heq => hc (by rw [(List.cons.inj heq).1]; decide)
    · exact fun _ heq => hc (by rw [(List.cons.inj heq).1]; decide)

private theorem beginsPlain_word {w : List Char × Json} (hw : w ∈ literalWords) :
    beginsPlain w.1 = true := by
  simp only [literalWords, List.mem_cons, List.not_mem_nil, or_false] at hw
  rcases hw with rfl | rfl | rfl | rfl | rfl | rfl <;> decide

theorem reads_word {w : List Char × Json} (hw : w ∈ literalWords) : ReadsAs w.1 w.2 :=
  reads_scalar (beginsPlain_word hw) fun rest _ => readScalar_word hw rest

private theorem beginsPlain_numeral (h : Strict.Numeral cs) : beginsPlain cs = true := by
  obtain ⟨sign, whole, fraction, exponent, hsign, hwhole, -, -, rfl⟩ := h
  obtain ⟨c, more, rfl⟩ := List.exists_cons_of_ne_nil hwhole.1.1
  have hc := hwhole.1.2 c List.mem_cons_self
  simp only [List.mem_cons, List.not_mem_nil, or_false] at hsign
  rcases hsign with rfl | rfl
  · simp [beginsPlain, Char.isAlphanum, hc]
  · rfl

private theorem beginsPlain_writtenNumber (n : Number) : beginsPlain (writtenNumber n).toList = true := by
  by_cases hn : n.Finite
  · exact beginsPlain_numeral (Strict.numeral_writtenNumber hn)
  · cases n with
    | int n => exact absurd trivial hn
    | float x =>
      rw [writtenNumber]
      split
      · decide
      · split
        · split <;> decide
        · next hnan hinf => exact absurd (by simp_all [Number.Finite]) hn

theorem reads_writtenNumber (n : Number) : ReadsAs (writtenNumber n).toList (.number n) :=
  reads_scalar (beginsPlain_writtenNumber n) fun _ hrest => readScalar_writtenNumber n hrest

private theorem length_le_escaped (cs : List Char) : cs.length ≤ (cs.flatMap escapedChar).length := by
  induction cs with
  | nil => exact Nat.zero_le _
  | cons c cs ih =>
    have hne : escapedChar c ≠ [] := by
      unfold escapedChar
      dsimp only
      repeat' split
      all_goals simp
    have hpos := List.length_pos_iff.mpr hne
    rw [List.flatMap_cons, List.length_append, List.length_cons]
    omega

theorem reads_writtenText (s : String) : ReadsAs (writtenText s).toList (.text s) := by
  rw [writtenText, String.toList_ofList]
  refine ⟨⟨'"', _, rfl, by simp⟩, fun fuel rest hfuel hrest => ?_⟩
  have hlength := length_le_escaped s.toList
  obtain ⟨fuel, rfl⟩ : ∃ k, fuel = k + 1 := ⟨fuel - 1, by simp at hfuel; omega⟩
  simp only [List.length_append, List.length_cons] at hfuel
  rw [List.append_assoc, List.cons_append, readValue, List.singleton_append,
    readText_writtenText _ _ _ (by omega)]
  simp

end Parts

theorem put_of_new {key : String} {value : Json} {fields : List (String × Json)}
    (h : key ∉ keys fields) : put key value fields = fields ++ [(key, value)] := by
  induction fields with
  | nil => rfl
  | cons f fields ih =>
    obtain ⟨hne, hrest⟩ := not_or.mp (mt List.mem_cons.mpr h)
    rw [put, if_neg (by simpa using Ne.symm hne), ih hrest, List.cons_append]

theorem foldl_put {done fields : List (String × Json)} (h : (keys (done ++ fields)).Nodup) :
    fields.foldl (fun done f => put f.1 f.2 done) done = done ++ fields := by
  induction fields generalizing done with
  | nil => simp
  | cons f fields ih =>
    have hkey : f.1 ∉ keys done := by
      rw [keys, List.map_append, List.nodup_append] at h
      exact fun hmem => h.2.2 _ hmem f.1 (by simp) rfl
    rw [List.foldl_cons, put_of_new hkey, ih (by simpa using h), List.append_assoc]
    rfl

section Intercalated

variable {ws close rest : List Char}

private theorem begins_intercalate (sep : List Char) {parts : List (List Char)} (hne : parts ≠ [])
    (h : ∀ p ∈ parts, Begins p) : Begins (sep.intercalate parts) := by
  obtain ⟨p, parts, rfl⟩ := List.exists_cons_of_ne_nil hne
  have hp := h p List.mem_cons_self
  cases parts with
  | nil =>
    rw [List.intercalate_singleton]
    exact hp
  | cons q parts =>
    rw [List.intercalate_cons_cons, List.append_assoc]
    exact hp.append _

/-- Items are read one by one, each up to the comma or the bracket that follows it. -/
theorem readItems_intercalate (hws : Strict.Space ws) (hclose : Strict.Space close)
    {written : Json → List Char} {items : List Json} (h : ∀ v ∈ items, ReadsAs (written v) v)
    (hne : items ≠ []) (done : List Json) {fuel : Nat}
    (hfuel : 2 * ((',' :: ws).intercalate (items.map written)).length + 1 ≤ fuel) :
    readItems fuel done ((',' :: ws).intercalate (items.map written) ++ (close ++ ']' :: rest)) =
      .ok (.list (done.reverse ++ items), rest) := by
  induction items generalizing done fuel with
  | nil => exact absurd rfl hne
  | cons v items ih =>
    obtain ⟨fuel, rfl⟩ : ∃ k, fuel = k + 1 := ⟨fuel - 1, by omega⟩
    obtain ⟨hv, hitems⟩ := List.forall_mem_cons.mp h
    cases items with
    | nil =>
      rw [List.map_singleton, List.intercalate_singleton] at hfuel ⊢
      rw [readItems, hv.read fuel _ (by omega) (ends_space_mark (by simp) hclose)]
      dsimp only
      rw [skipSpace_append hclose (skipSpace_mark (by simp))]
      simp
    | cons w items =>
      have hbegins : Begins ((',' :: ws).intercalate ((w :: items).map written)) :=
        begins_intercalate _ (by simp) (List.forall_mem_map.mpr fun u hu => (hitems u hu).begins)
      rw [List.map_cons, List.map_cons, List.intercalate_cons_cons, ← List.map_cons] at hfuel ⊢
      rw [List.length_append, List.length_append, List.length_cons] at hfuel
      rw [List.append_assoc, List.append_assoc, List.cons_append, readItems,
        hv.read fuel _ (by omega) (ends_mark (by simp))]
      dsimp only
      rw [skipSpace_mark (by simp)]
      show readItems fuel (v :: done) (skipSpace (ws ++ _)) = _
      rw [skipSpace_append hws (hbegins.append _).skipSpace_eq,
        ih hitems (List.cons_ne_nil _ _) (v :: done) (by omega)]
      simp

/-- A field that is read up to what ends its value. -/
def ReadsFieldAs (cs : List Char) (f : String × Json) : Prop :=
  ∃ written, ReadsAs written f.2 ∧ cs = (writtenText f.1).toList ++ ':' :: ' ' :: written

private theorem ReadsFieldAs.begins {cs : List Char} {f : String × Json} (h : ReadsFieldAs cs f) :
    Begins cs := by
  obtain ⟨written, -, rfl⟩ := h
  exact (reads_writtenText f.1).begins.append _

/-- What the reader does with a field and what follows it. -/
private theorem readFields_cons {cs : List Char} {f : String × Json} (h : ReadsFieldAs cs f)
    (done : List (String × Json)) {fuel : Nat} (hfuel : 2 * cs.length ≤ fuel) (hrest : Ends rest) :
    readFields (fuel + 1) done (cs ++ rest) =
      match skipSpace rest with
      | '\x7d' :: rest => .ok (.record (put f.1 f.2 done), rest)
      | ',' :: rest => readFields fuel (put f.1 f.2 done) (skipSpace rest)
      | rest => .error ⟨.comma, rest⟩ := by
  obtain ⟨written, hread, rfl⟩ := h
  have hlength := length_le_escaped f.1.toList
  rw [writtenText, String.toList_ofList] at hfuel ⊢
  simp only [List.length_append, List.length_cons] at hfuel
  have hblank : Strict.Space [' '] := List.forall_mem_singleton.mpr (by decide)
  have hgap : skipSpace (' ' :: (written ++ rest)) = written ++ rest :=
    skipSpace_append hblank (hread.begins.append rest).skipSpace_eq
  rw [List.append_assoc, List.append_assoc, List.cons_append, List.cons_append, readFields,
    List.nil_append, readText_writtenText _ _ _ (by omega)]
  dsimp only
  rw [List.cons_append, skipSpace_mark (by simp)]
  split
  · next heq =>
    cases heq
    rewrite [List.cons_append, hgap, hread.read fuel rest (by omega) hrest, List.reverse_nil,
      List.nil_append, String.ofList_toList]
    rfl
  · next hother => exact absurd rfl (hother _)

/-- Fields are read one by one and set in their order. -/
theorem readFields_intercalate (hws : Strict.Space ws) (hclose : Strict.Space close)
    {written : String × Json → List Char} {fields : List (String × Json)}
    (h : ∀ f ∈ fields, ReadsFieldAs (written f) f) (hne : fields ≠ []) (done : List (String × Json))
    {fuel : Nat} (hfuel : 2 * ((',' :: ws).intercalate (fields.map written)).length + 1 ≤ fuel) :
    readFields fuel done ((',' :: ws).intercalate (fields.map written) ++ (close ++ '\x7d' :: rest)) =
      .ok (.record (fields.foldl (fun done f => put f.1 f.2 done) done), rest) := by
  induction fields generalizing done fuel with
  | nil => exact absurd rfl hne
  | cons f fields ih =>
    obtain ⟨fuel, rfl⟩ : ∃ k, fuel = k + 1 := ⟨fuel - 1, by omega⟩
    obtain ⟨hf, hfields⟩ := List.forall_mem_cons.mp h
    cases fields with
    | nil =>
      rw [List.map_singleton, List.intercalate_singleton] at hfuel ⊢
      rw [readFields_cons hf _ (by omega) (ends_space_mark (by simp) hclose),
        skipSpace_append hclose (skipSpace_mark (by simp))]
      rfl
    | cons g fields =>
      have hbegins : Begins ((',' :: ws).intercalate ((g :: fields).map written)) :=
        begins_intercalate _ (by simp) (List.forall_mem_map.mpr fun u hu => (hfields u hu).begins)
      rw [List.map_cons, List.map_cons, List.intercalate_cons_cons, ← List.map_cons] at hfuel ⊢
      rw [List.length_append, List.length_append, List.length_cons] at hfuel
      rw [List.append_assoc, List.append_assoc, List.cons_append,
        readFields_cons hf _ (by omega) (ends_mark (by simp)), skipSpace_mark (by simp)]
      show readFields fuel (put f.1 f.2 done) (skipSpace (ws ++ _)) = _
      rw [skipSpace_append hws (hbegins.append _).skipSpace_eq,
        ih hfields (List.cons_ne_nil _ _) _ (by omega)]
      rfl

private theorem readValue_list {cs : List Char} (hcs : Begins cs) (hws : Strict.Space ws) (fuel : Nat) :
    readValue (fuel + 1) ('[' :: (ws ++ cs)) = readItems fuel [] cs := by
  have hskip := skipSpace_append hws hcs.skipSpace_eq
  obtain ⟨c, more, rfl, hc⟩ := hcs
  rw [readValue, hskip]
  split
  · next heq =>
    cases heq
    exact absurd (by decide) hc
  · rfl

private theorem readValue_record {cs : List Char} (hcs : Begins cs) (hws : Strict.Space ws)
    (fuel : Nat) : readValue (fuel + 1) ('\x7b' :: (ws ++ cs)) = readFields fuel [] cs := by
  have hskip := skipSpace_append hws hcs.skipSpace_eq
  obtain ⟨c, more, rfl, hc⟩ := hcs
  rw [readValue, hskip]
  split
  · next heq =>
    cases heq
    exact absurd (by decide) hc
  · rfl

/-- Parts between brackets are read if all that follows the opening bracket is. -/
private theorem reads_enclosed {opening closing : Char} {before inner : List Char} {v : Json}
    (hopening : opening ∉ [' ', '\t', '\n', '\r', ']', '\x7d', '\uFEFF'])
    (h : ∀ fuel rest, 2 * inner.length + 1 ≤ fuel →
      readValue (fuel + 1) (opening :: (before ++ (inner ++ (close ++ closing :: rest)))) =
        .ok (v, rest)) :
    ReadsAs (opening :: (before ++ (inner ++ (close ++ [closing])))) v := by
  refine ⟨⟨opening, _, rfl, hopening⟩, fun fuel rest hfuel _ => ?_⟩
  obtain ⟨fuel, rfl⟩ : ∃ k, fuel = k + 1 := ⟨fuel - 1, by simp at hfuel; omega⟩
  simp only [List.length_append, List.length_cons] at hfuel
  rw [List.cons_append, List.append_assoc, List.append_assoc, List.append_assoc,
    List.singleton_append, h fuel rest (by omega)]

end Intercalated

section Written

open Strict (Blank)

variable {layout : Layout}

/-- What is written between brackets, as characters. -/
private theorem exists_bracketed (hlayout : Blank layout) (depth : Nat) :
    ∃ before ws close, Strict.Space before ∧ Strict.Space ws ∧ Strict.Space close ∧
      ∀ (o c : String) (parts : List String), parts ≠ [] →
        (bracketed layout depth o c parts).toList = o.toList ++ (before ++
          ((',' :: ws).intercalate (parts.map String.toList) ++ (close ++ c.toList))) := by
  obtain ⟨comma, hcomma, hwritten⟩ := hlayout.comma
  refine ⟨_, _, _, hlayout.line (depth + 1), hcomma.append (hlayout.line (depth + 1)),
    hlayout.line depth, fun _ _ _ hparts => ?_⟩
  rw [Strict.toList_bracketed _ _ _ _ hparts, hwritten]
  simp only [List.append_assoc, List.cons_append]

private theorem toList_brackets : "[".toList = ['['] ∧ "]".toList = [']'] ∧
    "\x7b".toList = ['\x7b'] ∧ "\x7d".toList = ['\x7d'] := ⟨rfl, rfl, rfl, rfl⟩

private theorem reads_emptyList : ReadsAs ['[', ']'] (.list []) := by
  refine ⟨⟨'[', [']'], rfl, by decide⟩, fun fuel rest hfuel _ => ?_⟩
  obtain ⟨fuel, rfl⟩ : ∃ k, fuel = k + 1 := ⟨fuel - 1, by simp at hfuel; omega⟩
  show readValue (fuel + 1) ('[' :: ']' :: rest) = _
  rw [readValue, skipSpace_mark (by simp)]
  rfl

private theorem reads_emptyRecord : ReadsAs ['\x7b', '\x7d'] (.record []) := by
  refine ⟨⟨'\x7b', ['\x7d'], rfl, by decide⟩, fun fuel rest hfuel _ => ?_⟩
  obtain ⟨fuel, rfl⟩ : ∃ k, fuel = k + 1 := ⟨fuel - 1, by simp at hfuel; omega⟩
  show readValue (fuel + 1) ('\x7b' :: '\x7d' :: rest) = _
  rw [readValue, skipSpace_mark (by simp)]
  rfl

theorem reads_writtenList (hlayout : Blank layout) (depth : Nat) {items : List Json}
    (h : ∀ v ∈ items, ReadsAs (write layout (depth + 1) v).toList v) :
    ReadsAs (bracketed layout depth "[" "]" (items.map (write layout (depth + 1)))).toList
      (.list items) := by
  obtain ⟨hopening, hclosing, -⟩ := toList_brackets
  by_cases hitems : items = []
  · rw [hitems, List.map_nil, Strict.bracketed_nil, String.toList_append, hopening, hclosing]
    exact reads_emptyList
  · obtain ⟨before, ws, close, hbefore, hws, hclose, htext⟩ := exists_bracketed hlayout depth
    rw [htext _ _ _ (by simpa using hitems), hopening, hclosing, List.map_map]
    have hparts : ∀ v ∈ items, ReadsAs ((String.toList ∘ write layout (depth + 1)) v) v := h
    refine reads_enclosed (by decide) fun fuel rest hfuel => ?_
    rw [readValue_list ((begins_intercalate _ (by simpa using hitems)
        (List.forall_mem_map.mpr fun v hv => (hparts v hv).begins)).append _) hbefore,
      readItems_intercalate hws hclose hparts hitems [] hfuel]
    rfl

theorem reads_writtenRecord (hlayout : Blank layout) (depth : Nat) {fields : List (String × Json)}
    (hnodup : (keys fields).Nodup)
    (h : ∀ f ∈ fields, ReadsAs (write layout (depth + 1) f.2).toList f.2) :
    ReadsAs (bracketed layout depth "\x7b" "\x7d" (fields.map fun f =>
      writtenText f.1 ++ ": " ++ write layout (depth + 1) f.2)).toList (.record fields) := by
  obtain ⟨-, -, hopening, hclosing⟩ := toList_brackets
  by_cases hfields : fields = []
  · rw [hfields, List.map_nil, Strict.bracketed_nil, String.toList_append, hopening, hclosing]
    exact reads_emptyRecord
  · obtain ⟨before, ws, close, hbefore, hws, hclose, htext⟩ := exists_bracketed hlayout depth
    rw [htext _ _ _ (by simpa using hfields), hopening, hclosing, List.map_map]
    have hparts : ∀ f ∈ fields, ReadsFieldAs ((String.toList ∘ fun f : String × Json =>
        writtenText f.1 ++ ": " ++ write layout (depth + 1) f.2) f) f :=
      fun f hf => ⟨_, h f hf, by simp⟩
    have hput : fields.foldl (fun done f => put f.1 f.2 done) [] = fields := foldl_put hnodup
    refine reads_enclosed (by decide) fun fuel rest hfuel => ?_
    rw [readValue_record ((begins_intercalate _ (by simpa using hfields)
        (List.forall_mem_map.mpr fun f hf => (hparts f hf).begins)).append _) hbefore,
      readFields_intercalate hws hclose hparts hfields [] hfuel, hput]

theorem reads_write (hlayout : Blank layout) {v : Json} (hv : v.Distinct) (depth : Nat) :
    ReadsAs (write layout depth v).toList v := by
  induction hv generalizing depth with
  | null =>
    rw [write]
    exact reads_word (w := ("null".toList, .null)) (by simp [literalWords])
  | bool b =>
    cases b <;> rw [write]
    · exact reads_word (w := ("false".toList, .bool false)) (by simp [literalWords])
    · exact reads_word (w := ("true".toList, .bool true)) (by simp [literalWords])
  | number n => exact reads_writtenNumber n
  | text s => exact reads_writtenText s
  | list _ ih =>
    rw [write, Strict.writeItems_eq]
    exact reads_writtenList hlayout depth fun v hv => ih v hv (depth + 1)
  | record hnodup _ ih =>
    rw [write, Strict.writeFields_eq]
    exact reads_writtenRecord hlayout depth hnodup fun f hf => ih f hf (depth + 1)

end Written

/-- A value without two fields of one name in a record is read back from what is written of it. -/
theorem read_render (pretty : Bool) {v : Json} (hv : v.Distinct) : read (v.render pretty) = .ok v := by
  have hlayout : Strict.Blank (if pretty then .indented else .compact) := by
    split
    · exact Strict.blank_indented
    · exact Strict.blank_compact
  have hread : ReadsAs (v.render pretty).toList v := reads_write hlayout hv 0
  have hmark : ∀ more, (v.render pretty).toList = '\uFEFF' :: more → False := by
    intro more hmore
    obtain ⟨c, cs, hbegins, hc⟩ := hread.begins
    rw [hmore] at hbegins
    exact hc (by rw [← (List.cons.inj hbegins).1]; decide)
  have hwhole := hread.read (2 * (v.render pretty).toList.length + 1) [] (by omega) nofun
  rw [List.append_nil] at hwhole
  rw [read, readChars, hread.begins.skipSpace_eq, hwhole]
  · rfl
  · exact hmark

section Distinct

variable {cs rest : List Char} {v : Json}

private theorem mem_put {f : String × Json} {fields : List (String × Json)} {key : String}
    (h : f ∈ put key v fields) : f = (key, v) ∨ f ∈ fields := by
  induction fields with
  | nil => exact .inl (List.mem_singleton.mp h)
  | cons g fields ih =>
    rw [put] at h
    split at h
    · next hkey =>
      rw [← beq_iff_eq.mp hkey]
      exact (List.mem_cons.mp h).imp_right (List.mem_cons_of_mem _)
    · rcases List.mem_cons.mp h with rfl | h
      · exact .inr List.mem_cons_self
      · exact (ih h).imp_right (List.mem_cons_of_mem _)

private theorem nodup_keys_put {fields : List (String × Json)} (h : (keys fields).Nodup)
    (key : String) : (keys (put key v fields)).Nodup := by
  induction fields with
  | nil => exact List.nodup_singleton key
  | cons f fields ih =>
    obtain ⟨hnot, hrest⟩ := List.nodup_cons.mp h
    rw [put]
    split
    · exact h
    · next hkey =>
      refine List.nodup_cons.mpr ⟨fun hmem => ?_, ih hrest⟩
      obtain ⟨g, hg, hname⟩ := List.mem_map.mp hmem
      rcases mem_put hg with rfl | hold
      · exact hkey (beq_iff_eq.mpr hname.symm)
      · exact hnot (hname ▸ List.mem_map_of_mem hold)

theorem Distinct.put {fields : List (String × Json)} (h : Distinct (.record fields)) (hv : v.Distinct)
    (key : String) : Distinct (.record (put key v fields)) := by
  cases h with
  | record hnodup hall =>
    refine .record (nodup_keys_put hnodup key) fun f hf => ?_
    rcases mem_put hf with rfl | hold
    · exact hv
    · exact hall f hold

private theorem distinct_readScalar : Yields (readScalar cs) (·.1.Distinct) := by
  intro r h
  have hwords : ∀ w ∈ literalWords, w.2.Distinct := by
    simp only [literalWords, List.mem_cons, List.not_mem_nil, or_false]
    rintro w (rfl | rfl | rfl | rfl | rfl | rfl) <;> constructor
  rw [readScalar] at h
  split at h
  · next hfound =>
    cases h
    exact hwords _ (List.mem_of_find?_eq_some hfound)
  · split at h
    · cases h
      exact .number _
    · cases h

theorem distinct_emptyRecord : Distinct (.record []) := .record List.nodup_nil nofun

/-- What the reader returns, by the fuel; what is done so far is free of such fields, too. -/
private theorem distinct_step (fuel : Nat) :
    (∀ cs, Yields (readValue fuel cs) (·.1.Distinct)) ∧
    (∀ done cs, (∀ v ∈ done, Distinct v) → Yields (readItems fuel done cs) (·.1.Distinct)) ∧
    (∀ done cs, Distinct (.record done) → Yields (readFields fuel done cs) (·.1.Distinct)) := by
  induction fuel with
  | zero => exact ⟨nofun, nofun, nofun⟩
  | succ fuel ih =>
    obtain ⟨ihvalue, ihitems, ihfields⟩ := ih
    refine ⟨fun cs r h => ?_, fun done cs hdone r h => ?_, fun done cs hdone r h => ?_⟩
    · unfold readValue at h
      split at h
      · split at h
        · cases h
        · cases h
          exact .text _
      · split at h
        · cases h
          exact .list nofun
        · exact ihitems [] _ nofun r h
      · split at h
        · cases h
          exact distinct_emptyRecord
        · exact ihfields [] _ distinct_emptyRecord r h
      · exact distinct_readScalar r h
    · rw [readItems] at h
      split at h
      · cases h
      · next v rest hv =>
        have hmore : ∀ w ∈ v :: done, Distinct w := List.forall_mem_cons.mpr ⟨ihvalue _ _ hv, hdone⟩
        split at h
        · cases h
          exact .list fun w hw => hmore w (List.mem_reverse.mp hw)
        · exact ihitems _ _ hmore r h
        · cases h
    · unfold readFields at h
      split at h
      · split at h
        · cases h
        · split at h
          · split at h
            · cases h
            · next v _ hv =>
              have hmore := hdone.put (ihvalue _ _ hv)
              split at h
              · cases h
                exact hmore _
              · exact ihfields _ _ (hmore _) r h
              · cases h
          · cases h
      · cases h

/-- In a value that was read no record has two fields of one name. -/
theorem distinct_of_read {s : String} (h : read s = .ok v) : v.Distinct := by
  unfold read readChars at h
  dsimp only at h
  split at h
  · cases h
  · split at h
    · cases h
    · next hread =>
      split at h
      · cases h
        exact (distinct_step _).1 _ _ hread
      · cases h

end Distinct

end BusinessAtlas.Json
