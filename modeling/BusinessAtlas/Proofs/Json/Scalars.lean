import BusinessAtlas.Json.Reader
import BusinessAtlas.Proofs.Decimal.Shortest
import BusinessAtlas.Proofs.Json.Printer

/-!
# Numbers and texts read back

What is written of a number ends where the digits end, as long as no more of them follow, and is read
as the number. The escapes of a text are read one by one, those of a pair of surrogates together.
-/

namespace BusinessAtlas.Json

open Decimal (Figure exponentText)

/-- What follows a value: a mark or space. -/
def Ends (rest : List Char) : Prop :=
  ∀ c ∈ rest.head?, c ∈ [',', ']', '\x7d', ' ', '\t', '\n', '\r']

section Digits

variable {ds rest : List Char}

theorem isSome_asciiDigit? (c : Char) : (Text.asciiDigit? c).isSome = c.isDigit := by
  rw [Bool.eq_iff_iff, Char.isDigit_iff_toNat, Text.asciiDigit?]
  split
  · next h => simpa using h
  · next h => simpa using h

theorem digitsValue_eq (h : ∀ c ∈ ds, c.isDigit = true) :
    digitsValue ds = Nat.ofDigitChars 10 ds 0 := by
  have hfold (n : Nat) : ds.foldl (fun n c => n * 10 + (Text.asciiDigit? c).getD 0) n =
      Nat.ofDigitChars 10 ds n := by
    induction ds generalizing n with
    | nil => rfl
    | cons c ds ih =>
      obtain ⟨hc, hds⟩ := List.forall_mem_cons.mp h
      have hvalue : (Text.asciiDigit? c).getD 0 = c.toNat - '0'.toNat := by
        have hdigit := Char.isDigit_iff_toNat.mp hc
        rw [Text.asciiDigit?, if_pos (by simpa using hdigit), Option.getD_some]
      rw [List.foldl_cons, ih hds, Nat.ofDigitChars_cons, hvalue, Nat.mul_comm]
  exact hfold 0

theorem spanDigits_append (hds : ∀ c ∈ ds, c.isDigit = true)
    (hrest : ∀ c ∈ rest.head?, c.isDigit = false) : spanDigits (ds ++ rest) = (ds, rest) := by
  have hpred : (fun c => (Text.asciiDigit? c).isSome) = Char.isDigit := funext isSome_asciiDigit?
  rw [spanDigits, hpred, List.span_eq_takeWhile_dropWhile, List.takeWhile_append_of_pos hds,
    List.dropWhile_append_of_pos hds]
  cases rest with
  | nil => simp
  | cons c cs => simp [hrest c rfl]

theorem readWhole_append {whole : List Char} (hwhole : Strict.Whole whole)
    (hrest : ∀ c ∈ rest.head?, c.isDigit = false) : readWhole (whole ++ rest) = some (whole, rest) := by
  rw [readWhole, spanDigits_append hwhole.1.2 hrest]
  split
  · next hnil =>
    cases hnil
    exact absurd rfl hwhole.1.1
  · next more hzero =>
    cases hzero
    have hone := hwhole.2 rfl
    rw [List.cons.injEq] at hone
    rw [hone.2, List.nil_append]
  · next hmany =>
    cases hmany
    rfl

theorem Ends.not_digit (h : Ends rest) : ∀ c ∈ rest.head?, c.isDigit = false := by
  have hmarks : ∀ c ∈ [',', ']', '\x7d', ' ', '\t', '\n', '\r'], c.isDigit = false := by simp
  exact fun c hc => hmarks c (h c hc)

theorem Ends.readExponent_eq (h : Ends rest) : readExponent rest = none := by
  unfold readExponent
  split
  · next c cs =>
    have hmarks : ∀ c ∈ [',', ']', '\x7d', ' ', '\t', '\n', '\r'],
      (c == 'e' || c == 'E') = false := by simp
    rw [hmarks c (h c rfl)]
    rfl
  · rfl

theorem readFraction_point (hne : ds ≠ []) (hds : ∀ c ∈ ds, c.isDigit = true)
    (hrest : ∀ c ∈ rest.head?, c.isDigit = false) :
    readFraction ('.' :: (ds ++ rest)) = some (ds, rest) := by
  rw [readFraction, spanDigits_append hds hrest]
  simp [hne]

theorem readExponent_exponentText (e : Int) (hrest : Ends rest) :
    readExponent ('e' :: (exponentText e ++ rest)) = some (e, rest) := by
  obtain ⟨ds, hds, hvalue, hne, htext⟩ : ∃ ds : List Char, (∀ c ∈ ds, c.isDigit = true) ∧
      digitsValue ds = e.natAbs ∧ ds ≠ [] ∧ exponentText e = (if e < 0 then '-' else '+') :: ds := by
    have hdigits := (Decimal.whole_toDigits e.natAbs).1
    refine ⟨_, ?_, ?_, ?_, rfl⟩
    · split
      · exact List.forall_mem_cons.mpr ⟨by decide, hdigits.2⟩
      · exact hdigits.2
    · split
      · rw [digitsValue_eq (List.forall_mem_cons.mpr ⟨by decide, hdigits.2⟩), Nat.ofDigitChars_cons]
        exact Nat.ofDigitChars_ten_toDigits
      · rw [digitsValue_eq hdigits.2, Nat.ofDigitChars_ten_toDigits]
    · split
      · exact List.cons_ne_nil _ _
      · exact hdigits.1
  rw [htext]
  by_cases hneg : e < 0
  · simp only [readExponent, hneg, if_true, List.cons_append, spanDigits_append hds hrest.not_digit,
      List.isEmpty_iff, hne, if_false, hvalue]
    rw [show -(e.natAbs : Int) = e by omega]
    rfl
  · simp only [readExponent, hneg, if_false, List.cons_append, spanDigits_append hds hrest.not_digit,
      List.isEmpty_iff, hne, hvalue]
    rw [show (e.natAbs : Int) = e by omega]
    rfl

end Digits

end BusinessAtlas.Json

namespace BusinessAtlas.Decimal.Figure

open Json

variable {f : Figure} {rest : List Char}

/-- The number that a figure is read as. -/
def number (f : Figure) (negative : Bool) : Number :=
  if f.fraction.isEmpty && f.exponent.isNone then
    .int (if negative then -(digitsValue f.whole : Int) else digitsValue f.whole)
  else
    .float (Binary64.ofDecimal negative (digitsValue (f.whole ++ f.fraction))
      (f.exponent.getD 0 - f.fraction.length))

private theorem readExponent_exponentPart (f : Figure) (hrest : Ends rest) :
    readExponent (f.exponentPart ++ rest) = f.exponent.map fun e => (e, rest) := by
  unfold exponentPart
  cases f.exponent with
  | none => exact hrest.readExponent_eq
  | some e => exact readExponent_exponentText e hrest

private theorem head_exponentPart (f : Figure) (hrest : Ends rest) :
    ∀ c ∈ (f.exponentPart ++ rest).head?, c.isDigit = false ∧ c ≠ '.' := by
  unfold exponentPart
  cases f.exponent with
  | none =>
    have hmarks : ∀ c ∈ [',', ']', '\x7d', ' ', '\t', '\n', '\r'], c.isDigit = false ∧ c ≠ '.' := by
      simp
    exact fun c hc => hmarks c (hrest c hc)
  | some e => simp

private theorem readFraction_fractionText (hf : f.Sound) (hrest : Ends rest) :
    readFraction (f.fractionText ++ (f.exponentPart ++ rest)) =
      if f.fraction.isEmpty then none else some (f.fraction, f.exponentPart ++ rest) := by
  have hhead := f.head_exponentPart hrest
  unfold fractionText
  split
  · rw [List.nil_append]
    unfold readFraction
    split
    · next hpoint =>
      rw [hpoint] at hhead
      exact absurd rfl (hhead '.' rfl).2
    · rfl
  · next hne =>
    exact readFraction_point (by simpa using hne) hf.fraction fun c hc => (hhead c hc).1

theorem readUnsigned_text (hf : f.Sound) (negative : Bool) (hrest : Ends rest) :
    readUnsigned negative (f.text ++ rest) = some (f.number negative, rest) := by
  have hhead : ∀ c ∈ (f.fractionText ++ (f.exponentPart ++ rest)).head?, c.isDigit = false := by
    unfold fractionText
    split
    · exact fun c hc => (f.head_exponentPart hrest c hc).1
    · simp
  have hwhole := readWhole_append hf.whole hhead
  rw [readUnsigned, text, List.append_assoc, List.append_assoc, hwhole, Option.map_some]
  simp only [readFraction_fractionText hf hrest]
  by_cases hfraction : f.fraction = []
  · have hnone : f.fractionText = [] := by simp [fractionText, hfraction]
    simp only [hfraction, List.isEmpty_nil, if_true, hnone, List.nil_append,
      f.readExponent_exponentPart hrest, number]
    cases hexponent : f.exponent with
    | none => simp [exponentPart, hexponent]
    | some e => simp
  · simp only [List.isEmpty_iff, hfraction, if_false, f.readExponent_exponentPart hrest, number]
    cases hexponent : f.exponent with
    | none => simp [exponentPart, hexponent, hfraction]
    | some e => simp

theorem number_ofNat (n : Nat) (negative : Bool) :
    (ofNat n).number negative = .int (if negative then -(n : Int) else n) := by
  have hvalue : digitsValue (Nat.toDigits 10 n) = n := by
    rw [digitsValue_eq (whole_toDigits n).1.2, Nat.ofDigitChars_ten_toDigits]
  simp [number, ofNat, hvalue]

/-- The figure of the digits in which a double is written is read as the double. -/
theorem Shows.number_eq {x : Float} (h : (x.isNaN || x.isInf) = false)
    (hf : f.Shows (writtenDigits (Binary64.parts x))) :
    f.number (Binary64.parts x).negative = .float x := by
  obtain ⟨before, after, hdigits, hplace⟩ := hf.digits
  have hvalue : digitsValue (f.whole ++ f.fraction) =
      10 ^ after * Nat.ofDigitChars 10 (writtenDigits (Binary64.parts x)).digits 0 := by
    rw [digitsValue_eq (List.forall_mem_append.mpr ⟨hf.sound.whole.1.2, hf.sound.fraction⟩), hdigits,
      Nat.ofDigitChars_append, Nat.ofDigitChars_append, Nat.ofDigitChars_replicate_zero,
      Nat.ofDigitChars_replicate_zero, Nat.mul_zero]
  have hmarked : (f.fraction.isEmpty && f.exponent.isNone) = false := by
    cases hexponent : f.exponent with
    | none => simp [hf.marked hexponent]
    | some e => simp
  rw [number, hmarked, if_neg Bool.false_ne_true]
  rw [ofDecimal_eq_self h]
  rw [hvalue, hplace, Digits.number, sub_eq_add_neg _ (after : Int), zpow_add₀ (by norm_num), zpow_neg,
    zpow_natCast]
  push_cast
  field_simp

private theorem find?_words {c : Char} (hc : c.isDigit = true) (cs : List Char) :
    (literalWords.find? fun w => w.1.isPrefixOf (c :: cs)) = none ∧
      (literalWords.find? fun w => w.1.isPrefixOf ('-' :: c :: cs)) = none := by
  have hother (d : Char) (hd : d.isDigit = false) : d ≠ c := by
    rintro rfl
    rw [hc] at hd
    cases hd
  constructor <;> simp [literalWords, List.isPrefixOf, hother]

theorem readScalar_text (hf : f.Sound) (negative : Bool) (hrest : Ends rest) :
    readScalar ((if negative then ['-'] else []) ++ f.text ++ rest) =
      .ok (.number (f.number negative), rest) := by
  obtain ⟨c, cs, hc, htext⟩ : ∃ c cs, c.isDigit = true ∧ f.text ++ rest = c :: cs := by
    obtain ⟨c, cs, hwhole⟩ := List.exists_cons_of_ne_nil hf.whole.1.1
    refine ⟨c, cs ++ (f.fractionText ++ f.exponentPart) ++ rest, hf.whole.1.2 c ?_, ?_⟩
    · rw [hwhole]
      exact List.mem_cons_self
    · rw [text, hwhole]
      rfl
  have hread := readUnsigned_text hf negative hrest
  cases negative with
  | false =>
    have hsign : ∀ more, c :: cs = '-' :: more → False := by
      rintro more ⟨⟩
      cases hc
    rw [if_neg Bool.false_ne_true, List.nil_append, htext, readScalar, (find?_words hc cs).1,
      readNumber, ← htext, hread]
    exact htext ▸ hsign
  | true =>
    rw [if_pos rfl, List.append_assoc, List.singleton_append, htext, readScalar,
      (find?_words hc cs).2, readNumber, ← htext, hread]

end BusinessAtlas.Decimal.Figure

namespace BusinessAtlas.Json

open Decimal (Figure)

theorem readScalar_word {w : List Char × Json} (hw : w ∈ literalWords) (rest : List Char) :
    readScalar (w.1 ++ rest) = .ok (w.2, rest) := by
  simp only [literalWords, List.mem_cons, List.not_mem_nil, or_false] at hw
  rcases hw with rfl | rfl | rfl | rfl | rfl | rfl <;> rfl

/-- Every number is read back, one that is infinite or undefined by its word. -/
theorem readScalar_writtenNumber (n : Number) {rest : List Char} (hrest : Ends rest) :
    readScalar ((writtenNumber n).toList ++ rest) = .ok (.number n, rest) := by
  cases n with
  | int n =>
    have hread := Figure.readScalar_text (Figure.sound_ofNat n.natAbs) (decide (n < 0)) hrest
    rw [Figure.number_ofNat] at hread
    simp only [decide_eq_true_eq] at hread
    rw [writtenNumber, Decimal.toList_toString, hread]
    split
    · rw [show -(n.natAbs : Int) = n by omega]
    · rw [show (n.natAbs : Int) = n by omega]
  | float x =>
    rw [writtenNumber]
    split
    · next hnan =>
      rw [Binary64.eq_of_isNaN hnan]
      exact readScalar_word (w := ("NaN".toList, .number (.float (0 / 0)))) (by simp [literalWords]) rest
    · next hnan =>
      split
      · next hinf =>
        have hself := Binary64.eq_of_isInf hinf
        split
        · next hneg =>
          rw [hself, if_pos hneg]
          exact readScalar_word (w := ("-Infinity".toList, .number (.float (-1 / 0))))
            (by simp [literalWords]) rest
        · next hpos =>
          rw [hself, if_neg hpos]
          exact readScalar_word (w := ("Infinity".toList, .number (.float (1 / 0))))
            (by simp [literalWords]) rest
      · next hinf =>
        have hfinite : (x.isNaN || x.isInf) = false :=
          Bool.or_eq_false_iff.mpr ⟨Bool.eq_false_iff.mpr hnan, Bool.eq_false_iff.mpr hinf⟩
        obtain ⟨f, hf, htext⟩ := Decimal.exists_figure_shortest hfinite
        rw [htext, Figure.readScalar_text hf.sound _ hrest, hf.number_eq hfinite]

section Texts

variable {rest : List Char}

private theorem hexUnit?_hexDigits {n : Nat} (hn : n < 0x10000) (hrest : rest ≠ []) :
    hexUnit? (Text.hexDigits 4 n ++ rest) = some (n, rest) := by
  have hdigit (m : Nat) : Text.hexDigit? (Nat.digitChar (m % 16)) = some (m % 16) := by
    have hdigits : ∀ d : Fin 16, Text.hexDigit? (Nat.digitChar d) = some d.val := by decide
    exact hdigits ⟨m % 16, Nat.mod_lt _ (by decide)⟩
  obtain ⟨c, cs, rfl⟩ := List.exists_cons_of_ne_nil hrest
  simp only [Text.hexDigits, List.nil_append, List.cons_append, hexUnit?, hdigit]
  rw [Option.some.injEq, Prod.mk.injEq]
  exact ⟨by omega, rfl⟩

private theorem readText_unit (opening : List Char) (fuel : Nat) (done : List Char) {n : Nat}
    (hn : n < 0x10000) (hlone : ¬(0xD800 ≤ n ∧ n ≤ 0xDBFF)) (hrest : rest ≠ []) :
    readText opening (fuel + 1) done ('\\' :: 'u' :: (Text.hexDigits 4 n ++ rest)) =
      readText opening fuel (loneUnit n :: done) rest := by
  rw [readText, hexUnit?_hexDigits hn hrest]
  dsimp only
  split
  · rw [if_neg (by simp only [Bool.and_eq_true, decide_eq_true_eq]; omega)]
  · rfl

private theorem readText_pair (opening : List Char) (fuel : Nat) (done : List Char) (high low : Nat)
    (hhigh : 0xD800 ≤ high ∧ high ≤ 0xDBFF) (hlow : 0xDC00 ≤ low ∧ low ≤ 0xDFFF) (hrest : rest ≠ []) :
    readText opening (fuel + 1) done
      ('\\' :: 'u' :: (Text.hexDigits 4 high ++ '\\' :: 'u' :: (Text.hexDigits 4 low ++ rest))) =
      readText opening fuel (joinSurrogates high low :: done) rest := by
  have hlength : 5 ≤ (Text.hexDigits 4 low ++ rest).length := by
    have hpos := List.length_pos_iff.mpr hrest
    simp only [Text.hexDigits, List.nil_append, List.cons_append, List.length_cons]
    omega
  have hguard : (0xD800 ≤ high && high ≤ 0xDBFF && 5 ≤ (Text.hexDigits 4 low ++ rest).length) = true := by
    simpa using And.intro hhigh (by simpa using hlength)
  rw [readText, hexUnit?_hexDigits (by omega) (List.cons_ne_nil _ _)]
  dsimp only
  split
  · next more hmore =>
    cases hmore
    rw [if_pos hguard, hexUnit?_hexDigits (by omega) hrest]
    dsimp only
    rw [if_pos (by simpa using hlow)]
  · next hother => exact absurd rfl (hother _)

private theorem char_range (c : Char) : c.toNat < 0xD800 ∨ 0xDFFF < c.toNat ∧ c.toNat < 0x110000 :=
  c.valid

/-- One step of the reader passes over what stands for a character. -/
theorem readText_escapedChar (opening : List Char) (fuel : Nat) (done : List Char) (c : Char)
    (hrest : rest ≠ []) :
    readText opening (fuel + 1) done (escapedChar c ++ rest) =
      readText opening fuel (c :: done) rest := by
  by_cases hc : c ∈ ['"', '\\', '\n', '\r', '\t', '\x0c', '\x08']
  · simp only [List.mem_cons, List.not_mem_nil, or_false] at hc
    rcases hc with rfl | rfl | rfl | rfl | rfl | rfl | rfl <;> rfl
  · simp only [List.mem_cons, List.not_mem_nil, or_false, not_or] at hc
    have hrange := char_range c
    simp only [escapedChar, beq_iff_eq, hc, if_false]
    split
    · next hplain =>
      simp only [Bool.and_eq_true, decide_eq_true_eq] at hplain
      rw [List.singleton_append, readText]
      · rw [if_neg (by omega)]
      · exact fun h => hc.1 h
      · exact fun _ h => absurd h hc.2.1
      · exact fun _ _ h => absurd h hc.2.1
      · exact fun h => absurd h hc.2.1
    · split
      · next hunit =>
        rw [List.cons_append, List.cons_append, readText_unit _ _ _ hunit (by omega) hrest, loneUnit,
          if_neg (by simp only [Bool.and_eq_true, decide_eq_true_eq]; omega), Char.ofNat_toNat]
      · next hpair =>
        have hjoined : joinSurrogates (0xD800 + (c.toNat - 0x10000) / 0x400)
            (0xDC00 + (c.toNat - 0x10000) % 0x400) = c := by
          rw [joinSurrogates, show 0x10000 + (0xD800 + (c.toNat - 0x10000) / 0x400 - 0xD800) * 0x400 +
            (0xDC00 + (c.toNat - 0x10000) % 0x400 - 0xDC00) = c.toNat by omega, Char.ofNat_toNat]
        have hread := readText_pair opening fuel done (0xD800 + (c.toNat - 0x10000) / 0x400)
          (0xDC00 + (c.toNat - 0x10000) % 0x400) (by omega) (by omega) hrest
        rw [hjoined] at hread
        simpa using hread

theorem readText_writtenText (opening : List Char) {fuel : Nat} (done cs : List Char)
    (hfuel : cs.length < fuel) :
    readText opening fuel done (cs.flatMap escapedChar ++ '"' :: rest) =
      .ok (.ofList (done.reverse ++ cs), rest) := by
  induction cs generalizing fuel done with
  | nil =>
    obtain ⟨fuel, rfl⟩ : ∃ k, fuel = k + 1 := ⟨fuel - 1, by simp at hfuel; omega⟩
    simp [readText]
  | cons c cs ih =>
    obtain ⟨fuel, rfl⟩ : ∃ k, fuel = k + 1 := ⟨fuel - 1, by simp at hfuel; omega⟩
    rw [List.flatMap_cons, List.append_assoc, readText_escapedChar _ _ _ _ (by simp),
      ih _ (by simpa using hfuel)]
    simp

end Texts

end BusinessAtlas.Json
