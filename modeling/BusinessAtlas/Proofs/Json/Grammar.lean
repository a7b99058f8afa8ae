import BusinessAtlas.Text.Character

/-!
# Strict JSON

The grammar of JSON texts after RFC 8259, which has no word for a number that is infinite or
undefined. Outside the strings of such a text there is neither an `N` nor an `I`.
-/

namespace BusinessAtlas.Json.Strict

/-- Blanks, tabs and ends of lines. -/
def Space (cs : List Char) : Prop := ∀ c ∈ cs, c ∈ [' ', '\t', '\n', '\r']

/-- One digit or more. -/
def Digits (cs : List Char) : Prop := cs ≠ [] ∧ ∀ c ∈ cs, c.isDigit = true

/-- The digits of a whole number, which begin with no zero but that of zero itself. -/
def Whole (cs : List Char) : Prop := Digits cs ∧ (cs.head? = some '0' → cs = ['0'])

def Fraction (cs : List Char) : Prop := cs = [] ∨ ∃ ds, Digits ds ∧ cs = '.' :: ds

def Exponent (cs : List Char) : Prop :=
  cs = [] ∨ ∃ mark sign ds, mark ∈ ['e', 'E'] ∧ sign ∈ [[], ['+'], ['-']] ∧ Digits ds ∧
    cs = mark :: sign ++ ds

def Numeral (cs : List Char) : Prop :=
  ∃ sign whole fraction exponent, sign ∈ [[], ['-']] ∧ Whole whole ∧ Fraction fraction ∧
    Exponent exponent ∧ cs = sign ++ whole ++ fraction ++ exponent

/-- What stands for one character in a string. -/
inductive Letter : List Char → Prop where
  | plain {c : Char} : 0x20 ≤ c.toNat → c ≠ '"' → c ≠ '\\' → Letter [c]
  | escape {c : Char} : c ∈ ['"', '\\', '/', 'b', 'f', 'n', 'r', 't'] → Letter ['\\', c]
  | code {ds : List Char} : ds.length = 4 → (∀ d ∈ ds, (Text.hexDigit? d).isSome = true) →
    Letter ('\\' :: 'u' :: ds)

/-- A string between its quotes. -/
def Token (cs : List Char) : Prop :=
  ∃ letters : List (List Char), (∀ l ∈ letters, Letter l) ∧ cs = '"' :: letters.flatten ++ ['"']

/-- What the rules of the grammar are about. -/
inductive Symbol where
  | value
  | elements
  | members

/-- The rules of the grammar. -/
inductive Derives : Symbol → List Char → Prop where
  | null : Derives .value ['n', 'u', 'l', 'l']
  | true : Derives .value ['t', 'r', 'u', 'e']
  | false : Derives .value ['f', 'a', 'l', 's', 'e']
  | number {cs} : Numeral cs → Derives .value cs
  | string {cs} : Token cs → Derives .value cs
  | emptyArray {ws} : Space ws → Derives .value ('[' :: ws ++ [']'])
  | array {body} : Derives .elements body → Derives .value ('[' :: body ++ [']'])
  | emptyObject {ws} : Space ws → Derives .value ('{' :: ws ++ ['}'])
  | object {body} : Derives .members body → Derives .value ('{' :: body ++ ['}'])
  | element {a v b} : Space a → Derives .value v → Space b → Derives .elements (a ++ v ++ b)
  | elements {a v b rest} : Space a → Derives .value v → Space b → Derives .elements rest →
    Derives .elements (a ++ v ++ b ++ ',' :: rest)
  | member {a k b c v d} : Space a → Token k → Space b → Space c → Derives .value v → Space d →
    Derives .members (a ++ k ++ b ++ ':' :: c ++ v ++ d)
  | members {a k b c v d rest} : Space a → Token k → Space b → Space c → Derives .value v →
    Space d → Derives .members rest →
    Derives .members (a ++ k ++ b ++ ':' :: c ++ v ++ d ++ ',' :: rest)

end Strict

/-- The text is a JSON text: a value with space around it. -/
def Strict (s : String) : Prop :=
  ∃ a v b, Strict.Space a ∧ Strict.Derives .value v ∧ Strict.Space b ∧ s.toList = a ++ v ++ b

namespace Strict

/-- Where one is in a text. -/
inductive Place where
  | outside
  | inside
  | escaped

/-- The characters of a text outside its strings. -/
def bare : Place → List Char → List Char
  | _, [] => []
  | .outside, '"' :: rest => bare .inside rest
  | .outside, c :: rest => c :: bare .outside rest
  | .inside, '"' :: rest => bare .outside rest
  | .inside, '\\' :: rest => bare .escaped rest
  | .inside, _ :: rest => bare .inside rest
  | .escaped, _ :: rest => bare .inside rest

/-- The text ends outside its strings. -/
def Closed (cs : List Char) : Prop :=
  ∀ rest, bare .outside (cs ++ rest) = bare .outside cs ++ bare .outside rest

/-- There is no word for a number that is infinite or undefined outside the strings. -/
def Wordless (cs : List Char) : Prop := 'N' ∉ bare .outside cs ∧ 'I' ∉ bare .outside cs

variable {a b cs : List Char}

theorem bare_cons {c : Char} (h : c ≠ '"') (rest : List Char) :
    bare .outside (c :: rest) = c :: bare .outside rest := by
  rw [bare]
  exact h

theorem bare_append (h : '"' ∉ cs) (rest : List Char) :
    bare .outside (cs ++ rest) = cs ++ bare .outside rest := by
  induction cs with
  | nil => rfl
  | cons c cs ih =>
    obtain ⟨hc, hcs⟩ := not_or.mp (mt List.mem_cons.mpr h)
    rw [List.cons_append, bare_cons (Ne.symm hc), ih hcs, List.cons_append]

theorem bare_eq_self (h : '"' ∉ cs) : bare .outside cs = cs := by
  have hself := bare_append h []
  rwa [List.append_nil, bare, List.append_nil] at hself

theorem closed_of_quoteless (h : '"' ∉ cs) : Closed cs := by
  intro rest
  rw [bare_append h, bare_eq_self h]

theorem Closed.append (ha : Closed a) (hb : Closed b) : Closed (a ++ b) := by
  intro rest
  rw [List.append_assoc, ha, hb, ha b, List.append_assoc]

theorem Closed.wordless_append (ha : Closed a) : Wordless (a ++ b) ↔ Wordless a ∧ Wordless b := by
  rw [Wordless, ha b, List.mem_append, List.mem_append, not_or, not_or]
  exact and_and_and_comm

/-- The text ends outside its strings, where it has no such word. -/
structure Sound (cs : List Char) : Prop where
  closed : Closed cs
  wordless : Wordless cs

theorem Sound.append (ha : Sound a) (hb : Sound b) : Sound (a ++ b) :=
  ⟨ha.closed.append hb.closed, ha.closed.wordless_append.mpr ⟨ha.wordless, hb.wordless⟩⟩

theorem sound_of_chars (h : ∀ c ∈ cs, c ∉ ['"', 'N', 'I']) : Sound cs := by
  have hquote : '"' ∉ cs := fun hc => h _ hc (by decide)
  refine ⟨closed_of_quoteless hquote, ?_⟩
  rw [Wordless, bare_eq_self hquote]
  exact ⟨fun hc => h _ hc (by decide), fun hc => h _ hc (by decide)⟩

theorem sound_of_space (h : Space cs) : Sound cs := by
  have hspaces : ∀ c ∈ [' ', '\t', '\n', '\r'], c ∉ ['"', 'N', 'I'] := by simp
  exact sound_of_chars fun c hc => hspaces c (h c hc)

private theorem isDigit_not_word {c : Char} (h : c.isDigit = true) : c ∉ ['"', 'N', 'I'] := by
  have hwords : ∀ c ∈ ['"', 'N', 'I'], c.isDigit = false := by simp
  intro hc
  rw [hwords c hc] at h
  cases h

private theorem sound_of_digits (h : ∀ c ∈ cs, c.isDigit = true) : Sound cs :=
  sound_of_chars fun c hc => isDigit_not_word (h c hc)

theorem sound_of_numeral (h : Numeral cs) : Sound cs := by
  obtain ⟨sign, whole, fraction, exponent, hsign, hwhole, hfraction, hexponent, rfl⟩ := h
  have hsign : Sound sign := by
    have hsigns : ∀ s ∈ [[], ['-']], ∀ c ∈ s, c ∉ ['"', 'N', 'I'] := by simp
    exact sound_of_chars (hsigns sign hsign)
  have hfraction : Sound fraction := by
    rcases hfraction with rfl | ⟨ds, hds, rfl⟩
    · exact sound_of_chars (fun _ hc => absurd hc List.not_mem_nil)
    · exact (sound_of_chars (by simp) : Sound ['.']).append (sound_of_digits hds.2)
  have hexponent : Sound exponent := by
    rcases hexponent with rfl | ⟨mark, sign, ds, hmark, hsign, hds, rfl⟩
    · exact sound_of_chars (fun _ hc => absurd hc List.not_mem_nil)
    · have hmarks : ∀ m ∈ ['e', 'E'], ∀ s ∈ [[], ['+'], ['-']], ∀ c ∈ m :: s, c ∉ ['"', 'N', 'I'] := by
        simp
      exact (sound_of_chars (hmarks mark hmark sign hsign)).append (sound_of_digits hds.2)
  exact ((hsign.append (sound_of_digits hwhole.1.2)).append hfraction).append hexponent

private theorem bare_inside_cons {c : Char} (hquote : c ≠ '"') (hslash : c ≠ '\\')
    (rest : List Char) : bare .inside (c :: rest) = bare .inside rest := by
  rw [bare]
  · exact hquote
  · exact hslash

private theorem bare_inside_append (h : ∀ c ∈ cs, c ≠ '"' ∧ c ≠ '\\') (rest : List Char) :
    bare .inside (cs ++ rest) = bare .inside rest := by
  induction cs with
  | nil => rfl
  | cons c cs ih =>
    obtain ⟨⟨hquote, hslash⟩, hcs⟩ := List.forall_mem_cons.mp h
    rw [List.cons_append, bare_inside_cons hquote hslash, ih hcs]

private theorem bare_letter (h : Letter cs) (rest : List Char) :
    bare .inside (cs ++ rest) = bare .inside rest := by
  cases h with
  | plain _ hquote hslash => exact bare_inside_cons hquote hslash rest
  | escape _ => rw [List.cons_append, List.cons_append, List.nil_append, bare, bare]
  | code _ hdigits =>
    have hother : ∀ c ∈ ['"', '\\'], (Text.hexDigit? c).isSome = false :=
      List.forall_mem_cons.mpr ⟨by decide, List.forall_mem_singleton.mpr (by decide)⟩
    rw [List.cons_append, List.cons_append, bare, bare]
    refine bare_inside_append (fun d hd => ⟨?_, ?_⟩) rest
    · rintro rfl
      exact Bool.false_ne_true ((hother _ (by decide)).symm.trans (hdigits _ hd))
    · rintro rfl
      exact Bool.false_ne_true ((hother _ (by decide)).symm.trans (hdigits _ hd))

theorem bare_token (h : Token cs) (rest : List Char) :
    bare .outside (cs ++ rest) = bare .outside rest := by
  obtain ⟨letters, hletters, rfl⟩ := h
  have hinside : ∀ after, bare .inside (letters.flatten ++ after) = bare .inside after := by
    intro after
    induction letters with
    | nil => rfl
    | cons l letters ih =>
      obtain ⟨hl, hrest⟩ := List.forall_mem_cons.mp hletters
      rw [List.flatten_cons, List.append_assoc, bare_letter hl, ih hrest]
  rw [List.append_assoc, List.cons_append, bare, hinside, List.singleton_append, bare]

theorem sound_of_token (h : Token cs) : Sound cs := by
  have hbare : bare .outside cs = [] := by
    have hself := bare_token h []
    rwa [List.append_nil, bare] at hself
  refine ⟨fun rest => by rw [bare_token h, hbare, List.nil_append], ?_⟩
  rw [Wordless, hbare]
  exact ⟨List.not_mem_nil, List.not_mem_nil⟩

theorem sound_of_derives {σ : Symbol} (h : Derives σ cs) : Sound cs := by
  have hmark {c : Char} (hc : c ∉ ['"', 'N', 'I']) : Sound [c] :=
    sound_of_chars fun d hd => List.mem_singleton.mp hd ▸ hc
  have hcons {c : Char} {rest : List Char} (hc : c ∉ ['"', 'N', 'I']) (hrest : Sound rest) :
      Sound (c :: rest) := (hmark hc).append hrest
  induction h with
  | null => exact sound_of_chars (by simp)
  | true => exact sound_of_chars (by simp)
  | false => exact sound_of_chars (by simp)
  | number h => exact sound_of_numeral h
  | string h => exact sound_of_token h
  | emptyArray h =>
    exact hcons (by decide) ((sound_of_space h).append (hmark (by decide)))
  | array _ ih => exact hcons (by decide) (ih.append (hmark (by decide)))
  | emptyObject h =>
    exact hcons (by decide) ((sound_of_space h).append (hmark (by decide)))
  | object _ ih => exact hcons (by decide) (ih.append (hmark (by decide)))
  | element ha _ hb ih => exact ((sound_of_space ha).append ih).append (sound_of_space hb)
  | elements ha _ hb _ ih ihrest =>
    exact (((sound_of_space ha).append ih).append (sound_of_space hb)).append
      (hcons (by decide) ihrest)
  | member ha hk hb hc _ hd ih =>
    exact (((((sound_of_space ha).append (sound_of_token hk)).append (sound_of_space hb)).append
      (hcons (by decide) (sound_of_space hc))).append ih).append (sound_of_space hd)
  | members ha hk hb hc _ hd _ ih ihrest =>
    exact ((((((sound_of_space ha).append (sound_of_token hk)).append (sound_of_space hb)).append
      (hcons (by decide) (sound_of_space hc))).append ih).append (sound_of_space hd)).append
      (hcons (by decide) ihrest)

end Strict

/-- Outside its strings, a JSON text has no word for a number that is infinite or undefined. -/
theorem Strict.wordless {s : String} (h : Strict s) : Strict.Wordless s.toList := by
  obtain ⟨a, v, b, ha, hv, hb, hs⟩ := h
  rw [hs]
  exact ((sound_of_space ha).append (sound_of_derives hv)).append (sound_of_space hb) |>.wordless

end BusinessAtlas.Json
