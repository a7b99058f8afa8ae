import BusinessAtlas.Yaml.Scalar

/-!
# Reading YAML

A reader for the part of YAML in which settings are written: block mappings and lists by indentation,
flow collections as in JSON, plain and quoted scalars, comments and a document marker. Anything else
is refused. Each function takes the characters still to be read and the column of the first of them,
and returns `none` where the text is not of that form. What is read are nodes, which become values
once all of their scalars can be made out.
-/

namespace BusinessAtlas.Yaml

/-- A node of a document. A scalar is a value or cannot be made out. -/
inductive Node where
  | scalar (value : Except ScalarFault Yaml)
  | list (items : List Node)
  | mapping (pairs : List (Node × Node))
  deriving Inhabited

namespace Node

def null : Node := scalar (.ok .null)

def isKey : Node → Bool
  | scalar _ => true
  | list _ | mapping _ => false

/-- The lists of two levels of a node, joined level by level. -/
def joinLevels {α : Type} : List (List α) → List (List α) → List (List α)
  | [], levels => levels
  | levels, [] => levels
  | a :: as, b :: bs => (a ++ b) :: joinLevels as bs

mutual

/-- The faults of the scalars of a node, level by level of nesting. -/
def faultLevels : Node → List (List ScalarFault)
  | scalar (.error fault) => [[fault]]
  | scalar (.ok _) => []
  | list items => [] :: itemFaultLevels items
  | mapping pairs => [] :: pairFaultLevels pairs

def itemFaultLevels : List Node → List (List ScalarFault)
  | [] => []
  | v :: rest => joinLevels (faultLevels v) (itemFaultLevels rest)

/-- The faults in the keys and values of a mapping. -/
def pairFaultLevels : List (Node × Node) → List (List ScalarFault)
  | [] => []
  | (k, v) :: rest =>
    joinLevels (faultLevels k) (joinLevels (faultLevels v) (pairFaultLevels rest))

end

mutual

/-- The value of a node, with null for a scalar that cannot be made out. -/
def value : Node → Yaml
  | scalar (.ok v) => v
  | scalar (.error _) => .null
  | list items => .list (itemValues items)
  | mapping pairs => .mapping (pairValues pairs)

def itemValues : List Node → List Yaml
  | [] => []
  | v :: rest => value v :: itemValues rest

def pairValues : List (Node × Node) → List (Yaml × Yaml)
  | [] => []
  | (k, v) :: rest => (value k, value v) :: pairValues rest

end

/-- The value of a node or the fault that is met first: a collection is made out after everything that
stands beside it. -/
def value? (v : Node) : Except ScalarFault Yaml :=
  match v.faultLevels.flatten.head? with
  | some fault => .error fault
  | none => .ok v.value

end Node

/-- A place in the text: what is still to be read and its column. -/
structure Cursor where
  rest : List Char
  column : Nat

/-- What was read and where reading goes on. -/
abbrev Step (α : Type) : Type := Option (α × Cursor)

/-- Whether a character may stand in a file. -/
def isAllowed (c : Char) : Bool :=
  let n := c.toNat
  n == 0x09 || n == 0x0A || n == 0x0D || (0x20 ≤ n && n ≤ 0x7E) || n == 0x85
    || (0xA0 ≤ n && n ≤ 0xFFFD) || 0x10000 ≤ n

/-- Whether the text ends here or a blank follows. -/
def atBlank : List Char → Bool
  | [] => true
  | c :: _ => c == ' ' || c == '\t' || c == '\n'

/-- The next token, past blanks, line ends and comments, and whether a line end was passed. -/
def nextToken (comment newline : Bool) : List Char → Nat → Cursor × Bool
  | [], column => (⟨[], column⟩, newline)
  | c :: cs, column =>
    if c == '\n' then nextToken false true cs 0
    else if comment || c == ' ' then nextToken comment newline cs (column + 1)
    else if c == '#' then nextToken true newline cs (column + 1)
    else (⟨c :: cs, column⟩, newline)

def Cursor.next (k : Cursor) : Cursor × Bool := nextToken false false k.rest k.column

def Cursor.skipBlanks (k : Cursor) : Cursor :=
  let blanks := k.rest.takeWhile (· == ' ')
  ⟨k.rest.drop blanks.length, k.column + blanks.length⟩

/-- Whether a mark of three characters stands at the start of a line. -/
def Cursor.atMark (mark : List Char) (k : Cursor) : Bool :=
  k.column == 0 && mark.isPrefixOf k.rest && atBlank (k.rest.drop 3)

def Cursor.atEnd (k : Cursor) : Bool :=
  k.rest.isEmpty || k.atMark ['-', '-', '-'] || k.atMark ['.', '.', '.']

/-- Whether an entry of a block list starts here. -/
def Cursor.atEntry (k : Cursor) : Bool :=
  match k.rest with
  | '-' :: cs => atBlank cs
  | _ => false

def Cursor.atColon (flow : Bool) (k : Cursor) : Bool :=
  match k.rest with
  | ':' :: cs => flow || atBlank cs
  | _ => false

/-- The characters that structure flow collections. -/
def flowMarks : List Char := [',', '[', ']', '\x7b', '\x7d']

/-- Whether a plain scalar can start here. -/
def canStartPlain (flow : Bool) : List Char → Bool
  | [] => false
  | c :: cs =>
    let reserved := ['-', '?', ':', '#', '&', '*', '!', '|', '>', '\x27', '"', '%', '@', '\x60',
      ' ', '\t', '\n'] ++ flowMarks
    !reserved.contains c || (!atBlank cs && (c == '-' || (!flow && (c == '?' || c == ':'))))

/-- The part of a plain scalar up to the next blank, and what follows it. -/
def plainRun (flow : Bool) : List Char → List Char × List Char
  | [] => ([], [])
  | c :: cs =>
    let colonEnds := c == ':' && (atBlank cs || (flow && cs.head?.any flowMarks.contains))
    if c == ' ' || c == '\t' || c == '\n' || colonEnds
        || (flow && (c == '?' || flowMarks.contains c)) then ([], c :: cs)
    else
      let (run, rest) := plainRun flow cs
      (c :: run, rest)

/-- The blanks and line ends between two parts of a scalar: what they stand for, and where the next
part starts. One line end stands for a blank, more stand for one less. -/
def foldBlanks (k : Cursor) : List Char × Cursor × Bool :=
  let blanks := k.rest.takeWhile (· == ' ')
  match k.rest.drop blanks.length with
  | '\n' :: cs =>
    let gap := cs.takeWhile fun c => c == ' ' || c == '\n'
    let breaks := gap.count '\n'
    let column := (gap.reverse.takeWhile (· != '\n')).length
    (if breaks == 0 then [' '] else List.replicate breaks '\n', ⟨cs.drop gap.length, column⟩, true)
  | cs => (blanks, ⟨cs, k.column + blanks.length⟩, false)

/-- A plain scalar: its text, whether it goes over several lines, and where it ends. Its further
lines start at the column `least` or after it. -/
def readPlain (flow : Bool) (least : Nat) : Nat → Cursor → List Char → Bool →
    (List Char × Bool) × Cursor
  | 0, k, done, lines => ((done, lines), k)
  | fuel + 1, k, done, lines =>
    let (run, rest) := plainRun flow k.rest
    let k := ⟨rest, k.column + run.length⟩
    let done := done ++ run
    let (gap, after, newline) := foldBlanks k
    if gap.isEmpty || after.rest.head? == some '#' || (newline && !flow && after.column < least)
        || (newline && after.atEnd) || (plainRun flow after.rest).1.isEmpty then
      ((done, lines), k)
    else readPlain flow least fuel after (done ++ gap) (lines || newline)

/-- The character of an escape of one letter. -/
def escapes : List (Char × Char) :=
  [('0', '\x00'), ('a', '\x07'), ('b', '\x08'), ('t', '\t'), ('\t', '\t'), ('n', '\n'),
    ('v', '\x0b'), ('f', '\x0c'), ('r', '\r'), ('e', '\x1b'), (' ', ' '), ('"', '"'), ('\\', '\\'),
    ('/', '/'), ('N', '\u0085'), ('_', '\u00a0'), ('L', '\u2028'), ('P', '\u2029')]

/-- The character of an escape by code, with its count of digits. -/
def codeEscape? (letter : Char) (cs : List Char) : Option (Char × List Char) :=
  let count := if letter == 'x' then 2 else if letter == 'u' then 4 else if letter == 'U' then 8
    else 0
  let ds := cs.take count
  let code := inBase 16 ds
  if count == 0 || ds.length < count || !ds.all fun c => (Text.hexDigit? c).isSome then none
  else if code.isValidChar then some (.ofNat code, cs.drop count)
  else none

/-- A scalar after its opening quote; `done` is its text in reverse. -/
def readQuoted (quote : Char) : Nat → Cursor → List Char → Bool → Step (List Char × Bool)
  | 0, _, _, _ => none
  | fuel + 1, k, done, lines =>
    match k.rest with
    | [] => none
    | c :: cs =>
      if c == quote then
        match cs with
        | d :: more =>
          if quote == '\x27' && d == quote then
            readQuoted quote fuel ⟨more, k.column + 2⟩ (quote :: done) lines
          else some ((done.reverse, lines), ⟨cs, k.column + 1⟩)
        | [] => some ((done.reverse, lines), ⟨cs, k.column + 1⟩)
      else if c == '\\' && quote == '"' then
        match cs with
        | [] => none
        | '\n' :: more =>
          let gap := more.takeWhile (· == ' ')
          readQuoted quote fuel ⟨more.drop gap.length, gap.length⟩ done true
        | d :: more =>
          match escapes.lookup d with
          | some e => readQuoted quote fuel ⟨more, k.column + 2⟩ (e :: done) lines
          | none =>
            match codeEscape? d more with
            | some (e, rest) =>
              readQuoted quote fuel ⟨rest, k.column + 2 + (more.length - rest.length)⟩ (e :: done)
                lines
            | none => none
      else if c == ' ' || c == '\n' then
        let (gap, after, newline) := foldBlanks k
        if newline && after.atEnd then none
        else readQuoted quote fuel after (gap.reverse ++ done) (lines || newline)
      else readQuoted quote fuel ⟨cs, k.column + 1⟩ (c :: done) lines

/-- A scalar: its value, and whether it goes over several lines. -/
def readScalar (flow : Bool) (least fuel : Nat) (k : Cursor) : Step (Node × Bool) :=
  match k.rest with
  | [] => none
  | c :: cs =>
    if c == '"' || c == '\x27' then
      (readQuoted c fuel ⟨cs, k.column + 1⟩ [] false).map fun ((cs, lines), k) =>
        ((.scalar (.ok (.text (.ofList cs))), lines), k)
    else if canStartPlain flow k.rest then
      let ((cs, lines), k) := readPlain flow least fuel k [] false
      some ((.scalar (ofPlain (.ofList cs)), lines), k)
    else none

mutual

/-- A value inside a flow collection, or null where the collection goes on at once. -/
def readFlow : Nat → Cursor → Step (Node × Bool)
  | 0, _ => none
  | fuel + 1, k =>
    match k.rest with
    | '[' :: cs => (readFlowItems fuel [] ⟨cs, k.column + 1⟩).map fun (v, k) => ((v, true), k)
    | '\x7b' :: cs => (readFlowPairs fuel [] ⟨cs, k.column + 1⟩).map fun (v, k) => ((v, true), k)
    | _ => readScalar true 0 fuel k

/-- The value after a key inside a flow collection. -/
def readFlowValue : Nat → Cursor → Step Node
  | 0, _ => none
  | fuel + 1, k =>
    let (k, _) := k.next
    match k.rest with
    | [] => none
    | c :: _ =>
      if c == ',' || c == ']' || c == '\x7d' then some (.null, k)
      else (readFlow fuel k).map fun ((v, _), k) => (v, k)

def readFlowItems : Nat → List Node → Cursor → Step Node
  | 0, _, _ => none
  | fuel + 1, done, k =>
    let (k, _) := k.next
    match k.rest with
    | ']' :: cs => some (.list done.reverse, ⟨cs, k.column + 1⟩)
    | _ =>
      match readFlow fuel k with
      | none => none
      | some ((v, lines), k) =>
        let (after, newline) := k.next
        if after.atColon true && !newline && !lines && v.isKey then
          match readFlowValue fuel ⟨after.rest.drop 1, after.column + 1⟩ with
          | none => none
          | some (w, k) => closeItem fuel (.mapping [(v, w)] :: done) k.next.1
        else closeItem fuel (v :: done) after

/-- What follows an item of a flow list. -/
def closeItem : Nat → List Node → Cursor → Step Node
  | 0, _, _ => none
  | fuel + 1, done, k =>
    match k.rest with
    | ']' :: cs => some (.list done.reverse, ⟨cs, k.column + 1⟩)
    | ',' :: cs => readFlowItems fuel done ⟨cs, k.column + 1⟩
    | _ => none

/-- The pairs of a flow mapping after its brace or a comma. A key on its own has the value null. -/
def readFlowPairs : Nat → List (Node × Node) → Cursor → Step Node
  | 0, _, _ => none
  | fuel + 1, done, k =>
    let (k, _) := k.next
    match k.rest with
    | '\x7d' :: cs => some (.mapping done.reverse, ⟨cs, k.column + 1⟩)
    | _ =>
      match readFlow fuel k with
      | none => none
      | some ((v, lines), k) =>
        let (after, newline) := k.next
        if !v.isKey then none
        else if after.atColon true && !newline && !lines then
          match readFlowValue fuel ⟨after.rest.drop 1, after.column + 1⟩ with
          | none => none
          | some (w, k) => closePair fuel ((v, w) :: done) k.next.1
        else closePair fuel ((v, .null) :: done) after

/-- What follows a pair of a flow mapping. -/
def closePair : Nat → List (Node × Node) → Cursor → Step Node
  | 0, _, _ => none
  | fuel + 1, done, k =>
    match k.rest with
    | '\x7d' :: cs => some (.mapping done.reverse, ⟨cs, k.column + 1⟩)
    | ',' :: cs => readFlowPairs fuel done ⟨cs, k.column + 1⟩
    | _ => none

end

/-- A value that starts on its line: a flow collection or a scalar. -/
def readInline (least fuel : Nat) (k : Cursor) : Step (Node × Bool) :=
  match k.rest with
  | '[' :: _ | '\x7b' :: _ => readFlow fuel k
  | _ => readScalar false least fuel k

/-- A scalar key on one line with its colon. -/
def readKey (fuel : Nat) (k : Cursor) : Step Node :=
  match readScalar false (k.column + k.rest.length) fuel k with
  | some ((v, false), after) =>
    let colon := after.skipBlanks
    if colon.atColon false then some (v, ⟨colon.rest.drop 1, colon.column + 1⟩) else none
  | _ => none

/-- Whether the next token can follow a finished value: it stands on a new line or is none. -/
def Cursor.fresh (k : Cursor) (newline : Bool) : Bool := newline || k.rest.isEmpty

mutual

/-- A block value at the cursor; lines of scalars that go on start at the column `least`. -/
def readBlock : Nat → Nat → Cursor → Step Node
  | 0, _, _ => none
  | fuel + 1, least, k =>
    if k.atEntry then readEntries fuel k.column [] k
    else match readKey fuel k with
    | some _ => readPairs fuel k.column [] k
    | none => (readInline least fuel k).map fun ((v, _), k) => (v, k)

/-- The entries of a block list at a column. -/
def readEntries : Nat → Nat → List Node → Cursor → Step Node
  | 0, _, _, _ => none
  | fuel + 1, column, done, k =>
    let start : Cursor := ⟨k.rest.drop 1, k.column + 1⟩
    let (token, _) := start.next
    let entry : Step Node :=
      if token.atEnd || token.column ≤ column then some (.null, start)
      else readBlock fuel (column + 1) token
    match entry with
    | none => none
    | some (v, k) =>
      let (token, newline) := k.next
      if !token.fresh newline then none
      else if !token.atEnd && token.column == column && token.atEntry then
        readEntries fuel column (v :: done) token
      else if !token.atEnd && column < token.column then none
      else some (.list (v :: done).reverse, k)

/-- The pairs of a block mapping at a column. A list may stand at the column of its key. -/
def readPairs : Nat → Nat → List (Node × Node) → Cursor → Step Node
  | 0, _, _, _ => none
  | fuel + 1, column, done, k =>
    match readKey fuel k with
    | none => none
    | some (key, start) =>
      let (token, newline) := start.next
      let value : Step Node :=
        if token.atEnd then some (.null, start)
        else if !newline then
          if token.atEntry then none
          else (readInline (column + 1) fuel token).map fun ((v, _), k) => (v, k)
        else if column < token.column then readBlock fuel (column + 1) token
        else if token.column == column && token.atEntry then readEntries fuel column [] token
        else some (.null, start)
      match value with
      | none => none
      | some (v, k) =>
        let (token, newline) := k.next
        let done := (key, v) :: done
        if !token.fresh newline then none
        else if token.atEnd || token.column < column then some (.mapping done.reverse, k)
        else if token.column == column then readPairs fuel column done token
        else none

end

/-- Whether nothing but the end of the document follows. -/
def closed (k : Cursor) : Bool :=
  let (token, newline) := k.next
  token.rest.isEmpty
    || (newline && token.atMark ['.', '.', '.']
      && (Cursor.next ⟨token.rest.drop 3, 3⟩).1.rest.isEmpty)

/-- The value of a document. A marker may come first; on its own line only a value without block
structure may follow it. -/
def read? (cs : List Char) : Option Node :=
  if !cs.all isAllowed then none
  else
    let cs := match cs with
      | '\uFEFF' :: rest => rest
      | cs => cs
    let fuel := 4 * cs.length + 8
    let (token, _) := Cursor.next ⟨cs, 0⟩
    let marked := token.atMark ['-', '-', '-']
    let (start, newline) := if marked then Cursor.next ⟨token.rest.drop 3, 3⟩ else (token, true)
    if start.rest.isEmpty then some .null
    else
      let value := if newline then readBlock fuel 0 start
        else (readInline 0 fuel start).map fun ((v, _), k) => (v, k)
      match value with
      | some (v, k) => if closed k then some v else none
      | none => none

def reader : Reader ScalarFault where
  ofText cs :=
    match read? cs with
    | none => .error .malformed
    | some v => v.value?.mapError .broken
  beforeStray _ := none

end BusinessAtlas.Yaml
