import BusinessAtlas.Config.Settings
import BusinessAtlas.Text.Search

/-!
# Arguments

The arguments of the program. An option may be shortened as long as only one option starts that
way, its value may follow behind an equals sign, and the value of the one-letter option may follow
it directly. After two dashes everything is an operand.
-/

namespace BusinessAtlas

/-- The options of the program. -/
inductive Flag where
  | help
  | outputDir
  | config
  | formats
  | analyse
  | noMetadata
  | noPositions
  | compact
  | logLevel
  deriving DecidableEq

/-- How many values an option takes. -/
inductive Arity where
  | none
  | one
  | several
  deriving DecidableEq

namespace Flag

/-- The spellings of the options, in the order in which they are declared. -/
def spellings : List (String × Flag) :=
  [("-h", help), ("--help", help), ("-o", outputDir), ("--output-dir", outputDir),
    ("--config", config), ("--formats", formats), ("--analyze", analyse),
    ("--no-metadata", noMetadata), ("--no-positions", noPositions), ("--compact", compact),
    ("--log-level", logLevel)]

def arity : Flag → Arity
  | outputDir | config | logLevel => .one
  | formats => .several
  | help | analyse | noMetadata | noPositions | compact => .none

def choices : Flag → Option (List String)
  | formats => some Config.declaredFormats
  | logLevel => some ["DEBUG", "INFO", "WARNING", "ERROR", "CRITICAL"]
  | _ => none

end Flag

/-- How the program is asked to work. -/
structure Options where
  outputDir : String
  config : Option String
  formats : Option (List String)
  analyse : Bool
  noMetadata : Bool
  noPositions : Bool
  compact : Bool

/-- What the program is asked to do. -/
structure Arguments extends Options where
  facts : String

/-- Why the arguments are not followed. -/
inductive Stop where
  /-- They are wrong. -/
  | usage
  /-- They ask for help. -/
  | help
  deriving DecidableEq

/-- The status that the program ends with when it does not follow its arguments. -/
def Stop.status : Stop → Nat
  | usage => 2
  | help => 0

def Options.default : Options :=
  ⟨"business-graph-output", none, none, false, false, false, false⟩

namespace Arguments

def usage : String := "usage: business-atlas [options] FACTS\noptions: "
  ++ ", ".intercalate (Flag.spellings.map (·.1))

def paths (a : Arguments) : List String := a.config.toList ++ [a.facts, a.outputDir]

/-- An argument as it is read on its own. -/
inductive Word where
  /-- A value or an operand. -/
  | operand (text : String)
  /-- Two dashes. -/
  | separator
  /-- An option as it was spelled, with a value that came with it. -/
  | option (spelling : String) (flag : Flag) (value : Option String)
  /-- What looks like an option and is none. -/
  | unknown
  deriving DecidableEq

/-- Whether a text is a negative decimal number. -/
def isNegativeNumber (s : String) : Bool :=
  match s.toList with
  | '-' :: cs =>
    let (whole, rest) := cs.span Char.isDigit
    match rest with
    | [] => !whole.isEmpty
    | '.' :: fraction => !fraction.isEmpty && fraction.all Char.isDigit
    | _ => false
  | _ => false

/-- The part of a text before the first equals sign and the part after it. -/
def splitValue (s : String) : String × Option String :=
  match s.toList.span (· ≠ '=') with
  | (name, _ :: value) => (.ofList name, some (.ofList value))
  | (name, []) => (.ofList name, none)

/-- The options that a text may stand for, each with the value that came with it. -/
def candidates (s : String) : List (String × Flag × Option String) :=
  if Text.startsWith "--" s then
    let (name, value) := splitValue s
    (Flag.spellings.filter fun o => Text.startsWith name o.1).map fun o => (o.1, o.2, value)
  else
    let letter := String.ofList (s.toList.take 2)
    let value := String.ofList (s.toList.drop 2)
    Flag.spellings.filterMap fun o =>
      if o.1 == letter then some (o.1, o.2, some value)
      else if Text.startsWith s o.1 then some (o.1, o.2, none)
      else none

/-- Reads an argument that is not behind two dashes. A text that several options start with is
refused. -/
def readWord (s : String) : Except Stop Word :=
  if !Text.startsWith "-" s || s == "-" then .ok (.operand s)
  else match Flag.spellings.lookup s with
    | some flag => .ok (.option s flag none)
    | none =>
      let (name, value) := splitValue s
      match value, Flag.spellings.lookup name with
      | some v, some flag => .ok (.option name flag (some v))
      | _, _ =>
        match candidates s with
        | [(spelling, flag, v)] => .ok (.option spelling flag v)
        | _ :: _ :: _ => .error .usage
        | [] =>
          if isNegativeNumber s || s.toList.contains ' ' then .ok (.operand s)
          else .ok .unknown

def readWords : List String → Except Stop (List Word)
  | [] => .ok []
  | "--" :: rest => .ok (.separator :: rest.map .operand)
  | s :: rest => do return (← readWord s) :: (← readWords rest)

/-- Whether a value may be given for an option. -/
def allowed (flag : Flag) (value : String) : Bool :=
  match flag.choices with
  | some values => values.contains value
  | none => true

def follow (a : Options) (flag : Flag) (values : List String) : Except Stop Options :=
  if !values.all (allowed flag) then .error .usage
  else match flag, values with
    | .help, _ => .error .help
    | .outputDir, v :: _ => .ok { a with outputDir := v }
    | .config, v :: _ => .ok { a with config := some v }
    | .formats, vs => .ok { a with formats := some vs }
    | .analyse, _ => .ok { a with analyse := true }
    | .noMetadata, _ => .ok { a with noMetadata := true }
    | .noPositions, _ => .ok { a with noPositions := true }
    | .compact, _ => .ok { a with compact := true }
    | _, _ => .ok a

/-- The operands at the start of some words, up to an option or two dashes. -/
def operands : List Word → List String
  | .operand s :: rest => s :: operands rest
  | _ => []

/-- The values that an option takes from the words behind it. -/
def valuesFrom (flag : Flag) (words : List Word) : Except Stop (List String) :=
  match flag.arity, operands words with
  | .none, _ => .ok []
  | _, [] => .error .usage
  | .one, v :: _ => .ok [v]
  | .several, vs => .ok vs

def letterFlag (c : Char) : Option Flag := Flag.spellings.lookup (.ofList ['-', c])

/-- Follows an option that came with a value. A one-letter option without values may be followed by
the letter of another option. Returns how many words behind the option were used. -/
def followJoined (a : Options) (spelling : String) (flag : Flag) (value : List Char)
    (words : List Word) (pending : List Flag) : Except Stop (Options × Nat) :=
  let finish (flag : Flag) (values : List String) (used : Nat) : Except Stop (Options × Nat) := do
    let a ← pending.reverse.foldlM (fun a f => follow a f []) a
    return (← follow a flag values, used)
  match flag.arity with
  | .one | .several => finish flag [.ofList value] 0
  | .none =>
    if Text.startsWith "--" spelling then .error .usage
    else match value with
      | [] => .error .usage
      | c :: rest =>
        match letterFlag c with
        | none => .error .usage
        | some next =>
          if rest.isEmpty then do
            let values ← valuesFrom next words
            let a ← (pending.reverse ++ [flag]).foldlM (fun a f => follow a f []) a
            return (← follow a next values, values.length)
          else followJoined a (.ofList ['-', c]) next rest words (flag :: pending)
termination_by value.length

/-- What is found while the words are followed: the options, the path of the facts and whether some
word was left over. -/
structure State where
  options : Options
  facts : Option String
  surplus : Bool

/-- Takes the operand that names the facts from the words at the start, with two dashes around it.
Returns the words behind it. -/
def takeFacts (s : State) (words : List Word) : State × List Word :=
  let take (f : String) (rest : List Word) : State × List Word :=
    let rest := match rest with
      | .separator :: rest => rest
      | rest => rest
    ({ s with facts := some f }, rest)
  if s.facts.isSome then (s, words)
  else match words with
    | .operand f :: rest => take f rest
    | .separator :: .operand f :: rest => take f rest
    | _ => (s, words)

/-- Follows the words from left to right; every round uses one of them up. -/
def followWords (s : State) : Nat → List Word → Except Stop State
  | 0, _ => .ok s
  | rounds + 1, words =>
    match takeFacts s words with
    | (s, []) => .ok s
    | (s, .operand _ :: rest) | (s, .separator :: rest) | (s, .unknown :: rest) =>
      followWords { s with surplus := true } rounds rest
    | (s, .option spelling flag value :: rest) => do
      let (a, used) ← match value with
        | some v => followJoined s.options spelling flag v.toList rest []
        | none => do
          let values ← valuesFrom flag rest
          pure (← follow s.options flag values, values.length)
      followWords { s with options := a } rounds (rest.drop used)

/-- Reads the arguments of the program. The facts have to be named, and nothing may be left over. -/
def read (args : List String) : Except Stop Arguments := do
  let words ← readWords args
  let s ← followWords ⟨.default, none, false⟩ (words.length + 1) words
  match s.facts, s.surplus with
  | some facts, false => return ⟨s.options, facts⟩
  | _, _ => .error .usage

end Arguments

end BusinessAtlas
