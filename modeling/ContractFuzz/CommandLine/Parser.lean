import ContractFuzz.CommandLine.Arguments

/-!
Reading a command line. Options and the target come in any order. An option keeps collecting its
values until something else comes, and only then are they looked at; so of two mistakes the one in
the option that ends first is reported.
-/

namespace ContractFuzz.CommandLine

/-- Why a command line yields no arguments. -/
inductive Refusal where
  | help
  | version
  | misuse (e : UsageError)
  deriving DecidableEq, Repr

/-- What a word looks like. -/
inductive Word where
  /-- Two hyphens alone, after which no word is an option. -/
  | separator
  /-- A long option, perhaps with a value after an equals sign. -/
  | long (name : String) (value : Option String)
  /-- One hyphen and the names of short options. -/
  | short (names : List Char)
  | plain
  deriving DecidableEq, Repr

/-- A single hyphen is a word like any other. -/
def Word.classify (word : String) : Word :=
  match word.toList with
  | ['-', '-'] => .separator
  | '-' :: '-' :: rest =>
      match rest.dropWhile (· != '=') with
      | [] => .long (String.ofList rest) none
      | _ :: value =>
          .long (String.ofList (rest.takeWhile (· != '='))) (some (String.ofList value))
  | '-' :: c :: rest => .short (c :: rest)
  | _ => .plain

/-- Words that have been collected but not been looked at. -/
inductive Pending where
  | target (word : String)
  | single (option : SingleOption) (value : Option String)
  | list (option : ListOption) (values : List String)
  deriving DecidableEq, Repr

/-- A command line read in part. -/
structure Reading where
  arguments : Arguments
  /-- The target has come. -/
  hasTarget : Bool
  flags : List Flag
  singles : List SingleOption
  pending : Option Pending
  /-- The next word is a value of the pending option. -/
  collecting : Bool
  /-- A separator has come. -/
  separated : Bool

namespace Reading

/-- Nothing has been read. The environment may name an endpoint. -/
def start (endpoint : Option String) : Reading :=
  let plain : Arguments := { target := "" }
  ⟨{ plain with endpoint := endpoint.getD plain.endpoint }, false, [], [], none, false, false⟩

def setSingle (reading : Reading) (option : SingleOption) (value : String) :
    Except UsageError Reading :=
  if reading.singles.contains option then .error .repeated
  else do
    let arguments ← reading.arguments.set value option
    return { reading with arguments, singles := option :: reading.singles }

/-- Look at what has been collected. -/
def resolve (reading : Reading) : Except UsageError Reading :=
  let settled := { reading with pending := none }
  match reading.pending with
  | none => .ok settled
  | some (.target word) => do
      let target ← path word
      return { settled with arguments := { settled.arguments with target } }
  | some (.single _ none) => .error .missingValue
  | some (.single option (some value)) => settled.setSingle option value
  | some (.list _ []) => .error .missingValue
  | some (.list option values) => do
      let arguments ← settled.arguments.append values option
      return { settled with arguments }

def raise (reading : Reading) (flag : Flag) : Except UsageError Reading :=
  if reading.flags.contains flag then .error .repeated
  else
    .ok { reading with
      arguments := reading.arguments.raise flag
      flags := flag :: reading.flags }

/-- An error, as the reason to refuse a command line. -/
def orMisuse {α : Type} : Except UsageError α → Except Refusal α
  | .ok x => .ok x
  | .error e => .error (.misuse e)

/-- Take in an option that is given no value here. -/
def take (reading : Reading) (kind : OptionKind) : Except Refusal Reading := do
  let reading ← orMisuse reading.resolve
  match kind with
  | .help => .error .help
  | .version => .error .version
  | .flag flag => do
      let reading ← orMisuse (reading.raise flag)
      return { reading with collecting := false }
  | .single option =>
      return { reading with pending := some (.single option none), collecting := true }
  | .list option =>
      return { reading with pending := some (.list option []), collecting := true }

/-- Take in an option with a value after an equals sign, which is its only value. -/
def takeAttached (reading : Reading) (kind : OptionKind) (value : String) :
    Except Refusal Reading :=
  match kind with
  | .single option => do
      let reading ← orMisuse reading.resolve
      let reading ← orMisuse (reading.setSingle option value)
      return { reading with collecting := false }
  | .list option => do
      let reading ← orMisuse reading.resolve
      let arguments ← orMisuse (reading.arguments.append [value] option)
      return { reading with arguments, collecting := false }
  | _ => .error (.misuse (.unexpectedValue value))

/-- Take in short options one after another. -/
def takeShort (reading : Reading) : List Char → Except Refusal Reading
  | [] => .ok reading
  | c :: rest =>
      match shortOptions.lookup c with
      | some kind => do
          let reading ← reading.take kind
          takeShort reading rest
      | none => .error (.misuse (.unknownWord (String.ofList ['-', c])))

/-- Add a value to the pending option. An option with one value is content with it. -/
def collect (reading : Reading) (word : String) : Reading :=
  match reading.pending with
  | some (.single option _) =>
      { reading with pending := some (.single option (some word)), collecting := false }
  | some (.list option values) =>
      { reading with pending := some (.list option (values ++ [word])) }
  | _ => { reading with collecting := false }

/-- Take in a word that stands for itself: the target, which can come once. -/
def takePositional (reading : Reading) (word : String) : Except Refusal Reading :=
  if reading.hasTarget then .error (.misuse (.unknownWord word))
  else do
    let reading ← orMisuse reading.resolve
    return { reading with
      pending := some (.target word)
      hasTarget := true
      collecting := false }

/-- Take in a word that is no option. -/
def takePlain (reading : Reading) (word : String) : Except Refusal Reading :=
  if reading.collecting && !reading.separated then .ok (reading.collect word)
  else reading.takePositional word

/-- Take in the next word. -/
def next (reading : Reading) (word : String) : Except Refusal Reading :=
  if reading.separated then reading.takePlain word
  else
    match Word.classify word with
    | .separator => .ok { reading with separated := true }
    | .long name value =>
        match longOptions.lookup name, value with
        | none, _ => .error (.misuse (.unknownWord word))
        | some kind, none => reading.take kind
        | some kind, some value => reading.takeAttached kind value
    | .short names => reading.takeShort names
    | .plain => reading.takePlain word

/-- Look at what is still pending at the end. -/
def finish (reading : Reading) : Except Refusal Arguments := do
  let reading ← orMisuse reading.resolve
  if reading.hasTarget then return reading.arguments else .error (.misuse .missingTarget)

end Reading

/-- Read the words of a command line, without the name of the program. -/
def parse (endpoint : Option String) (words : List String) : Except Refusal Arguments := do
  let reading ← words.foldlM Reading.next (Reading.start endpoint)
  reading.finish

end ContractFuzz.CommandLine
