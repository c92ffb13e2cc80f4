import ContractFuzz.Campaign.Config

namespace ContractFuzz.CommandLine

/-- The settings of a run. -/
structure Arguments where
  /-- A compiled artifact, or a source file to compile. -/
  target : String
  sequenceLength : Nat := 10
  blacklistedFunctions : List String := []
  propertySender : Felt := 1
  /-- Senders of calls. None at all means the default senders. -/
  senders : List Felt := []
  /-- Directories in which the compiler looks for imports. -/
  importPaths : List String := []
  /-- Write a line coverage report at the end. -/
  coverage : Bool := false
  noShrink : Bool := false
  exceptionMode : Bool := false
  /-- Contracts to declare before the target is deployed. -/
  declared : List String := []
  /-- Only print the class hash of the target. -/
  classHash : Bool := false
  seed : Nat := 0
  maxIterations : Option Nat := none
  propertyPrefix : String := "tayt_"
  endpoint : String := "http://127.0.0.1:5050/rpc"
  compiler : String := "starknet-compile"
  /-- Print the report in JSON. -/
  json : Bool := false
  verbose : Bool := false
  deriving DecidableEq, Repr, Inhabited

/-- Options that are only there or not. -/
inductive Flag where
  | coverage
  | noShrink
  | exceptionMode
  | classHash
  | json
  | verbose
  deriving DecidableEq, Repr

/-- Options with one value, which may be given once. -/
inductive SingleOption where
  | sequenceLength
  | propertySender
  | seed
  | maxIterations
  | propertyPrefix
  | endpoint
  | compiler
  deriving DecidableEq, Repr

/-- Options with at least one value, which may be given again to add more. -/
inductive ListOption where
  | blacklistFunction
  | sender
  | importPath
  | declare
  deriving DecidableEq, Repr

inductive OptionKind where
  | help
  | version
  | flag (flag : Flag)
  | single (option : SingleOption)
  | list (option : ListOption)
  deriving DecidableEq, Repr

/-- The options by their long names. -/
def longOptions : List (String × OptionKind) :=
  [("seq-len", .single .sequenceLength), ("blacklist-function", .list .blacklistFunction),
    ("psender", .single .propertySender), ("sender", .list .sender),
    ("cairo-path", .list .importPath), ("coverage", .flag .coverage),
    ("no-shrink", .flag .noShrink), ("exception-mode", .flag .exceptionMode),
    ("declare", .list .declare), ("get-class-hash", .flag .classHash),
    ("seed", .single .seed), ("max-iterations", .single .maxIterations),
    ("property-prefix", .single .propertyPrefix), ("rpc-url", .single .endpoint),
    ("compiler", .single .compiler), ("json", .flag .json), ("verbose", .flag .verbose),
    ("help", .help), ("version", .version)]

/-- The options that have a short name. None of them takes a value. -/
def shortOptions : List (Char × OptionKind) :=
  [('v', .flag .verbose), ('h', .help), ('V', .version)]

/-- The environment variable that stands in for the endpoint. -/
def endpointVariable : String := "TAYT_RPC_URL"

/-- What is wrong with a command line. -/
inductive UsageError where
  | missingTarget
  | unknownWord (word : String)
  /-- An option without a value, or an empty path. -/
  | missingValue
  | malformedValue (value : String)
  /-- Something was given again that may be given once. -/
  | repeated
  /-- A value was given to an option that takes none. -/
  | unexpectedValue (value : String)
  deriving DecidableEq, Repr

def UsageError.message : UsageError → String
  | .missingTarget => "error: the target to fuzz is not given"
  | .unknownWord word => s!"error: unexpected argument '{word}'"
  | .missingValue => "error: a value is required but none was given"
  | .malformedValue value => s!"error: invalid value '{value}'"
  | .repeated => "error: an option was given more than once"
  | .unexpectedValue value => s!"error: unexpected value '{value}'"

/-- A path cannot be empty. -/
def path (word : String) : Except UsageError String :=
  if word.isEmpty then .error .missingValue else .ok word

def felt (word : String) : Except UsageError Felt :=
  match Felt.parse word with
  | .ok x => .ok x
  | .error _ => .error (.malformedValue word)

/-- A number that fits a machine word, and is not less than `least`. -/
def number (least : Nat) (word : String) : Except UsageError Nat :=
  match Text.word? word.toList with
  | some n => if least ≤ n then .ok n else .error (.malformedValue word)
  | none => .error (.malformedValue word)

namespace Arguments

def raise (arguments : Arguments) : Flag → Arguments
  | .coverage => { arguments with coverage := true }
  | .noShrink => { arguments with noShrink := true }
  | .exceptionMode => { arguments with exceptionMode := true }
  | .classHash => { arguments with classHash := true }
  | .json => { arguments with json := true }
  | .verbose => { arguments with verbose := true }

/-- Set the value of an option. -/
def set (arguments : Arguments) (word : String) : SingleOption → Except UsageError Arguments
  | .sequenceLength => do return { arguments with sequenceLength := ← number 1 word }
  | .propertySender => do return { arguments with propertySender := ← felt word }
  | .seed => do return { arguments with seed := ← number 0 word }
  | .maxIterations => do return { arguments with maxIterations := some (← number 0 word) }
  | .propertyPrefix => .ok { arguments with propertyPrefix := word }
  | .endpoint => .ok { arguments with endpoint := word }
  | .compiler => .ok { arguments with compiler := word }

/-- Add values to those of an option. -/
def append (arguments : Arguments) (words : List String) :
    ListOption → Except UsageError Arguments
  | .blacklistFunction =>
      .ok { arguments with blacklistedFunctions := arguments.blacklistedFunctions ++ words }
  | .sender => do return { arguments with senders := arguments.senders ++ (← words.mapM felt) }
  | .importPath => do
      return { arguments with importPaths := arguments.importPaths ++ (← words.mapM path) }
  | .declare => do
      return { arguments with declared := arguments.declared ++ (← words.mapM path) }

/-- The settings of the campaign. -/
def config (arguments : Arguments) : Config :=
  let base : Config := {}
  { base with
    sequenceLength := arguments.sequenceLength
    senders := if arguments.senders.isEmpty then base.senders else arguments.senders
    propertySender := arguments.propertySender
    blacklist := SortedSet.ofList arguments.blacklistedFunctions
    shrink := !arguments.noShrink
    mode := if arguments.exceptionMode then .exception else .property
    seed := arguments.seed
    maxIterations := arguments.maxIterations
    propertyPrefix := arguments.propertyPrefix }

end Arguments

end ContractFuzz.CommandLine
