import ContractFuzz.Artifact.Basic
import ContractFuzz.SystemError
import ContractFuzz.Text.Blank
import ContractFuzz.Text.Utf8

namespace ContractFuzz.CommandLine

/-- What loading needs from the machine it runs on. -/
structure Host (m : Type → Type) where
  content : String → m (Except SystemError ByteArray)
  /-- Run a program with arguments: its exit status, its output and its error output. -/
  runProgram : String → List String → m (Except SystemError (Nat × ByteArray × ByteArray))

structure Compiler where
  command : String
  importPaths : List String
  deriving DecidableEq, Repr

/-- The character between import paths, which none of them may contain. -/
def pathSeparator : Char := ':'

inductive LoadError where
  | unreadable (path : String) (cause : SystemError)
  | missingAbi
  | malformed (path : String)
  /-- An import path contains the separator of the list of import paths. -/
  | separatorInPath
  | notStarted (command : String) (cause : SystemError)
  | failed (path : String) (status : Nat) (errors : String)
  deriving DecidableEq, Repr

namespace LoadError

/-- What was being done, or what failed if there is nothing more to say. -/
def summary : LoadError → String
  | .unreadable path _ => s!"read artifact {path}"
  | .missingAbi => "No abi generated."
  | .malformed path => s!"parse artifact {path}"
  | .separatorInPath => "join cairo path entries"
  | .notStarted command _ => s!"run compiler '{command}'"
  | .failed path status errors => s!"compiling {path} failed (exit status: {status}):\n{errors}"

/-- The cause of what the summary names. -/
def cause? : LoadError → Option String
  | .unreadable _ cause => some cause.message
  | .missingAbi => none
  | .malformed _ => some ArtifactError.malformed.message
  | .separatorInPath => some s!"path segment contains separator \u0060{pathSeparator}\u0060"
  | .notStarted _ cause => some cause.message
  | .failed .. => none

def message (e : LoadError) : String :=
  match e.cause? with
  | some cause => s!"{e.summary}: {cause}"
  | none => e.summary

end LoadError

/-- The parts of a path between its slashes, without those that lead nowhere. -/
def pathParts (path : String) : List String :=
  (path.splitOn "/").filter fun part => part != "" && part != "."

/-- What follows the last point of a file name, unless nothing comes before the point. -/
def extension? (name : List Char) : Option (List Char) :=
  match name.reverse.dropWhile (· != '.') with
  | '.' :: _ :: _ => some (name.reverse.takeWhile (· != '.')).reverse
  | _ => none

/-- Whether a path names a compiled contract. -/
def isCompiled (path : String) : Bool :=
  match (pathParts path).getLast? with
  | some ".." => false
  | some name => extension? name.toList == some "json".toList
  | none => false

namespace Compiler

/-- The import paths as one argument. -/
def joinedPaths (compiler : Compiler) : Except LoadError String :=
  if compiler.importPaths.any (·.toList.contains pathSeparator) then .error .separatorInPath
  else .ok ((String.singleton pathSeparator).intercalate compiler.importPaths)

/-- The arguments that compile a source file. -/
def arguments (compiler : Compiler) (path : String) : Except LoadError (List String) :=
  if compiler.importPaths.isEmpty then .ok [path, "--debug_info_with_source"]
  else do
    let paths ← compiler.joinedPaths
    return [path, "--cairo_path", paths, "--debug_info_with_source"]

variable {m : Type → Type} [Monad m]

/-- Whether a text holds a zero character, at which the system would end it. -/
def hasZero (text : String) : Bool := text.toList.contains '\x00'

/-- Run a program with arguments, none of which may hold a zero character. -/
def start (host : Host m) (command : String) (arguments : List String) :
    m (Except SystemError (Nat × ByteArray × ByteArray)) :=
  if (command :: arguments).any hasZero then pure (.error .zeroInArgument)
  else host.runProgram command arguments

/-- Compile a source file: the text of the artifact. -/
def compile (compiler : Compiler) (host : Host m) (path : String) :
    m (Except LoadError ByteArray) := do
  match compiler.arguments path with
  | .error e => return .error e
  | .ok arguments =>
      match ← start host compiler.command arguments with
      | .error cause => return .error (.notStarted compiler.command cause)
      | .ok (status, output, errors) =>
          if status = 0 then return .ok output
          else return .error (.failed path status (Text.trimRight (Text.decodeLossy errors)))

/-- The text of the artifact that a path leads to. -/
def artifactText (compiler : Compiler) (host : Host m) (path : String) :
    m (Except LoadError ByteArray) := do
  if isCompiled path then
    if hasZero path then return .error (.unreadable path .zeroInPath)
    else
      match ← host.content path with
      | .ok octets => return .ok octets
      | .error cause => return .error (.unreadable path cause)
  else compiler.compile host path

/-- The artifact in a text. -/
def readArtifact (path : String) (octets : ByteArray) : Except LoadError Artifact :=
  match Artifact.ofOctets octets with
  | .ok artifact => .ok artifact
  | .error .missingAbi => .error .missingAbi
  | .error .malformed => .error (.malformed path)

def load (compiler : Compiler) (host : Host m) (path : String) :
    m (Except LoadError Artifact) := do
  match ← compiler.artifactText host path with
  | .ok octets => return readArtifact path octets
  | .error e => return .error e

/-- Load contracts one after another, up to the first that fails. -/
def loadAll (compiler : Compiler) (host : Host m) :
    List String → m (Except LoadError (List Artifact))
  | [] => return .ok []
  | path :: rest => do
      match ← compiler.load host path with
      | .error e => return .error e
      | .ok artifact =>
          match ← loadAll compiler host rest with
          | .ok others => return .ok (artifact :: others)
          | .error e => return .error e

end Compiler

end ContractFuzz.CommandLine
