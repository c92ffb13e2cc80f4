import ContractFuzz.Campaign.Run
import ContractFuzz.CommandLine.Loader
import ContractFuzz.CommandLine.Parser
import ContractFuzz.Json.Writer
import ContractFuzz.LineCoverage
import ContractFuzz.Rpc.Client

namespace ContractFuzz.CommandLine

/-- What a run needs from the machine it runs on. -/
structure Machine (m : Type → Type) where
  host : Host m
  /-- Post a message to an endpoint. -/
  post : String → Json → m (Except String ByteArray)
  /-- Write a file, or say why not. -/
  save : String → String → m (Except SystemError Unit)
  print : String → m Unit
  /-- Print on the error output. -/
  complain : String → m Unit
  record : LogRecord → m Unit
  /-- The time since the epoch. -/
  milliseconds : m Nat

/-- What ends a run early. -/
inductive RunError where
  | load (e : LoadError)
  | classHash (endpoint : String) (e : Rpc.ClassHashError)
  | setup (e : SetupError)
  | campaign (e : CampaignError)
  deriving DecidableEq, Repr

/-- The error of a setup with its cause, where it has one. -/
def setupMessage (e : SetupError) : String :=
  match e with
  | .malformedType { item := _, cause } => s!"{e.message}: {cause.message}"
  | _ => e.message

def RunError.message : RunError → String
  | .load e => e.message
  | .classHash endpoint e => s!"compute class hash via {endpoint}: {e.message}"
  | .setup e => setupMessage e
  | .campaign e => e.message

inductive ExitStatus where
  | success
  | failure
  | misuse
  deriving DecidableEq, Repr

def ExitStatus.code : ExitStatus → Nat
  | .success => 0
  | .failure => 1
  | .misuse => 2

/-- What a campaign leaves behind. -/
structure Results where
  report : Report
  coverage : Coverage
  classes : ClassTable

namespace Machine

variable {m : Type → Type} [Monad m]

def recordAll (machine : Machine m) (log : Log) : m Unit := log.forM machine.record

def transport (machine : Machine m) (endpoint : String) : Rpc.Transport m :=
  ⟨endpoint, machine.post endpoint⟩

/-- Print the class hash that the service computes for a contract. -/
def printClassHash (machine : Machine m) (endpoint : String) (target : Artifact) :
    m (Except RunError ExitStatus) := do
  let (result, _) ← (Rpc.classHash (machine.transport endpoint) target).run Rpc.firstRequest
  match result with
  | .ok classHash =>
      machine.print (classHash.toHex ++ "\n")
      return .ok .failure
  | .error e => return .error (.classHash endpoint e)

/-- Deploy the target and fuzz it. -/
def fuzz (machine : Machine m) (arguments : Arguments) (target : Artifact)
    (declared : List Artifact) : Rpc.Numbered m (Except RunError Results) := do
  let client := Rpc.client (machine.transport arguments.endpoint)
  let config := arguments.config
  let (setup, coverage, log) ←
    Deployment.deploy client target declared config.schemaOptions .empty
  machine.recordAll log
  match setup with
  | .error e => return .error (.setup e)
  | .ok deployment =>
      let observe (log : Log) : Rpc.Numbered m Unit := machine.recordAll log
      let outcome ← Campaign.runObserved client observe config deployment arguments.target coverage
      match outcome.result with
      | .error e => return .error (.campaign e)
      | .ok report => return .ok ⟨report, outcome.coverage, deployment.classes⟩

/-- The place of a source file, seen from the working directory. -/
def sourcePath (name : String) : String := if Text.startsWith name "/" then name else "./" ++ name

/-- Read the source files that can be read. -/
def readSources (machine : Machine m) : List String → m (SortedMap String String)
  | [] => return .empty
  | name :: rest => do
      let content ← machine.host.content (sourcePath name)
      let others ← readSources machine rest
      match content.toOption.bind String.fromUTF8? with
      | some text => return others.insert name text
      | none => return others

/-- Write the line coverage report into the working directory. -/
def writeCoverage (machine : Machine m) (results : Results) : m Unit := do
  let sources ← machine.readSources (LineCoverage.fileNames results.coverage results.classes)
  let (report, log) := LineCoverage.build sources.get? results.coverage results.classes
  machine.recordAll log
  let path := "./" ++ LineCoverage.fileName ((← machine.milliseconds) / 1000)
  match ← machine.save path report.render with
  | .ok () => machine.record (Log.info s!"Coverage in {path}")
  | .error cause => machine.record ⟨.error, s!"write coverage report {path}: {cause.message}"⟩

/-- Fuzz a target and write what was asked for. -/
def fuzzLoaded (machine : Machine m) (arguments : Arguments) (target : Artifact)
    (declared : List Artifact) : m (Except RunError ExitStatus) := do
  machine.record (Log.info "starting fuzzer")
  let begun ← machine.milliseconds
  let (result, _) ← (machine.fuzz arguments target declared).run Rpc.firstRequest
  match result with
  | .error e => return .error e
  | .ok results =>
      let ended ← machine.milliseconds
      if arguments.coverage then machine.writeCoverage results
      machine.record (Log.info "fuzzing finished")
      if arguments.json then
        let report := { results.report with elapsedMs := ended - begun }
        machine.print (report.toJson.render .page ++ "\n")
      return .ok .success

/-- Do what the arguments ask for. -/
def runArguments (machine : Machine m) (arguments : Arguments) :
    m (Except RunError ExitStatus) := do
  let compiler : Compiler := ⟨arguments.compiler, arguments.importPaths⟩
  match ← compiler.load machine.host arguments.target with
  | .error e => return .error (.load e)
  | .ok target =>
      if arguments.classHash then machine.printClassHash arguments.endpoint target
      else
        match ← compiler.loadAll machine.host arguments.declared with
        | .error e => return .error (.load e)
        | .ok declared => machine.fuzzLoaded arguments target declared

def versionText : String := "tayt 0.2.0\n"

def helpText : String :=
  "Usage: tayt [OPTIONS] <TARGET>\n\nOptions:\n" ++
    String.join (longOptions.map fun option => "  --" ++ option.1 ++ "\n")

/-- A run with the words of a command line, of which the environment may give the endpoint. -/
def run (machine : Machine m) (endpoint : Option String) (words : List String) :
    m ExitStatus := do
  match parse endpoint words with
  | .error .help =>
      machine.print helpText
      return .success
  | .error .version =>
      machine.print versionText
      return .success
  | .error (.misuse e) =>
      machine.complain (e.message ++ "\n")
      return .misuse
  | .ok arguments =>
      match ← machine.runArguments arguments with
      | .ok status => return status
      | .error e =>
          machine.record ⟨.error, e.message⟩
          return .failure

end Machine

end ContractFuzz.CommandLine
