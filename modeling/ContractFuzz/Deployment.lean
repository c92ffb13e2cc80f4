import ContractFuzz.Artifact.ClassTable
import ContractFuzz.Campaign.Replay
import ContractFuzz.Coverage
import ContractFuzz.Execution.Client
import ContractFuzz.Schema

namespace ContractFuzz

/-- What keeps a campaign from starting. -/
inductive SetupError where
  | missingAbi
  | invalidArtifact (e : ArtifactError)
  /-- Only constructors without arguments can be deployed. -/
  | constructorWithArguments (inputs : Nat)
  | constructorReverted (r : Revert)
  | declarationReverted (r : Revert)
  | noMutatingFunctions
  | malformedType (e : MalformedType)
  | client (fault : ClientFault)
  /-- A request failed that is not expected to, not even by a revert. -/
  | unexpected (e : ExecutionError)
  deriving DecidableEq, Repr

def SetupError.message : SetupError → String
  | .missingAbi => "No abi generated."
  | .invalidArtifact e => s!"invalid artifact: {e.message}"
  | .constructorWithArguments inputs =>
      s!"Constructor with arguments not supported ({inputs} inputs)."
  | .constructorReverted r => s!"Constructor raised an exception.\nMessage: {r.message}"
  | .declarationReverted r => s!"Declaring a contract failed: {r.message}"
  | .noMutatingFunctions => "No state-mutating function left to fuzz."
  | .malformedType e => s!"unsupported type in '{e.item}': {e.cause.message}"
  | .client fault => s!"execution client error: {fault.message}"
  | .unexpected e => s!"execution client error: {e.message}"

def SetupError.ofArtifact : ArtifactError → SetupError
  | .missingAbi => .missingAbi
  | .malformed => .invalidArtifact .malformed

/-- A deployed program, ready to be called. -/
structure Deployment where
  target : InstanceId
  classHash : ClassHash
  schema : Schema
  /-- The state right after deployment, from which every iteration starts. -/
  baseline : StateHandle
  classes : ClassTable
  /-- The assertions of all contracts, one for each template. -/
  diagnostics : List Diagnostic
  deriving Inhabited

namespace Deployment

def site (deployment : Deployment) : Site := ⟨deployment.target, deployment.baseline⟩

variable {m : Type → Type} [Monad m]

/-- Declare contracts one after another, and enter them into a class table. -/
def declareAll (client : Client m) : List Artifact → ClassTable →
    m (Except SetupError ClassTable)
  | [], classes => pure (.ok classes)
  | artifact :: rest, classes => do
      match ← client.declare artifact with
      | .ok classHash => declareAll client rest (classes.insert classHash artifact)
      | .error (.revert r) => return .error (.declarationReverted r)
      | .error (.client fault) => return .error (.client fault)

/-- The class of the deployed contract. A client that does not tell it is asked to declare the
contract. -/
def classOf (client : Client m) (target : Artifact) (frame : Frame) :
    m (Except SetupError ClassHash) := do
  match frame.classHash with
  | some classHash => return .ok classHash
  | none =>
      match ← client.declare target with
      | .ok classHash => return .ok classHash
      | .error e => return .error (.unexpected e)

/-- Add a diagnostic, unless its template is known. -/
def addDiagnostic (known : List Diagnostic) (d : Diagnostic) : List Diagnostic :=
  if known.any fun other => other.messageTemplate == d.messageTemplate then known
  else known ++ [d]

/-- The diagnostics of several contracts, one for each template. -/
def diagnosticsOf (artifacts : List Artifact) : List Diagnostic :=
  (artifacts.flatMap Artifact.messageTemplates).foldl addDiagnostic []

/-- What a campaign is about to work on. -/
def announce (schema : Schema) : Log :=
  [Log.info "Fuzzing the following properties:"] ++
    schema.properties.map (fun p => Log.info ("\t" ++ p.name)) ++
    [Log.info "External functions:"] ++
    schema.functions.map fun f => Log.info ("\t" ++ f.name)

/-- The last steps of a deployment, once the contract is there: find its surface and save the
baseline. -/
def survey (client : Client m) (target : Artifact) (declared : List Artifact)
    (options : SchemaOptions) (instanceId : InstanceId) (classHash : ClassHash)
    (classes : ClassTable) : m (Except SetupError Deployment × Log) := do
  match Schema.discover target.abi (declared.map Artifact.abi) options with
  | (.error e, log) => return (.error (.malformedType e), log)
  | (.ok schema, log) =>
      if schema.functions.isEmpty then
        return (.error .noMutatingFunctions, log)
      else
        let log := log ++ announce schema
        match ← client.snapshot with
        | .error e => return (.error (.unexpected e), log)
        | .ok baseline =>
            let diagnostics := diagnosticsOf (target :: declared)
            return (.ok ⟨instanceId, classHash, schema, baseline, classes, diagnostics⟩, log)

/-- Whether a contract can be deployed without constructor arguments. -/
def checkConstructor (target : Artifact) : Except SetupError Unit :=
  match target.constructor? with
  | some constructor =>
      if constructor.inputs.isEmpty then .ok ()
      else .error (.constructorWithArguments constructor.inputs.length)
  | none => .ok ()

/-- Deploy a contract whose companions have been declared: note its class and what its
constructor executed, and survey it. -/
def deployDeclared (client : Client m) (target : Artifact) (declared : List Artifact)
    (options : SchemaOptions) (coverage : Coverage) (classes : ClassTable) :
    m (Except SetupError Deployment × Coverage × Log) := do
  match ← client.deploy target [] with
  | .error (.revert r) => return (.error (.constructorReverted r), coverage, [])
  | .error (.client fault) => return (.error (.client fault), coverage, [])
  | .ok frame =>
      match ← classOf client target frame with
      | .error e => return (.error e, coverage, [])
      | .ok classHash =>
          let coverage := (coverage.link frame.contractAddress classHash).after frame
          let (result, log) ← survey client target declared options frame.contractAddress
            classHash (classes.insert classHash target)
          return (result, coverage, log)

/-- Declare contracts, deploy the target and survey it. -/
def deploy (client : Client m) (target : Artifact) (declared : List Artifact)
    (options : SchemaOptions) (coverage : Coverage) :
    m (Except SetupError Deployment × Coverage × Log) := do
  match checkConstructor target with
  | .error e => return (.error e, coverage, [])
  | .ok () =>
      match ← declareAll client declared .empty with
      | .error e => return (.error e, coverage, [])
      | .ok classes => deployDeclared client target declared options coverage classes

end Deployment

end ContractFuzz
