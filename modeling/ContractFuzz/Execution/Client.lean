import ContractFuzz.Artifact.Basic
import ContractFuzz.Execution.Frame

/-!
The contract with whatever executes the program under test. A campaign never runs program code
itself; it deploys, calls, saves and restores through a client.
-/

namespace ContractFuzz

/-- A call that failed; its changes were not applied. -/
structure Revert where
  message : String
  deriving DecidableEq, Repr, Inhabited

/-- The text after the last line break, which names the assertion that failed. -/
def Revert.lastLine (r : Revert) : String :=
  String.ofList (r.message.toList.reverse.takeWhile (· != '\n')).reverse

/-- Why the executing side could not be reached, or what is wrong with its answer. -/
inductive ClientFault where
  /-- A failure in its own words. -/
  | reported (message : String)
  | unknownHandle (id : Nat)
  | unreachable (method endpoint reason : String)
  | unparsable (method : String)
  | malformed (method : String)
  | refused (method : String) (code : Int) (message : String)
  | empty (method : String)
  deriving DecidableEq, Repr

def ClientFault.message : ClientFault → String
  | .reported message => message
  | .unknownHandle id => s!"unknown state handle {id}"
  | .unreachable method endpoint reason => s!"{method} request to {endpoint} failed: {reason}"
  | .unparsable method => s!"failed to parse {method} response: not a response object"
  | .malformed method => s!"malformed {method} result: not the form of the result"
  | .refused method code message => s!"{method} failed with code {code}: {message}"
  | .empty method => s!"{method} response has neither result nor error"

inductive ExecutionError where
  /-- The program reverted, as is to be expected of random calls. -/
  | revert (r : Revert)
  /-- The executing side failed, which ends a campaign. -/
  | client (fault : ClientFault)
  deriving DecidableEq, Repr

def ExecutionError.message : ExecutionError → String
  | .revert r => s!"call reverted: {r.message}"
  | .client fault => s!"execution client error: {fault.message}"

/-- The name of a saved state. -/
structure StateHandle where
  id : Nat
  deriving DecidableEq, Repr, Inhabited

/-- A request to run an entry point. -/
structure Invocation where
  target : InstanceId
  function : String
  arguments : List Felt
  sender : Felt
  value : Nat
  entryPoint : EntryPoint
  /-- Only message handlers are called with one. -/
  nonce : Option Felt
  deriving DecidableEq, Repr, Inhabited

/-- The requests that an execution answers, with the effects of `m`. -/
structure Client (m : Type → Type) where
  /-- Deploy a contract; the frame is that of its constructor. -/
  deploy : Artifact → List Felt → m (Except ExecutionError Frame)
  /-- Make a contract known by its class hash. -/
  declare : Artifact → m (Except ExecutionError ClassHash)
  /-- A call that may change the state. -/
  invoke : Invocation → m (Except ExecutionError Frame)
  /-- A call that leaves the state as it is. -/
  query : Invocation → m (Except ExecutionError Frame)
  /-- Save the current state. -/
  snapshot : m (Except ExecutionError StateHandle)
  /-- Go back to a saved state. -/
  restore : StateHandle → m (Except ExecutionError Unit)

end ContractFuzz
