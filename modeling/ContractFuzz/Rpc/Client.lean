import ContractFuzz.Rpc.Message

namespace ContractFuzz.Rpc

/-- A way to send a message to a service and to receive the answer, or the reason why there is
none. -/
structure Transport (m : Type → Type) where
  endpoint : String
  post : Json → m (Except String ByteArray)

/-- Requests that are numbered, with the number of the next one. -/
abbrev Numbered (m : Type → Type) := StateT Nat m

/-- The number of the first request. -/
def firstRequest : Nat := 1

variable {m : Type → Type} [Monad m]

/-- The number of a new request. -/
def nextRequest : Numbered m Nat := modifyGet fun id => (id, id + 1)

/-- Make a request, and return the result in the response. -/
def request (transport : Transport m) (method : Method) (parameters : Json) :
    Numbered m (Except ExecutionError Json) := do
  let id ← nextRequest
  match ← transport.post (Request.body id method parameters) with
  | .error reason =>
      return .error (.client (.unreachable method.name transport.endpoint reason))
  | .ok octets =>
      match Response.ofOctets? octets with
      | none => return .error (.client (.unparsable method.name))
      | some response => return response.decode method

/-- Make a request, and read the result. -/
def requestAs {α : Type} (transport : Transport m) (method : Method) (parameters : Json)
    (read : Json → Option α) : Numbered m (Except ExecutionError α) := do
  match ← request transport method parameters with
  | .ok result => return readResult method read result
  | .error e => return .error e

def client (transport : Transport m) : Client (Numbered m) where
  deploy artifact arguments :=
    requestAs transport .deploy (Request.deployment artifact arguments) Frame.ofJson?
  declare artifact := requestAs transport .declare (Request.artifact artifact) classHash?
  invoke invocation :=
    requestAs transport .invoke (Request.invocation invocation) Frame.ofJson?
  query invocation := requestAs transport .call (Request.invocation invocation) Frame.ofJson?
  snapshot := requestAs transport .snapshot (.object []) handle?
  restore handle := do
    match ← request transport .restore (Request.handle handle) with
    | .ok _ => return .ok ()
    | .error e => return .error e

/-- Why there is no class hash of a contract. -/
inductive ClassHashError where
  | request (e : ExecutionError)
  | malformed
  deriving DecidableEq, Repr

def ClassHashError.message : ClassHashError → String
  | .request e => e.message
  | .malformed => (ClientFault.malformed Method.classHash.name).message

/-- The class hash that a service computes for a contract. -/
def classHash (transport : Transport m) (artifact : Artifact) :
    Numbered m (Except ClassHashError ClassHash) := do
  match ← request transport .classHash (Request.artifact artifact) with
  | .error e => return .error (.request e)
  | .ok result =>
      match classHash? result with
      | some classHash => return .ok classHash
      | none => return .error .malformed

end ContractFuzz.Rpc
