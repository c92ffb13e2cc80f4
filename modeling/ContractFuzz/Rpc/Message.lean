import ContractFuzz.Execution.Client
import ContractFuzz.Execution.Wire

namespace ContractFuzz.Rpc

/-- What the service can be asked to do. -/
inductive Method where
  | deploy
  | declare
  /-- The hash of a class, without declaring it. -/
  | classHash
  | invoke
  | call
  | snapshot
  | restore
  deriving DecidableEq, Repr

def Method.name : Method → String
  | .deploy => "tayt_deploy"
  | .declare => "tayt_declare"
  | .classHash => "tayt_classHash"
  | .invoke => "tayt_invoke"
  | .call => "tayt_call"
  | .snapshot => "tayt_snapshot"
  | .restore => "tayt_restore"

/-- The code of an error that is a revert of the called program. -/
def revertCode : Int := 40

namespace Request

def body (id : Nat) (method : Method) (parameters : Json) : Json :=
  .object [("jsonrpc", .string "2.0"), ("id", Json.ofNat id), ("method", .string method.name),
    ("params", parameters)]

def artifact (artifact : Artifact) : Json := .object [("artifact", artifact.raw)]

def deployment (artifact : Artifact) (arguments : List Felt) : Json :=
  .object [("artifact", artifact.raw),
    ("constructor_calldata", Json.ofList Felt.toJson arguments)]

def invocation (i : Invocation) : Json :=
  .object [("contract_address", i.target.toJson), ("function", .string i.function),
    ("calldata", Json.ofList Felt.toJson i.arguments), ("caller_address", i.sender.toJson),
    ("value", Json.ofNat i.value), ("entry_point_type", i.entryPoint.toJson),
    ("nonce", Json.ofOption Felt.toJson i.nonce)]

def handle (handle : StateHandle) : Json := .object [("id", Json.ofNat handle.id)]

end Request

structure ErrorObject where
  code : Int
  message : String
  deriving DecidableEq, Repr

/-- A response has a result or an error. If it has both, the error counts. -/
structure Response where
  result : Option Json
  error : Option ErrorObject

namespace ErrorObject

/-- A code, which fits 64 bits with a sign. -/
def code? : Json → Option Int
  | .int (.ofNat n) => if n < 1 <<< 63 then some n else none
  | .int n => some n
  | _ => none

def ofJson? (json : Json) : Option ErrorObject :=
  match json.recordFields? ["code", "message"] with
  | some [code, message] => do
      let code ← Json.required code? code
      let message ← Json.required Json.string? message
      return ⟨code, message⟩
  | _ => none

def executionError (method : Method) (e : ErrorObject) : ExecutionError :=
  if e.code = revertCode then .revert ⟨e.message⟩
  else .client (.refused method.name e.code e.message)

end ErrorObject

namespace Response

/-- A result may be anything that can be read. -/
def result? (json : Json) : Option Json := if json.isReadable then some json.distinct else none

def ofJson? (json : Json) : Option Response :=
  match json.recordFields? ["result", "error"] with
  | some [result, error] => do
      let result ← Json.optional result? result
      let error ← Json.optional ErrorObject.ofJson? error
      return ⟨result, error⟩
  | _ => none

/-- Read a response from the octets of a message. -/
def ofOctets? (octets : ByteArray) : Option Response := do
  let text ← String.fromUTF8? octets
  let json ← Json.parseLoosely text
  ofJson? json

/-- What the response to a method means. -/
def decode (method : Method) (response : Response) : Except ExecutionError Json :=
  match response.error, response.result with
  | some e, _ => .error (e.executionError method)
  | none, some result => .ok result
  | none, none => .error (.client (.empty method.name))

end Response

/-- Read the result of a method. -/
def readResult {α : Type} (method : Method) (read : Json → Option α) (result : Json) :
    Except ExecutionError α :=
  match read result with
  | some x => .ok x
  | none => .error (.client (.malformed method.name))

/-- Read the only field of a result. -/
def onlyField? {α : Type} (name : String) (read : Json → Option α) (json : Json) : Option α :=
  match json.recordFields? [name] with
  | some [field] => Json.required read field
  | _ => none

def classHash? : Json → Option ClassHash := onlyField? "class_hash" Felt.ofJson?

def handle? (json : Json) : Option StateHandle :=
  (onlyField? "id" Json.nat? json).map StateHandle.mk

end ContractFuzz.Rpc
