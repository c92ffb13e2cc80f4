import ContractFuzz.Abi.Wire
import ContractFuzz.Artifact.DebugInfo
import ContractFuzz.Json.Reader

namespace ContractFuzz

/-- A catalogued assertion: the name that precedes its message in the last line of a revert, and
what the message starts with. -/
structure Diagnostic where
  signature : String
  messageTemplate : String
  deriving DecidableEq, Repr, Inhabited

/-- A compiled contract, with the value it was read from, which is what a service is sent. -/
structure Artifact where
  abi : List Abi.Entry
  debugInfo : Option DebugInfo
  diagnostics : List Diagnostic
  raw : Json
  deriving Inhabited

inductive ArtifactError where
  | missingAbi
  /-- The text is no JSON, or a part of it does not have the form it should. -/
  | malformed
  deriving DecidableEq, Repr

def ArtifactError.message : ArtifactError → String
  | .missingAbi => "no abi generated"
  | .malformed => "malformed artifact: not the form of a compiled contract"

namespace Diagnostic

def toJson (d : Diagnostic) : Json :=
  .object [("signature", .string d.signature), ("message_template", .string d.messageTemplate)]

def ofJson? (json : Json) : Option Diagnostic :=
  match json.recordFields? ["signature", "message_template"] with
  | some [signature, messageTemplate] => do
      let signature ← Json.required Json.string? signature
      let messageTemplate ← Json.required Json.string? messageTemplate
      return ⟨signature, messageTemplate⟩
  | _ => none

/-- The diagnostics whose template is neither in `seen` nor that of an earlier one. -/
def distinctFrom (seen : List String) : List Diagnostic → List Diagnostic
  | [] => []
  | d :: rest =>
      if seen.contains d.messageTemplate then distinctFrom seen rest
      else d :: distinctFrom (d.messageTemplate :: seen) rest

end Diagnostic

namespace Artifact

/-- A part that may be missing or null. -/
def part {α : Type} (default : α) (read : Json → Option α) : Option Json → Except ArtifactError α
  | none => .ok default
  | some json =>
      match read json with
      | some value => .ok value
      | none => .error .malformed

def ofJson (raw : Json) : Except ArtifactError Artifact :=
  match raw.getPresent? "abi" with
  | none => .error .missingAbi
  | some abi => do
      let abi ← part [] (Json.listOf? Abi.Entry.ofJson?) (some abi)
      let debugInfo ← part none (fun json => (DebugInfo.ofJson? json).map some)
        ((raw.get? "program").bind (Json.getPresent? "debug_info"))
      let diagnostics ← part [] (Json.listOf? Diagnostic.ofJson?) (raw.getPresent? "diagnostics")
      return ⟨abi, debugInfo, diagnostics, raw⟩

/-- Read an artifact from a text. -/
def ofText (text : String) : Except ArtifactError Artifact :=
  match Json.parse text with
  | some raw => ofJson raw
  | none => .error .malformed

/-- Read an artifact from octets, which have to be UTF-8. -/
def ofOctets (octets : ByteArray) : Except ArtifactError Artifact :=
  match String.fromUTF8? octets with
  | some text => ofText text
  | none => .error .malformed

/-- The first constructor of the interface. -/
def constructor? (artifact : Artifact) : Option Abi.Function :=
  artifact.abi.findSome? fun
    | .constructor f => some f
    | _ => none

/-- The diagnostics with distinct templates, each where its template comes first. -/
def messageTemplates (artifact : Artifact) : List Diagnostic :=
  Diagnostic.distinctFrom [] artifact.diagnostics

/-- The places of the source that an instruction comes from, innermost first. -/
def sourceSpans (artifact : Artifact) (address : Nat) : List SourceSpan :=
  match artifact.debugInfo with
  | some info => info.spans address
  | none => []

end Artifact

end ContractFuzz
