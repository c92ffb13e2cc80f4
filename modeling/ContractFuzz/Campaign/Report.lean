import ContractFuzz.Campaign.Config
import ContractFuzz.Execution.Wire

namespace ContractFuzz

structure Report where
  /-- The artifact or source file the campaign was about. -/
  target : String
  mode : OracleMode
  seed : Nat
  /-- How many iterations were completed. -/
  iterations : Nat
  elapsedMs : Nat
  /-- The obligations at the start. -/
  obligations : List String
  /-- The obligations that were live at the end. -/
  remaining : List String
  findings : List Finding
  /-- The number of addresses executed, over all instances. -/
  coveredInstructions : Nat
  deriving Inhabited

def Report.allViolated (report : Report) : Bool := report.remaining.isEmpty

namespace OracleMode

def toJson (mode : OracleMode) : Json := .string mode.label

def ofJson? : Json → Option OracleMode :=
  Json.enumeration? [("property", .property), ("exception", .exception)]

end OracleMode

namespace RecordedCall

def toJson (step : RecordedCall) : Json :=
  .object [("sender", step.call.sender.toJson), ("function_name", .string step.call.function),
    ("arguments", Json.ofList Felt.toJson step.call.arguments),
    ("entry_point_type", step.call.entryPoint.toJson),
    ("nonce", Json.ofOption Felt.toJson step.call.nonce),
    ("events_emitted", Json.ofList Event.toJson step.events)]

def ofJson? (json : Json) : Option RecordedCall :=
  match json.recordFields? ["sender", "function_name", "arguments", "entry_point_type", "nonce",
      "events_emitted"] with
  | some [sender, function, arguments, entryPoint, nonce, events] => do
      let sender ← Json.required Felt.ofJson? sender
      let function ← Json.required Json.string? function
      let arguments ← Json.required (Json.listOf? Felt.ofJson?) arguments
      let entryPoint ← Json.required EntryPoint.ofJson? entryPoint
      let nonce ← Json.optional Felt.ofJson? nonce
      let events ← Json.required (Json.listOf? Event.ofJson?) events
      return ⟨⟨sender, function, arguments, entryPoint, nonce⟩, events⟩
  | _ => none

end RecordedCall

namespace Violation

def toJson : Violation → Json
  | .property name events =>
      .object [("type", .string "PropertyViolated"), ("name", .string name),
        ("events", Json.ofList Event.toJson events)]
  | .exception template message =>
      .object [("type", .string "ExceptionRaised"), ("template", .string template),
        ("message", .string message)]

def property? (record : Json) : Option Violation :=
  match record.recordFields? ["name", "events"] with
  | some [name, events] => do
      let name ← Json.required Json.string? name
      let events ← Json.required (Json.listOf? Event.ofJson?) events
      return .property name events
  | _ => none

def exception? (record : Json) : Option Violation :=
  match record.recordFields? ["template", "message"] with
  | some [template, message] => do
      let template ← Json.required Json.string? template
      let message ← Json.required Json.string? message
      return .exception template message
  | _ => none

/-- Read a violation, all parts of which have to have a value. -/
def ofJson? (json : Json) : Option Violation :=
  if !json.isReadable then none
  else
    match json.tagged? "type" with
    | some ("PropertyViolated", record) => property? record
    | some ("ExceptionRaised", record) => exception? record
    | _ => none

end Violation

namespace Finding

def toJson (finding : Finding) : Json :=
  .object [("iteration", Json.ofNat finding.iteration),
    ("violations", Json.ofList Violation.toJson finding.violations),
    ("sequence", Json.ofList RecordedCall.toJson finding.sequence),
    ("original_len", Json.ofNat finding.foundLength), ("shrunk", .bool finding.shrunk)]

def ofJson? (json : Json) : Option Finding :=
  match json.recordFields? ["iteration", "violations", "sequence", "original_len", "shrunk"] with
  | some [iteration, violations, sequence, foundLength, shrunk] => do
      let iteration ← Json.required Json.nat? iteration
      let violations ← Json.required (Json.listOf? Violation.ofJson?) violations
      let sequence ← Json.required (Json.listOf? RecordedCall.ofJson?) sequence
      let foundLength ← Json.required Json.nat? foundLength
      let shrunk ← Json.required Json.bool? shrunk
      return ⟨iteration, violations, sequence, foundLength, shrunk⟩
  | _ => none

end Finding

namespace Report

def fields (report : Report) : List (String × Json) :=
  [("target", .string report.target), ("mode", report.mode.toJson),
    ("seed", Json.ofNat report.seed), ("iterations", Json.ofNat report.iterations),
    ("elapsed_ms", Json.ofNat report.elapsedMs),
    ("obligations", Json.ofList Json.string report.obligations),
    ("remaining", Json.ofList Json.string report.remaining),
    ("findings", Json.ofList Finding.toJson report.findings),
    ("covered_instructions", Json.ofNat report.coveredInstructions)]

def toJson (report : Report) : Json := .object report.fields

def ofJson? (json : Json) : Option Report :=
  match json.recordFields? ["target", "mode", "seed", "iterations", "elapsed_ms", "obligations",
      "remaining", "findings", "covered_instructions"] with
  | some [target, mode, seed, iterations, elapsedMs, obligations, remaining, findings,
      covered] => do
      let target ← Json.required Json.string? target
      let mode ← Json.required OracleMode.ofJson? mode
      let seed ← Json.required Json.nat? seed
      let iterations ← Json.required Json.nat? iterations
      let elapsedMs ← Json.required Json.nat? elapsedMs
      let obligations ← Json.required (Json.listOf? Json.string?) obligations
      let remaining ← Json.required (Json.listOf? Json.string?) remaining
      let findings ← Json.required (Json.listOf? Finding.ofJson?) findings
      let covered ← Json.required Json.nat? covered
      return ⟨target, mode, seed, iterations, elapsedMs, obligations, remaining, findings, covered⟩
  | _ => none

end Report

end ContractFuzz
