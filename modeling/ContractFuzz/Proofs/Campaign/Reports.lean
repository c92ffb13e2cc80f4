import ContractFuzz.Campaign.Report
import ContractFuzz.Proofs.Execution.Wire

namespace ContractFuzz

open Json

theorem OracleMode.readsBack : ReadsBack OracleMode.toJson OracleMode.ofJson? := by
  intro mode
  cases mode <;> rfl

theorem RecordedCall.readsBack : ReadsBack RecordedCall.toJson RecordedCall.ofJson? := by
  intro step
  have hfields : step.toJson.recordFields? ["sender", "function_name", "arguments",
      "entry_point_type", "nonce", "events_emitted"] =
        some [some (Felt.toJson step.call.sender), some (.string step.call.function),
          some (ofList Felt.toJson step.call.arguments), some step.call.entryPoint.toJson,
          some (ofOption Felt.toJson step.call.nonce), some (ofList Event.toJson step.events)] :=
    recordFields?_object (by simp) _
  rw [ofJson?, hfields]
  simp only [required, Felt.readsBack step.call.sender, readsBack_string step.call.function,
    Felt.readsBack.list step.call.arguments, EntryPoint.readsBack step.call.entryPoint,
    Felt.readsBack.option Felt.toJson_ne_null step.call.nonce, Event.readsBack.list step.events]
  rfl

namespace Violation

theorem readsBack : ReadsBack toJson ofJson? := by
  intro violation
  cases violation with
  | property name events =>
      have htaggable : Taggable "type"
          [("name", .string name), ("events", ofList Event.toJson events)] := by
        constructor <;> simp [settled_ofList Event.settled_toJson]
      have hfields : recordFields? ["name", "events"]
          (.object [("name", .string name), ("events", ofList Event.toJson events)]) =
            some [some (.string name), some (ofList Event.toJson events)] :=
        recordFields?_object htaggable.nodup _
      rw [toJson, ofJson?, if_neg (htaggable.opens _).1, (htaggable.opens _).2]
      change property? _ = _
      rw [property?, hfields]
      simp only [required, readsBack_string name, Event.readsBack.list events]
      rfl
  | exception template message =>
      have htaggable : Taggable "type"
          [("template", .string template), ("message", .string message)] := by
        constructor <;> simp
      have hfields : recordFields? ["template", "message"]
          (.object [("template", .string template), ("message", .string message)]) =
            some [some (.string template), some (.string message)] :=
        recordFields?_object htaggable.nodup _
      rw [toJson, ofJson?, if_neg (htaggable.opens _).1, (htaggable.opens _).2]
      change exception? _ = _
      rw [exception?, hfields]
      rfl

end Violation

theorem Finding.readsBack : ReadsBack Finding.toJson Finding.ofJson? := by
  intro finding
  have hfields : finding.toJson.recordFields? ["iteration", "violations", "sequence",
      "original_len", "shrunk"] =
        some [some (ofNat finding.iteration), some (ofList Violation.toJson finding.violations),
          some (ofList RecordedCall.toJson finding.sequence), some (ofNat finding.foundLength),
          some (.bool finding.shrunk)] := recordFields?_object (by simp) _
  rw [ofJson?, hfields]
  simp only [required, readsBack_nat finding.iteration, Violation.readsBack.list finding.violations,
    RecordedCall.readsBack.list finding.sequence, readsBack_nat finding.foundLength,
    readsBack_bool finding.shrunk]
  rfl

theorem Report.readsBack : ReadsBack Report.toJson Report.ofJson? := by
  intro report
  have hfields : report.toJson.recordFields? ["target", "mode", "seed", "iterations", "elapsed_ms",
      "obligations", "remaining", "findings", "covered_instructions"] =
        some (report.fields.map fun field => some field.2) :=
    recordFields?_object (by simp [fields]) _
  rw [ofJson?, hfields]
  simp only [fields, List.map_cons, List.map_nil]
  simp only [required, readsBack_string report.target, OracleMode.readsBack report.mode,
    readsBack_nat report.seed, readsBack_nat report.iterations, readsBack_nat report.elapsedMs,
    readsBack_string.list report.obligations, readsBack_string.list report.remaining,
    Finding.readsBack.list report.findings, readsBack_nat report.coveredInstructions]
  rfl

end ContractFuzz
