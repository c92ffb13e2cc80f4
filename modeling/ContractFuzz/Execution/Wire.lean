import ContractFuzz.Execution.Frame
import ContractFuzz.Json.Record

namespace ContractFuzz

namespace Felt

def toJson (x : Felt) : Json := .string x.toHex

def ofJson? : Json → Option Felt
  | .int (.ofNat n) => some n
  | .string s => (parse s).toOption
  | _ => none

end Felt

namespace EntryPoint

def code : EntryPoint → String
  | .external => "EXTERNAL"
  | .l1Handler => "L1_HANDLER"
  | .constructor => "CONSTRUCTOR"

def toJson (e : EntryPoint) : Json := .string e.code

def ofJson? : Json → Option EntryPoint :=
  Json.enumeration?
    [("EXTERNAL", .external), ("L1_HANDLER", .l1Handler), ("CONSTRUCTOR", .constructor)]

end EntryPoint

namespace Event

def toJson (e : Event) : Json :=
  .object [("order", Json.ofNat e.order), ("keys", Json.ofList Felt.toJson e.keys),
    ("data", Json.ofList Felt.toJson e.data)]

def ofJson? (json : Json) : Option Event :=
  match json.recordFields? ["order", "keys", "data"] with
  | some [order, keys, data] => do
      let order ← Json.defaulted 0 Json.nat? order
      let keys ← Json.defaulted [] (Json.listOf? Felt.ofJson?) keys
      let data ← Json.defaulted [] (Json.listOf? Felt.ofJson?) data
      return ⟨order, keys, data⟩
  | _ => none

end Event

namespace Frame

mutual

def toJson : Frame → Json
  | ⟨address, classHash, entryPoint, returnData, events, executed, calls⟩ =>
      .object [("contract_address", address.toJson),
        ("class_hash", Json.ofOption Felt.toJson classHash),
        ("entry_point_type", entryPoint.toJson),
        ("retdata", Json.ofList Felt.toJson returnData),
        ("events", Json.ofList Event.toJson events),
        ("executed_pcs", Json.ofList Json.ofNat executed.toList),
        ("internal_calls", .array (callsToJson calls))]

def callsToJson : List Frame → List Json
  | [] => []
  | call :: rest => call.toJson :: callsToJson rest

end

/-- Read a frame; `fuel` bounds the height of its text. -/
def ofJsonWithin? (fuel : Nat) (json : Json) : Option Frame :=
  match fuel with
  | 0 => none
  | fuel + 1 =>
      match json.recordFields? ["contract_address", "class_hash", "entry_point_type", "retdata",
          "events", "executed_pcs", "internal_calls"] with
      | some [address, classHash, entryPoint, returnData, events, executed, calls] => do
          let address ← Json.required Felt.ofJson? address
          let classHash ← Json.optional Felt.ofJson? classHash
          let entryPoint ← Json.defaulted .external EntryPoint.ofJson? entryPoint
          let returnData ← Json.defaulted [] (Json.listOf? Felt.ofJson?) returnData
          let events ← Json.defaulted [] (Json.listOf? Event.ofJson?) events
          let executed ← Json.defaulted [] (Json.listOf? Json.nat?) executed
          let calls ← Json.defaulted [] (Json.listOf? (ofJsonWithin? fuel)) calls
          return ⟨address, classHash, entryPoint, returnData, events, .ofList executed, calls⟩
      | _ => none

def ofJson? (json : Json) : Option Frame := ofJsonWithin? json.height json

end Frame

end ContractFuzz
