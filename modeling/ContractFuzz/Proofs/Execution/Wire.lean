import ContractFuzz.Execution.Wire
import ContractFuzz.Proofs.Execution.Frames
import ContractFuzz.Proofs.Json.Records
import ContractFuzz.Proofs.Text.Numerals

namespace ContractFuzz

open Json

namespace Felt

theorem readsBack : ReadsBack toJson ofJson? := by
  intro x
  rw [toJson, ofJson?, parse_toHex]
  rfl

@[simp] theorem settled_toJson (x : Felt) : (Felt.toJson x).Settled := settled_string _

theorem toJson_ne_null (x : Felt) : Felt.toJson x ≠ .null := nofun

end Felt

theorem EntryPoint.readsBack : ReadsBack EntryPoint.toJson EntryPoint.ofJson? := by
  intro entryPoint
  cases entryPoint <;> rfl

@[simp] theorem EntryPoint.settled_toJson (entryPoint : EntryPoint) : entryPoint.toJson.Settled :=
  settled_string _

namespace Event

theorem readsBack : ReadsBack toJson ofJson? := by
  intro event
  have hfields : event.toJson.recordFields? ["order", "keys", "data"] =
      some [some (ofNat event.order), some (ofList Felt.toJson event.keys),
        some (ofList Felt.toJson event.data)] := recordFields?_object (by simp) _
  rw [ofJson?, hfields]
  simp only [defaulted, readsBack_nat event.order, Felt.readsBack.list event.keys,
    Felt.readsBack.list event.data]
  rfl

@[simp] theorem settled_toJson (event : Event) : event.toJson.Settled := by
  refine .object (by simp) ?_
  simp [settled_ofList Felt.settled_toJson]

end Event

namespace Frame

theorem callsToJson_eq (calls : List Frame) : callsToJson calls = calls.map toJson := by
  induction calls with
  | nil => rfl
  | cons call rest ih => rw [callsToJson, ih, List.map_cons]

/-- The fields of a frame, as they are written. -/
def fields (frame : Frame) : List (String × Json) :=
  [("contract_address", Felt.toJson frame.contractAddress),
    ("class_hash", ofOption Felt.toJson frame.classHash),
    ("entry_point_type", frame.entryPoint.toJson),
    ("retdata", ofList Felt.toJson frame.returnData),
    ("events", ofList Event.toJson frame.events),
    ("executed_pcs", ofList ofNat frame.executed.toList),
    ("internal_calls", ofList toJson frame.calls)]

theorem toJson_eq (frame : Frame) : frame.toJson = .object frame.fields := by
  cases frame
  rw [toJson, callsToJson_eq]
  rfl

theorem ofJsonWithin?_toJson (frame : Frame) :
    ∀ fuel, frame.toJson.height ≤ fuel → ofJsonWithin? fuel frame.toJson = some frame := by
  induction frame with
  | frame frame ih =>
      intro fuel hfuel
      rw [toJson_eq] at hfuel ⊢
      obtain ⟨fuel, rfl, hparts⟩ := exists_fuel hfuel
      have hcalls : listOf? (ofJsonWithin? fuel) (ofList toJson frame.calls) =
          some frame.calls := by
        have hlist := hparts _ _ (List.mem_of_getLast? rfl)
        refine listOf?_ofList fun call hcall => ih call hcall fuel ?_
        have hitem : call.toJson.height < (ofList toJson frame.calls).height :=
          height_lt_of_mem_items (List.mem_map_of_mem hcall)
        exact Nat.le_trans (Nat.le_of_lt hitem) hlist
      have hrecord : recordFields? ["contract_address", "class_hash", "entry_point_type",
          "retdata", "events", "executed_pcs", "internal_calls"] (.object frame.fields) =
            some (frame.fields.map fun field => some field.2) :=
        recordFields?_object (by simp [fields]) _
      rw [ofJsonWithin?, hrecord]
      simp only [fields, List.map_cons, List.map_nil]
      simp only [required, defaulted, Felt.readsBack frame.contractAddress,
        Felt.readsBack.option Felt.toJson_ne_null frame.classHash,
        EntryPoint.readsBack frame.entryPoint, Felt.readsBack.list frame.returnData,
        Event.readsBack.list frame.events, readsBack_nat.list frame.executed.toList, hcalls,
        Option.bind_eq_bind, Option.bind_some, SortedSet.ofList_toList]
      cases frame
      rfl

theorem readsBack : ReadsBack toJson ofJson? :=
  fun frame => ofJsonWithin?_toJson frame _ (Nat.le_refl _)

theorem settled_toJson (frame : Frame) : frame.toJson.Settled := by
  induction frame with
  | frame frame ih =>
      have hcalls : (ofList toJson frame.calls).Settled := by
        refine .array fun item hitem => ?_
        obtain ⟨call, hcall, rfl⟩ := List.mem_map.mp hitem
        exact ih call hcall
      rw [toJson_eq]
      refine .object (by simp [fields]) ?_
      simp [fields, settled_ofList Felt.settled_toJson, settled_ofOption Felt.settled_toJson,
        settled_ofList Event.settled_toJson, settled_ofList settled_nat, hcalls]

end Frame

end ContractFuzz
