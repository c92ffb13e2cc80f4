import ContractFuzz.Abi.Wire
import ContractFuzz.Proofs.Json.Records

namespace ContractFuzz.Abi

open Json

namespace Member

theorem readsBack : ReadsBack toJson ofJson? := by
  rintro ⟨name, typeText, offset⟩
  have hfields : (toJson ⟨name, typeText, offset⟩).recordFields? ["name", "type", "offset"] =
      some [some (.string name), some (.string typeText), offset.map ofNat] := by
    cases offset with
    | none => exact recordFields?_object (by simp [presentField]) _
    | some offset => exact recordFields?_object (by simp [presentField]) _
  rw [ofJson?, hfields]
  cases offset <;> rfl

theorem settled_toJson (m : Member) : m.toJson.Settled := by
  obtain ⟨name, typeText, offset⟩ := m
  cases offset with
  | none => exact .object (by simp [presentField]) (by simp [presentField])
  | some offset => exact .object (by simp [presentField]) (by simp [presentField])

theorem settled_list (members : List Member) : (ofList toJson members).Settled :=
  settled_ofList settled_toJson members

theorem members?_ofList (members : List Member) :
    members? (some (ofList toJson members)) = some members := readsBack.list members

end Member

namespace Function

theorem ofJson?_fields (f : Function) : ofJson? (.object f.fields) = some f := by
  obtain ⟨name, inputs, outputs, stateMutability⟩ := f
  have hfields : recordFields? ["name", "inputs", "outputs", "stateMutability"]
      (.object (fields ⟨name, inputs, outputs, stateMutability⟩)) =
        some [some (.string name), some (ofList Member.toJson inputs),
          some (ofList Member.toJson outputs), stateMutability.map Json.string] := by
    cases stateMutability with
    | none => exact recordFields?_object (by simp [fields, presentField]) _
    | some stateMutability => exact recordFields?_object (by simp [fields, presentField]) _
  rw [ofJson?, hfields]
  simp only [required, Member.members?_ofList inputs, Member.members?_ofList outputs]
  cases stateMutability <;> rfl

theorem taggable_fields (f : Function) : Taggable "type" f.fields := by
  obtain ⟨name, inputs, outputs, stateMutability⟩ := f
  cases stateMutability with
  | none => constructor <;> simp [fields, presentField, Member.settled_list]
  | some stateMutability => constructor <;> simp [fields, presentField, Member.settled_list]

end Function

namespace Struct

theorem ofJson?_fields (s : Struct) : ofJson? (.object s.fields) = some s := by
  obtain ⟨name, size, members⟩ := s
  have hfields : recordFields? ["name", "size", "members"]
      (.object (fields ⟨name, size, members⟩)) =
        some [some (.string name), size.map ofNat, some (ofList Member.toJson members)] := by
    cases size with
    | none => exact recordFields?_object (by simp [fields, presentField]) _
    | some size => exact recordFields?_object (by simp [fields, presentField]) _
  rw [ofJson?, hfields]
  simp only [required, Member.members?_ofList members]
  cases size <;> rfl

theorem taggable_fields (s : Struct) : Taggable "type" s.fields := by
  obtain ⟨name, size, members⟩ := s
  cases size with
  | none => constructor <;> simp [fields, presentField, Member.settled_list]
  | some size => constructor <;> simp [fields, presentField, Member.settled_list]

end Struct

namespace Event

theorem ofJson?_fields (e : Event) : ofJson? (.object e.fields) = some e := by
  have hfields : recordFields? ["name", "keys", "data"] (.object e.fields) =
      some [some (.string e.name), some (ofList Member.toJson e.keys),
        some (ofList Member.toJson e.data)] := recordFields?_object (by simp [fields]) _
  rw [ofJson?, hfields]
  simp only [required, Member.members?_ofList e.keys, Member.members?_ofList e.data]
  rfl

theorem taggable_fields (e : Event) : Taggable "type" e.fields := by
  constructor <;> simp [fields, Member.settled_list]

end Event

theorem Entry.readsBack : ReadsBack Entry.toJson Entry.ofJson? := by
  intro entry
  cases entry with
  | constructor f | function f | l1Handler f =>
      rw [toJson, ofJson?, if_neg (f.taggable_fields.opens _).1, (f.taggable_fields.opens _).2]
      exact congrArg (Option.map _) f.ofJson?_fields
  | struct s =>
      rw [toJson, ofJson?, if_neg (s.taggable_fields.opens _).1, (s.taggable_fields.opens _).2]
      exact congrArg (Option.map Entry.struct) s.ofJson?_fields
  | event e =>
      rw [toJson, ofJson?, if_neg (e.taggable_fields.opens _).1, (e.taggable_fields.opens _).2]
      exact congrArg (Option.map Entry.event) e.ofJson?_fields
  | other => rfl

end ContractFuzz.Abi
