import ContractFuzz.Abi.Entry
import ContractFuzz.Json.Record

namespace ContractFuzz.Abi

/-- A field that is left out when it has no value. -/
def presentField {α : Type} (name : String) (write : α → Json) : Option α → List (String × Json)
  | some x => [(name, write x)]
  | none => []

namespace Member

def toJson (m : Member) : Json :=
  .object ([("name", .string m.name), ("type", .string m.typeText)] ++
    presentField "offset" Json.ofNat m.offset)

def ofJson? (json : Json) : Option Member :=
  match json.recordFields? ["name", "type", "offset"] with
  | some [name, typeText, offset] => do
      let name ← Json.required Json.string? name
      let typeText ← Json.required Json.string? typeText
      let offset ← Json.optional Json.nat? offset
      return ⟨name, typeText, offset⟩
  | _ => none

end Member

/-- Read a list of members, which may be missing but not null. -/
def members? : Option Json → Option (List Member) :=
  Json.defaulted [] (Json.listOf? Member.ofJson?)

namespace Function

def fields (f : Function) : List (String × Json) :=
  [("name", .string f.name), ("inputs", Json.ofList Member.toJson f.inputs),
    ("outputs", Json.ofList Member.toJson f.outputs)] ++
    presentField "stateMutability" Json.string f.stateMutability

def ofJson? (json : Json) : Option Function :=
  match json.recordFields? ["name", "inputs", "outputs", "stateMutability"] with
  | some [name, inputs, outputs, stateMutability] => do
      let name ← Json.required Json.string? name
      let inputs ← members? inputs
      let outputs ← members? outputs
      let stateMutability ← Json.optional Json.string? stateMutability
      return ⟨name, inputs, outputs, stateMutability⟩
  | _ => none

end Function

namespace Struct

def fields (s : Struct) : List (String × Json) :=
  [("name", .string s.name)] ++ presentField "size" Json.ofNat s.size ++
    [("members", Json.ofList Member.toJson s.members)]

def ofJson? (json : Json) : Option Struct :=
  match json.recordFields? ["name", "size", "members"] with
  | some [name, size, members] => do
      let name ← Json.required Json.string? name
      let size ← Json.optional Json.nat? size
      let members ← members? members
      return ⟨name, size, members⟩
  | _ => none

end Struct

namespace Event

def fields (e : Event) : List (String × Json) :=
  [("name", .string e.name), ("keys", Json.ofList Member.toJson e.keys),
    ("data", Json.ofList Member.toJson e.data)]

def ofJson? (json : Json) : Option Event :=
  match json.recordFields? ["name", "keys", "data"] with
  | some [name, keys, data] => do
      let name ← Json.required Json.string? name
      let keys ← members? keys
      let data ← members? data
      return ⟨name, keys, data⟩
  | _ => none

end Event

namespace Entry

def toJson : Entry → Json
  | .constructor f => .object (("type", .string "constructor") :: f.fields)
  | .function f => .object (("type", .string "function") :: f.fields)
  | .l1Handler f => .object (("type", .string "l1_handler") :: f.fields)
  | .struct s => .object (("type", .string "struct") :: s.fields)
  | .event e => .object (("type", .string "event") :: e.fields)
  | .other => .object [("type", .string "other")]

/-- An entry of no known kind has no parts, whatever its object holds; as an array it is its tag
alone. -/
def ofUnknown? : Json → Option Entry
  | .array (_ :: _) => none
  | _ => some .other

/-- Read an entry, all parts of which have to have a value. -/
def ofJson? (json : Json) : Option Entry :=
  if !json.isReadable then none
  else
    match json.tagged? "type" with
    | some ("constructor", record) => (Function.ofJson? record).map .constructor
    | some ("function", record) => (Function.ofJson? record).map .function
    | some ("l1_handler", record) => (Function.ofJson? record).map .l1Handler
    | some ("struct", record) => (Struct.ofJson? record).map .struct
    | some ("event", record) => (Event.ofJson? record).map .event
    | some (_, record) => ofUnknown? record
    | none => none

end Entry

end ContractFuzz.Abi
