import ContractFuzz.Artifact.Basic
import ContractFuzz.Execution.Frame

namespace ContractFuzz.Sandbox

/-- The storage of a program: slots by their names. -/
abbrev Storage := SortedMap String Felt

namespace Storage

/-- A slot that was never written holds zero. -/
def read (storage : Storage) (slot : String) : Felt := (storage.get? slot).getD 0

def write (storage : Storage) (slot : String) (value : Felt) : Storage :=
  storage.insert slot value

/-- The value of a slot as a machine word. A larger value counts as the largest word. -/
def readWord (storage : Storage) (slot : String) : Nat := min (storage.read slot) (1 <<< 64 - 1)

@[simp]
theorem read_write {storage : Storage} {slot other : String} {value : Felt} :
    (storage.write slot value).read other = if other = slot then value else storage.read other := by
  simp only [read, write, SortedMap.get?_insert]
  split <;> simp

end Storage

/-- What a handler sees of a call. -/
structure HandlerCall where
  function : String
  arguments : List Felt
  sender : Felt
  entryPoint : EntryPoint
  deriving DecidableEq, Repr, Inhabited

/-- An event before it has a number. -/
structure Emission where
  name : String
  data : List Felt
  deriving DecidableEq, Repr, Inhabited

/-- What a handler that does not fail reports. -/
structure Outcome where
  returnData : List Felt := []
  /-- In the order of emission. -/
  events : List Emission := []
  /-- Addresses executed beside that of the entry point. -/
  executed : List Nat := []
  deriving DecidableEq, Repr, Inhabited

/-- The computation of an entry point. It fails with the message of the revert. -/
abbrev Handler := Storage → HandlerCall → Except String (Outcome × Storage)

inductive Declaration where
  | external (name : String) (inputs : List Abi.Member) (handler : Handler)
  | l1Handler (name : String) (inputs : List Abi.Member) (handler : Handler)
  | view (name : String) (inputs outputs : List Abi.Member) (handler : Handler)
  | constructor (inputs : List Abi.Member) (handler : Handler)
  /-- Every member takes one felt. -/
  | struct (name : String) (members : List Abi.Member)
  | event (name : String)
  | diagnostic (d : Diagnostic)

/-- A program, its declarations in order. -/
abbrev Program := List Declaration

namespace Declaration

/-- The name by which a constructor is called. -/
def constructorName : String := "constructor"

/-- A view that takes nothing and returns one felt. -/
def property (name : String) (handler : Handler) : Declaration :=
  .view name [] [⟨"res", "felt", none⟩] handler

/-- Members at the places from one on. -/
def placeMembers : Nat → List Abi.Member → List Abi.Member
  | _, [] => []
  | place, member :: rest => { member with offset := some place } :: placeMembers (place + 1) rest

/-- The part of the interface that a declaration makes. -/
def entry? : Declaration → Option Abi.Entry
  | .external name inputs _ => some (.function ⟨name, inputs, [], none⟩)
  | .l1Handler name inputs _ => some (.l1Handler ⟨name, inputs, [], none⟩)
  | .view name inputs outputs _ => some (.function ⟨name, inputs, outputs, some "view"⟩)
  | .constructor inputs _ => some (.constructor ⟨constructorName, inputs, [], none⟩)
  | .struct name members => some (.struct ⟨name, some members.length, placeMembers 0 members⟩)
  | .event name => some (.event ⟨name, [], []⟩)
  | .diagnostic _ => none

def handler? : Declaration → Option (String × Handler)
  | .external name _ handler => some (name, handler)
  | .l1Handler name _ handler => some (name, handler)
  | .view name _ _ handler => some (name, handler)
  | .constructor _ handler => some (constructorName, handler)
  | _ => none

def diagnostic? : Declaration → Option Diagnostic
  | .diagnostic d => some d
  | _ => none

end Declaration

namespace Program

def abi (program : Program) : List Abi.Entry := program.filterMap Declaration.entry?

def diagnostics (program : Program) : List Diagnostic := program.filterMap Declaration.diagnostic?

/-- The handlers by name, in the order of declaration. -/
def handlers (program : Program) : List (String × Handler) :=
  program.filterMap Declaration.handler?

def handler? (program : Program) (function : String) : Option Handler :=
  program.handlers.lookup function

/-- The address of an entry point: ten for each handler declared before it. -/
def entryAddress (program : Program) (function : String) : Nat :=
  10 * program.handlers.findIdx fun handler => handler.1 == function

/-- The artifact in JSON. -/
def artifactJson (program : Program) : Json :=
  .object [("abi", Json.ofList Abi.Entry.toJson program.abi),
    ("diagnostics", Json.ofList Diagnostic.toJson program.diagnostics),
    ("program", .object [("debug_info", .null)])]

def artifact (program : Program) : Artifact :=
  ⟨program.abi, none, program.diagnostics, program.artifactJson⟩

end Program

end ContractFuzz.Sandbox
