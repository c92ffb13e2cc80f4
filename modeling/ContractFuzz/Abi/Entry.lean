namespace ContractFuzz.Abi

/-- A named slot with a type: an input or output, a struct member or an event field. -/
structure Member where
  name : String
  typeText : String
  offset : Option Nat := none
  deriving DecidableEq, Repr, Inhabited

structure Function where
  name : String
  inputs : List Member
  outputs : List Member
  stateMutability : Option String
  deriving DecidableEq, Repr, Inhabited

structure Struct where
  name : String
  size : Option Nat
  members : List Member
  deriving DecidableEq, Repr, Inhabited

structure Event where
  name : String
  keys : List Member
  data : List Member
  deriving DecidableEq, Repr, Inhabited

inductive Entry where
  | constructor (f : Function)
  | function (f : Function)
  | l1Handler (f : Function)
  | struct (s : Struct)
  | event (e : Event)
  /-- An entry of any other kind, which a campaign has no use for. -/
  | other
  deriving DecidableEq, Repr, Inhabited

def Function.isView (f : Function) : Bool := f.stateMutability == some "view"

/-- The place of a member in memory. Members without an offset come last. -/
def Member.place (m : Member) : Nat := m.offset.getD (1 <<< 64 - 1)

/-- The members in memory order; members with one place keep their order. -/
def Struct.orderedMembers (s : Struct) : List Member :=
  s.members.mergeSort fun a b => a.place ≤ b.place

def Entry.name? : Entry → Option String
  | .constructor f => some f.name
  | .function f => some f.name
  | .l1Handler f => some f.name
  | .struct s => some s.name
  | .event e => some e.name
  | .other => none

/-- A scoped name without its scopes: the part after the last point. -/
def lastSegment (path : List Char) : List Char :=
  (path.reverse.takeWhile (· != '.')).reverse

/-- The name by which types refer to a struct. -/
def Struct.localName (s : Struct) : String := String.ofList (lastSegment s.name.toList)

end ContractFuzz.Abi
