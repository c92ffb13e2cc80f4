import ContractFuzz.Json.Decimal

/-!
JSON values as they stand in a text: objects keep their fields in order, repeated names included,
and integers of 64 bits are kept apart from all other numbers.
-/

namespace ContractFuzz

/-- A JSON value. `unreadable` stands for a piece of well-formed text without a value: a string
with half a surrogate pair, a number too large for a double, or a container nested too deep. -/
inductive Json where
  | null
  | bool (value : Bool)
  | int (value : Int)
  | decimal (value : Decimal)
  | string (value : String)
  | array (items : List Json)
  | object (fields : List (String × Json))
  | unreadable
  deriving Inhabited

namespace Json

def ofNat (n : Nat) : Json := .int n

mutual

/-- Whether every part of the value can be read. -/
def isReadable : Json → Bool
  | .unreadable => false
  | .array items => areReadable items
  | .object fields => areReadableFields fields
  | _ => true

def areReadable : List Json → Bool
  | [] => true
  | item :: rest => item.isReadable && areReadable rest

def areReadableFields : List (String × Json) → Bool
  | [] => true
  | (_, value) :: rest => value.isReadable && areReadableFields rest

end

/-- Drop every field whose name comes again later. -/
def keepLast : List (String × Json) → List (String × Json)
  | [] => []
  | field :: rest =>
      if rest.any fun other => other.1 == field.1 then keepLast rest else field :: keepLast rest

mutual

/-- Of fields with one name keep the last, at every depth. -/
def distinct : Json → Json
  | .array items => .array (distinctItems items)
  | .object fields => .object (keepLast (distinctFields fields))
  | value => value

def distinctItems : List Json → List Json
  | [] => []
  | item :: rest => item.distinct :: distinctItems rest

def distinctFields : List (String × Json) → List (String × Json)
  | [] => []
  | (name, value) :: rest => (name, value.distinct) :: distinctFields rest

end

mutual

/-- How many containers lie around the innermost value. -/
def height : Json → Nat
  | .array items => heightOfItems items + 1
  | .object fields => heightOfFields fields + 1
  | _ => 0

def heightOfItems : List Json → Nat
  | [] => 0
  | item :: rest => max item.height (heightOfItems rest)

def heightOfFields : List (String × Json) → Nat
  | [] => 0
  | (_, value) :: rest => max value.height (heightOfFields rest)

end

/-- The field of an object with a name; other values have none. -/
def get? (name : String) : Json → Option Json
  | .object fields => fields.lookup name
  | _ => none

/-- The field of an object, unless it is missing or null. -/
def getPresent? (name : String) (value : Json) : Option Json :=
  match value.get? name with
  | some .null => none
  | found => found

def string? : Json → Option String
  | .string s => some s
  | _ => none

def bool? : Json → Option Bool
  | .bool b => some b
  | _ => none

/-- A natural number. A text yields one only below `2 ^ 64`. -/
def nat? : Json → Option Nat
  | .int (.ofNat n) => some n
  | _ => none

def items? : Json → Option (List Json)
  | .array items => some items
  | _ => none

def listOf? {α : Type} (read : Json → Option α) (value : Json) : Option (List α) :=
  value.items?.bind fun items => items.mapM read

def ofList {α : Type} (write : α → Json) (xs : List α) : Json := .array (xs.map write)

def ofOption {α : Type} (write : α → Json) : Option α → Json
  | some x => write x
  | none => .null

end Json

end ContractFuzz
