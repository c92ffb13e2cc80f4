import ContractFuzz.Json.Basic

/-!
Records in JSON. A record is written as an object. It is read from an object, in which each of its
fields stands at most once and other fields do not matter, or from an array of its fields in their
declared order, of which the last may be left off.
-/

namespace ContractFuzz.Json

/-- The value of the only field with a name, if there is one. Two fields with the name are an
error. -/
def uniqueField? (fields : List (String × Json)) (name : String) : Option (Option Json) :=
  match fields.filter fun field => field.1 == name with
  | [] => some none
  | [field] => some (some field.2)
  | _ => none

/-- The values of a record's fields, in their declared order, with none for a missing field. -/
def recordFields? (names : List String) : Json → Option (List (Option Json))
  | .object fields => names.mapM (uniqueField? fields)
  | .array items =>
      if items.length ≤ names.length then
        some (items.map some ++ List.replicate (names.length - items.length) none)
      else none
  | _ => none

variable {α : Type}

/-- A field that has to be there. -/
def required (read : Json → Option α) : Option Json → Option α
  | some value => read value
  | none => none

/-- A field that has a default when it is missing. -/
def defaulted (default : α) (read : Json → Option α) : Option Json → Option α
  | some value => read value
  | none => some default

/-- A field that may be missing or null. -/
def optional (read : Json → Option α) : Option Json → Option (Option α)
  | none => some none
  | some .null => some none
  | some value => (read value).map some

/-- An enumeration: the name of a case, or an object with that name and null. -/
def enumeration? (cases : List (String × α)) : Json → Option α
  | .string name => cases.lookup name
  | .object [(name, .null)] => cases.lookup name
  | _ => none

/-- The tag of a tagged record, and the record without it. In an array the tag comes first. -/
def tagged? (tag : String) : Json → Option (String × Json)
  | .object fields =>
      match uniqueField? fields tag with
      | some (some (.string name)) =>
          some (name, .object (fields.filter fun field => field.1 != tag))
      | _ => none
  | .array (.string name :: rest) => some (name, .array rest)
  | _ => none

end ContractFuzz.Json
