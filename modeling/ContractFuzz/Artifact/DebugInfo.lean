import ContractFuzz.Json.Record
import ContractFuzz.Sorted.Map
import ContractFuzz.Text.Numeral

namespace ContractFuzz

/-- A place in the source. A location that came out of an expansion has the location it was
expanded at, with a note on why. -/
structure Location where
  filename : Option String
  startLine : Nat
  endLine : Nat
  parent : Option (Location × String)
  deriving Inhabited

/-- Lines of a source file, counted from one, both ends included. -/
structure SourceSpan where
  filename : String
  startLine : Nat
  endLine : Nat
  deriving DecidableEq, Repr, Inhabited

/-- The location of each instruction address. -/
structure DebugInfo where
  locations : SortedMap Nat Location
  deriving Inhabited

/-- The spans of a location and of those it was expanded at, innermost first. Locations without a
file are left out. -/
def Location.spans : Location → List SourceSpan
  | ⟨filename, startLine, endLine, parent⟩ =>
      let own := match filename with
        | some filename => [⟨filename, startLine, endLine⟩]
        | none => []
      match parent with
      | some (outer, _) => own ++ outer.spans
      | none => own

def DebugInfo.spans (info : DebugInfo) (address : Nat) : List SourceSpan :=
  match info.locations.get? address with
  | some location => location.spans
  | none => []

namespace Location

def toJson : Location → Json
  | ⟨filename, startLine, endLine, parent⟩ =>
      .object [("input_file", .object [("filename", Json.ofOption Json.string filename)]),
        ("start_line", Json.ofNat startLine), ("end_line", Json.ofNat endLine),
        ("parent_location", match parent with
          | some (outer, note) => .array [outer.toJson, .string note]
          | none => .null)]

/-- Read the file of a location. -/
def inputFile? (json : Json) : Option (Option String) :=
  match json.recordFields? ["filename"] with
  | some [filename] => Json.optional Json.string? filename
  | _ => none

/-- A line number, which fits 32 bits. -/
def line? (json : Json) : Option Nat :=
  match json.nat? with
  | some n => if n < 1 <<< 32 then some n else none
  | none => none

/-- Read a location; `fuel` bounds the height of its text. -/
def ofJsonWithin? (fuel : Nat) (json : Json) : Option Location :=
  match fuel with
  | 0 => none
  | fuel + 1 =>
      match json.recordFields? ["input_file", "start_line", "end_line", "parent_location"] with
      | some [file, startLine, endLine, parent] => do
          let filename ← Json.required inputFile? file
          let startLine ← Json.required line? startLine
          let endLine ← Json.required line? endLine
          let parent ← Json.optional (fun
            | .array [outer, .string note] => do
                let outer ← ofJsonWithin? fuel outer
                return (outer, note)
            | _ => none) parent
          return ⟨filename, startLine, endLine, parent⟩
      | _ => none

def ofJson? (json : Json) : Option Location := ofJsonWithin? json.height json

end Location

namespace DebugInfo

def toJson (info : DebugInfo) : Json :=
  .object [("instruction_locations", .object (info.locations.entries.map fun entry =>
    (String.ofList (Text.decimalDigits entry.1), .object [("inst", entry.2.toJson)])))]

/-- An address as the name of a field: decimal digits without leading zeros. -/
def address? (name : String) : Option Nat :=
  match name.toList with
  | ['0'] => some 0
  | '0' :: _ => none
  | '+' :: _ => none
  | digits => Text.word? digits

/-- Read the location of an instruction. -/
def instruction? (json : Json) : Option Location :=
  match json.recordFields? ["inst"] with
  | some [location] => Json.required Location.ofJson? location
  | _ => none

def entry? (field : String × Json) : Option (Nat × Location) := do
  let address ← address? field.1
  let location ← instruction? field.2
  return (address, location)

def locations? : Json → Option (SortedMap Nat Location)
  | .object fields => (fields.mapM entry?).map SortedMap.ofList
  | _ => none

def ofJson? (json : Json) : Option DebugInfo :=
  match json.recordFields? ["instruction_locations"] with
  | some [locations] => (Json.defaulted .empty locations? locations).map DebugInfo.mk
  | _ => none

end DebugInfo

end ContractFuzz
