import ContractFuzz.Execution.Wire
import ContractFuzz.Sandbox.Script

namespace ContractFuzz.Sandbox

namespace Expression

/-- Read an expression; `fuel` bounds the height of its text. -/
def ofJsonWithin? (fuel : Nat) (json : Json) : Option Expression :=
  match fuel with
  | 0 => none
  | fuel + 1 =>
      match json with
      | .array [.string "get", .string name] => some (.slot name)
      | .array [.string "get64", .string name] => some (.word name)
      | .array [.string "arg", index] => index.nat?.map .argument
      | .array [.string "nargs"] => some .argumentCount
      | .array [.string "sum"] => some .argumentSum
      | .array [.string "sender"] => some .sender
      | .array [.string operator, left, right] => do
          let left ← ofJsonWithin? fuel left
          let right ← ofJsonWithin? fuel right
          match operator with
          | "add" => return .add left right
          | "sub" => return .subtract left right
          | "mod" => return .remainder left right
          | _ => none
      | _ => (Felt.ofJson? json).map .literal

def ofJson? (json : Json) : Option Expression := ofJsonWithin? (json.height + 1) json

end Expression

namespace Condition

/-- Read a condition; `fuel` bounds the height of its text. -/
def ofJsonWithin? (fuel : Nat) (json : Json) : Option Condition :=
  match fuel with
  | 0 => none
  | fuel + 1 =>
      match json with
      | .array [.string "not", condition] => (ofJsonWithin? fuel condition).map .negation
      | .array [.string "and", left, right] => do
          let left ← ofJsonWithin? fuel left
          let right ← ofJsonWithin? fuel right
          return .both left right
      | .array [.string "lt", left, right] => do
          let left ← Expression.ofJson? left
          let right ← Expression.ofJson? right
          return .less left right
      | .array [.string "eq", left, right] => do
          let left ← Expression.ofJson? left
          let right ← Expression.ofJson? right
          return .equal left right
      | .array [.string "kind", .string label] =>
          ([.external, .l1Handler, .constructor].find? fun entryPoint =>
            entryPoint.label == label).map .through
      | _ => none

def ofJson? (json : Json) : Option Condition := ofJsonWithin? (json.height + 1) json

end Condition

def MessagePart.ofJson? : Json → Option MessagePart
  | .string s => some (.text s)
  | json => (Expression.ofJson? json).map .value

namespace Statement

/-- Read a statement; `fuel` bounds the height of its text. -/
def ofJsonWithin? (fuel : Nat) (json : Json) : Option Statement :=
  match fuel with
  | 0 => none
  | fuel + 1 =>
      let body := Json.listOf? (ofJsonWithin? fuel)
      match json with
      | .array [.string "set", .string slot, value] =>
          (Expression.ofJson? value).map (.write slot)
      | .array [.string "if", condition, positive] => do
          let condition ← Condition.ofJson? condition
          let positive ← body positive
          return .branch condition positive []
      | .array [.string "if", condition, positive, negative] => do
          let condition ← Condition.ofJson? condition
          let positive ← body positive
          let negative ← body negative
          return .branch condition positive negative
      | .array [.string "ret", values] =>
          (Json.listOf? Expression.ofJson? values).map .returns
      | .array [.string "holds", condition] => (Condition.ofJson? condition).map .returnsTruth
      | .array [.string "event", .string name, data] =>
          (Json.listOf? Expression.ofJson? data).map (.emit name)
      | .array [.string "pcs", addresses] => (Json.listOf? Json.nat? addresses).map .executes
      | .array [.string "revert", message] =>
          (Json.listOf? MessagePart.ofJson? message).map .revert
      | _ => none

def ofJson? (json : Json) : Option Statement := ofJsonWithin? (json.height + 1) json

end Statement

/-- Read a member, which is written as its name and its type. -/
def member? : Json → Option Abi.Member
  | .array [.string name, .string typeText] => some ⟨name, typeText, none⟩
  | _ => none

/-- The items of a field that may be left out. -/
def fieldItems? {α : Type} (read : Json → Option α) (name : String) (json : Json) :
    Option (List α) :=
  match json.getPresent? name with
  | some items => Json.listOf? read items
  | none => some []

namespace Declaration

/-- Read a declaration of a scripted program. -/
def ofJson? (json : Json) : Option Declaration := do
  let kind ← (json.get? "k").bind Json.string?
  let name := (json.get? "name").bind Json.string?
  let inputs := fieldItems? member? "inputs" json
  let handler := (fieldItems? Statement.ofJson? "body" json).map scripted
  match kind with
  | "external" => return .external (← name) (← inputs) (← handler)
  | "l1_handler" => return .l1Handler (← name) (← inputs) (← handler)
  | "view" => return .view (← name) (← inputs) (← fieldItems? member? "outputs" json) (← handler)
  | "property" => return .property (← name) (← handler)
  | "constructor" => return .constructor (← inputs) (← handler)
  | "struct" => return .struct (← name) (← fieldItems? member? "fields" json)
  | "event" => return .event (← name)
  | "diagnostic" =>
      let signature ← (json.get? "signature").bind Json.string?
      let template ← (json.get? "template").bind Json.string?
      return .diagnostic ⟨signature, template⟩
  | _ => none

end Declaration

/-- Read a scripted program. -/
def Program.ofJson? : Json → Option Program := Json.listOf? Declaration.ofJson?

end ContractFuzz.Sandbox
