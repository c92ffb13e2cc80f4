import ContractFuzz.Sandbox.Program

namespace ContractFuzz.Sandbox

inductive Expression where
  | literal (value : Nat)
  /-- The value of a slot. -/
  | slot (name : String)
  /-- The value of a slot as a machine word. -/
  | word (name : String)
  /-- An argument of the call, zero if there are fewer. -/
  | argument (index : Nat)
  | argumentCount
  | argumentSum
  | sender
  | add (left right : Expression)
  /-- A negative difference counts as zero. -/
  | subtract (left right : Expression)
  /-- A remainder by zero counts as zero. -/
  | remainder (left right : Expression)
  deriving Repr, Inhabited

inductive Condition where
  | less (left right : Expression)
  | equal (left right : Expression)
  | negation (condition : Condition)
  | both (left right : Condition)
  /-- The call came through an entry point. -/
  | through (entryPoint : EntryPoint)
  deriving Repr, Inhabited

/-- A part of a message. -/
inductive MessagePart where
  | text (text : String)
  /-- A value in decimal. -/
  | value (expression : Expression)
  deriving Repr, Inhabited

inductive Statement where
  | write (slot : String) (value : Expression)
  | branch (condition : Condition) (positive negative : List Statement)
  /-- Add values to the return data. -/
  | returns (values : List Expression)
  /-- Add one to the return data if the condition holds, and otherwise zero. -/
  | returnsTruth (condition : Condition)
  | emit (event : String) (data : List Expression)
  /-- Report addresses as executed. -/
  | executes (addresses : List Nat)
  | revert (message : List MessagePart)
  deriving Repr, Inhabited

/-- What a handler has done so far. -/
structure Activation where
  storage : Storage
  outcome : Outcome
  deriving Inhabited

def Expression.eval (storage : Storage) (call : HandlerCall) : Expression → Nat
  | .literal value => value
  | .slot name => storage.read name
  | .word name => storage.readWord name
  | .argument index => call.arguments[index]?.getD 0
  | .argumentCount => call.arguments.length
  | .argumentSum => call.arguments.foldr (· + ·) 0
  | .sender => call.sender
  | .add left right => left.eval storage call + right.eval storage call
  | .subtract left right => left.eval storage call - right.eval storage call
  | .remainder left right =>
      if right.eval storage call = 0 then 0
      else left.eval storage call % right.eval storage call

def Condition.eval (storage : Storage) (call : HandlerCall) : Condition → Bool
  | .less left right => left.eval storage call < right.eval storage call
  | .equal left right => left.eval storage call == right.eval storage call
  | .negation condition => !condition.eval storage call
  | .both left right => left.eval storage call && right.eval storage call
  | .through entryPoint => call.entryPoint == entryPoint

def MessagePart.eval (storage : Storage) (call : HandlerCall) : MessagePart → String
  | .text s => s
  | .value expression => Felt.toDecimal (expression.eval storage call)

namespace Activation

def eval (activation : Activation) (call : HandlerCall) (expressions : List Expression) :
    List Felt :=
  expressions.map fun expression => expression.eval activation.storage call

def appendReturn (activation : Activation) (values : List Felt) : Activation :=
  { activation with
    outcome := { activation.outcome with returnData := activation.outcome.returnData ++ values } }

def appendEvent (activation : Activation) (event : Emission) : Activation :=
  { activation with
    outcome := { activation.outcome with events := activation.outcome.events ++ [event] } }

def appendExecuted (activation : Activation) (addresses : List Nat) : Activation :=
  { activation with
    outcome := { activation.outcome with executed := activation.outcome.executed ++ addresses } }

end Activation

mutual

/-- Run one statement, or fail with the message of a revert. -/
def Statement.run (call : HandlerCall) (activation : Activation) :
    Statement → Except String Activation
  | .write slot value =>
      .ok { activation with
        storage := activation.storage.write slot (value.eval activation.storage call) }
  | .branch condition positive negative =>
      if condition.eval activation.storage call then runAll call activation positive
      else runAll call activation negative
  | .returns values => .ok (activation.appendReturn (activation.eval call values))
  | .returnsTruth condition =>
      .ok (activation.appendReturn [if condition.eval activation.storage call then 1 else 0])
  | .emit event data => .ok (activation.appendEvent ⟨event, activation.eval call data⟩)
  | .executes addresses => .ok (activation.appendExecuted addresses)
  | .revert message =>
      .error (String.join (message.map fun part => part.eval activation.storage call))

/-- Run statements up to a revert. -/
def runAll (call : HandlerCall) (activation : Activation) :
    List Statement → Except String Activation
  | [] => .ok activation
  | statement :: rest =>
      match statement.run call activation with
      | .ok activation => runAll call activation rest
      | .error message => .error message

end

/-- The handler that runs a script. -/
def scripted (body : List Statement) : Handler := fun storage call =>
  match runAll call ⟨storage, {}⟩ body with
  | .ok activation => .ok (activation.outcome, activation.storage)
  | .error message => .error message

end ContractFuzz.Sandbox
