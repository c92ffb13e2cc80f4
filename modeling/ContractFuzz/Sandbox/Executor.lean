import ContractFuzz.Abi.Selector
import ContractFuzz.Execution.Client
import ContractFuzz.Sandbox.Program

/-!
Running a program in process. A failing call leaves the storage as it was, a query always does, and
event numbers only ever go up, whatever is restored.
-/

namespace ContractFuzz.Sandbox

/-- How many requests have been served. Requests to an address where nothing is deployed are not
counted. -/
structure Stats where
  invocations : Nat := 0
  queries : Nat := 0
  reverts : Nat := 0
  restores : Nat := 0
  invocationsOf : SortedMap String Nat := .empty
  deriving Inhabited

structure Executor where
  storage : Storage := .empty
  /-- The saved states, the oldest first. A handle is an index. -/
  snapshots : List Storage := []
  deployed : Option InstanceId := none
  /-- How many classes have been declared. -/
  declared : Nat := 0
  stats : Stats := {}
  /-- The number of the next event. -/
  nextEvent : Nat := 0
  deriving Inhabited

/-- The address at which programs are deployed. -/
def targetAddress : InstanceId := 0x1000

/-- The class of the deployed program. Declared programs get the hashes after it. -/
def targetClass : ClassHash := 0xc1a55

/-- Give numbers to events. -/
def numberEvents : Nat → List Emission → List Event
  | _, [] => []
  | order, e :: rest => ⟨order, [Abi.selectorOf e.name], e.data⟩ :: numberEvents (order + 1) rest

namespace Executor

def countRevert (executor : Executor) : Executor :=
  { executor with stats := { executor.stats with reverts := executor.stats.reverts + 1 } }

/-- Count an invocation of a function. -/
def countInvocation (executor : Executor) (function : String) : Executor :=
  { executor with
    stats := { executor.stats with
      invocations := executor.stats.invocations + 1
      invocationsOf := executor.stats.invocationsOf.alter function fun n => n.getD 0 + 1 } }

def countQuery (executor : Executor) : Executor :=
  { executor with stats := { executor.stats with queries := executor.stats.queries + 1 } }

/-- The handler of a function on a storage, or the message with which the call reverts. -/
def compute (program : Program) (storage : Storage) (call : HandlerCall) :
    Except String (Outcome × Storage) :=
  match program.handler? call.function with
  | some handler => handler storage call
  | none => .error s!"Entry point {call.function} not found in contract."

/-- The frame of a call that went through. -/
def frame (program : Program) (target : InstanceId) (call : HandlerCall) (outcome : Outcome)
    (firstEvent : Nat) : Frame where
  contractAddress := target
  classHash := some targetClass
  entryPoint := call.entryPoint
  returnData := outcome.returnData
  events := numberEvents firstEvent outcome.events
  executed := (SortedSet.ofList outcome.executed).insert (program.entryAddress call.function)
  calls := []

/-- Run a handler. The storage changes only if the call commits. -/
def run (program : Program) (target : InstanceId) (call : HandlerCall) (commits : Bool)
    (executor : Executor) : Except ExecutionError Frame × Executor :=
  match compute program executor.storage call with
  | .error message => (.error (.revert ⟨message⟩), executor.countRevert)
  | .ok (outcome, storage) =>
      (.ok (frame program target call outcome executor.nextEvent),
        { executor with
          storage := if commits then storage else executor.storage
          nextEvent := executor.nextEvent + outcome.events.length })

/-- The revert of a call to an address where nothing is deployed. -/
def notDeployed (target : InstanceId) : ExecutionError :=
  .revert ⟨s!"Requested contract address {target.toHex} is not deployed."⟩

/-- What the handler of a requested call sees. -/
def handlerCall (invocation : Invocation) : HandlerCall :=
  ⟨invocation.function, invocation.arguments, invocation.sender, invocation.entryPoint⟩

def invoke (program : Program) (invocation : Invocation) (executor : Executor) :
    Except ExecutionError Frame × Executor :=
  if executor.deployed = some invocation.target then
    run program invocation.target (handlerCall invocation) true
      (executor.countInvocation invocation.function)
  else (.error (notDeployed invocation.target), executor)

def query (program : Program) (invocation : Invocation) (executor : Executor) :
    Except ExecutionError Frame × Executor :=
  if executor.deployed = some invocation.target then
    run program invocation.target (handlerCall invocation) false executor.countQuery
  else (.error (notDeployed invocation.target), executor)

/-- The frame of a deployment without a constructor. -/
def emptyConstructorFrame : Frame where
  contractAddress := targetAddress
  classHash := some targetClass
  entryPoint := .constructor
  returnData := []
  events := []
  executed := .empty
  calls := []

def constructorCall (arguments : List Felt) : HandlerCall :=
  ⟨Declaration.constructorName, arguments, 0, .constructor⟩

/-- Run the constructor, if there is one. -/
def construct (program : Program) (arguments : List Felt) (executor : Executor) :
    Except ExecutionError Frame × Executor :=
  if (program.handler? Declaration.constructorName).isSome then
    run program targetAddress (constructorCall arguments) true executor
  else (.ok emptyConstructorFrame, executor)

/-- Deploy the program. Nothing is deployed by a constructor that fails. -/
def deploy (program : Program) (arguments : List Felt) (executor : Executor) :
    Except ExecutionError Frame × Executor :=
  match construct program arguments executor with
  | (.ok frame, executor) => (.ok frame, { executor with deployed := some targetAddress })
  | (.error e, executor) => (.error e, executor)

def declare (executor : Executor) : ClassHash × Executor :=
  (targetClass + 1 + executor.declared, { executor with declared := executor.declared + 1 })

def snapshot (executor : Executor) : StateHandle × Executor :=
  (⟨executor.snapshots.length⟩,
    { executor with snapshots := executor.snapshots ++ [executor.storage] })

def restore (handle : StateHandle) (executor : Executor) :
    Except ExecutionError Unit × Executor :=
  match executor.snapshots[handle.id]? with
  | some storage =>
      (.ok (), { executor with
        storage
        stats := { executor.stats with restores := executor.stats.restores + 1 } })
  | none => (.error (.client (.unknownHandle handle.id)), executor)

end Executor

/-- The client that runs a program in process. Whatever artifact it is given, it deploys the
program. -/
def Program.client (program : Program) : Client (StateM Executor) where
  deploy _ arguments := Executor.deploy program arguments
  declare _ := fun executor =>
    let (classHash, executor) := executor.declare
    (.ok classHash, executor)
  invoke := Executor.invoke program
  query := Executor.query program
  snapshot := fun executor =>
    let (handle, executor) := executor.snapshot
    (.ok handle, executor)
  restore := Executor.restore

end ContractFuzz.Sandbox
