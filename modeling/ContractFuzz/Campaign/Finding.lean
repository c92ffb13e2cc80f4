import ContractFuzz.Execution.Client
import ContractFuzz.Schema

namespace ContractFuzz

/-- A call to make. -/
structure Call where
  sender : Felt
  function : String
  arguments : List Felt
  entryPoint : EntryPoint
  nonce : Option Felt
  deriving DecidableEq, Repr, Inhabited

/-- The request that makes a call on an instance. -/
def Call.invocation (call : Call) (target : InstanceId) : Invocation :=
  ⟨target, call.function, call.arguments, call.sender, 0, call.entryPoint, call.nonce⟩

/-- A call that was made, with the events it emitted; a call that reverted has none. -/
structure RecordedCall where
  call : Call
  events : List Event
  deriving DecidableEq, Repr, Inhabited

/-- A broken obligation. -/
inductive Violation where
  /-- A property that returned zero, with the events of its query. -/
  | property (name : String) (events : List Event)
  /-- An assertion that failed: the template it matched and its whole message. -/
  | exception (template message : String)
  deriving DecidableEq, Repr, Inhabited

namespace Violation

/-- The obligation that a violation discharges. -/
def obligation : Violation → String
  | .property name _ => name
  | .exception template _ => template

/-- The message of a failed assertion. -/
def raised? : Violation → Option String
  | .property .. => none
  | .exception _ message => some message

end Violation

structure Finding where
  /-- The iteration that found it, counted from one. -/
  iteration : Nat
  violations : List Violation
  sequence : List RecordedCall
  /-- The length of the sequence when it was found. -/
  foundLength : Nat
  shrunk : Bool
  deriving DecidableEq, Repr, Inhabited

/-- The name of an event, by its first key, and its data. -/
def Event.describe (schema : Schema) (event : Event) : String :=
  let name := match event.keys with
    | selector :: _ => (schema.eventName? selector).getD selector.toHex
    | [] => "<anonymous>"
  name ++ Felt.formatList event.data

namespace Violation

def lines (schema : Schema) : Violation → List String
  | .property name events =>
      s!"[!] {name} violated" :: events.map fun event => "\tE " ++ event.describe schema
  | .exception _ message => [s!"[!] {message} violated"]

end Violation

namespace RecordedCall

def lines (schema : Schema) (step : RecordedCall) : List String :=
  let arguments := Felt.formatList step.call.arguments
  let sender := step.call.sender.toDecimal
  s!"\t{step.call.function}{arguments} from {sender}" ::
    step.events.map fun event => "\t E " ++ event.describe schema

end RecordedCall

namespace Finding

/-- The lines that show a finding. -/
def render (schema : Schema) (finding : Finding) : List String :=
  finding.violations.flatMap (fun violation => violation.lines schema ++ ["Call sequence:"]) ++
    finding.sequence.flatMap (RecordedCall.lines schema)

def log (schema : Schema) (finding : Finding) : Log := (finding.render schema).map Log.info

end Finding

end ContractFuzz
