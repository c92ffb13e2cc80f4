import ContractFuzz.Campaign.Error
import ContractFuzz.Campaign.Finding
import ContractFuzz.Campaign.Obligations
import ContractFuzz.Coverage

/-!
Oracles: what counts as a violation. A property oracle queries every live property after each
call that went through; an exception oracle looks at the calls that reverted.
-/

namespace ContractFuzz

/-- What a campaign looks for. -/
inductive OracleMode where
  | property
  | exception
  deriving DecidableEq, Repr, Inhabited

def OracleMode.label : OracleMode → String
  | .property => "property"
  | .exception => "exception"

inductive Oracle where
  /-- Queries on an instance, by a sender. -/
  | properties (target : InstanceId) (sender : Felt)
  /-- The names that precede the messages of failed assertions, in the order they are tried. -/
  | exceptions (signatures : List String)
  deriving Inhabited

namespace Oracle

/-- The query of a property. -/
def propertyQuery (target : InstanceId) (sender : Felt) (name : String) : Invocation :=
  ⟨target, name, [], sender, 0, .external, none⟩

variable {m : Type → Type} [Monad m]

/-- Query properties one after another. Only a return of exactly zero breaks a property; a query
that reverts does not. -/
def queryProperties (client : Client m) (target : InstanceId) (sender : Felt) :
    List String → Coverage → m (Except CampaignError (List Violation) × Coverage)
  | [], coverage => pure (.ok [], coverage)
  | name :: rest, coverage => do
      match ← client.query (propertyQuery target sender name) with
      | .ok frame =>
          let (result, coverage) ← queryProperties client target sender rest (coverage.after frame)
          if frame.returnData == [0] then
            return (result.map (.property name frame.sortedEvents :: ·), coverage)
          else
            return (result, coverage)
      | .error (.revert _) => queryProperties client target sender rest coverage
      | .error (.client fault) =>
          return (.error (.ofExecution (.querying name) (.client fault)), coverage)

/-- The violations in the state that a call, or a replay, has led to. -/
def inspectState (client : Client m) (live : Obligations) (coverage : Coverage) :
    Oracle → m (Except CampaignError (List Violation) × Coverage)
  | .properties target sender => queryProperties client target sender live.live coverage
  | .exceptions _ => pure (.ok [], coverage)

/-- The message of a failed assertion: what follows the first signature that the last line of the
revert starts with, and a colon and a blank. -/
def extractMessage? (signatures : List String) (r : Revert) : Option String :=
  signatures.findSome? fun signature =>
    (Text.dropFront? signature r.lastLine).bind (Text.dropFront? ": ")

/-- The violation that a revert is, if it is one. -/
def inspectRevert? (live : Obligations) (r : Revert) : Oracle → Option Violation
  | .properties .. => none
  | .exceptions signatures => do
      let message ← extractMessage? signatures r
      let template ← live.matching? message
      return .exception template message

/-- Whether violations count as the ones found before. For properties their number counts, for
exceptions the messages do. -/
def accepts (found replayed : List Violation) : Oracle → Bool
  | .properties .. => replayed.length == found.length
  | .exceptions _ =>
      let messages := found.filterMap Violation.raised?
      !messages.isEmpty && messages == replayed.filterMap Violation.raised?

end Oracle

/-- Remove the obligations that violations discharge. -/
def Obligations.discharge (o : Obligations) (violations : List Violation) : Obligations :=
  o.retireAll (violations.map Violation.obligation)

end ContractFuzz
