import ContractFuzz.Campaign.Oracle

namespace ContractFuzz

/-- The instance that a campaign calls, and the state that it starts over from. -/
structure Site where
  target : InstanceId
  baseline : StateHandle
  deriving DecidableEq, Repr, Inhabited

/-- What came of the calls that were replayed, and whether a revert stopped the replay. -/
structure Replay where
  outcomes : List (Except Revert Frame)
  stopped : Bool
  deriving Inhabited

namespace Replay

/-- The reverts of a replay, in order. -/
def reverts (replay : Replay) : List Revert :=
  replay.outcomes.filterMap fun
    | .error r => some r
    | .ok _ => none

/-- The replay with one more outcome in front. -/
def after (outcome : Except Revert Frame) (replay : Replay) : Replay :=
  { replay with outcomes := outcome :: replay.outcomes }

variable {m : Type → Type} [Monad m]

/-- Make recorded calls one after another, up to a revert that stops them. -/
def calls (client : Client m) (target : InstanceId) (stops : Revert → Bool) :
    List RecordedCall → m (Except CampaignError Replay)
  | [] => pure (.ok ⟨[], false⟩)
  | step :: rest => do
      match ← client.invoke (step.call.invocation target) with
      | .ok frame =>
          let result ← calls client target stops rest
          return result.map (after (.ok frame))
      | .error (.revert r) =>
          if stops r then
            return .ok ⟨[.error r], true⟩
          else
            let result ← calls client target stops rest
            return result.map (after (.error r))
      | .error (.client fault) =>
          return .error (.ofExecution (.replaying step.call.function) (.client fault))

/-- Go back to the baseline and make recorded calls. -/
def run (client : Client m) (site : Site) (stops : Revert → Bool) (sequence : List RecordedCall) :
    m (Except CampaignError Replay) := do
  match ← client.restore site.baseline with
  | .ok () => calls client site.target stops sequence
  | .error e => return .error (.ofExecution .restoringBaseline e)

end Replay

end ContractFuzz
