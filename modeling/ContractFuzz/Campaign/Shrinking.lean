import ContractFuzz.Campaign.Replay

/-!
Shrinking a violating sequence: every call is left out once, and stays out if what is left still
shows the violations.
-/

namespace ContractFuzz

/-- What decides whether a sequence shows violations: the oracle, the obligations that are live,
and the violations. -/
structure Goal where
  oracle : Oracle
  live : Obligations
  violations : List Violation
  deriving Inhabited

namespace Goal

/-- Whether a revert shows the violations. -/
def isShownBy (goal : Goal) (r : Revert) : Bool :=
  match goal.oracle.inspectRevert? goal.live r with
  | some violation => goal.oracle.accepts goal.violations [violation]
  | none => false

/-- Whether the violations in a state are the ones looked for. -/
def isMetBy (goal : Goal) (replayed : List Violation) : Bool :=
  !replayed.isEmpty && goal.oracle.accepts goal.violations replayed

end Goal

namespace Shrinking

variable {m : Type → Type} [Monad m]

/-- Whether a replay of a sequence shows the violations: by a revert, which stops the replay, or in
the state it leads to. -/
def reproduces (client : Client m) (site : Site) (goal : Goal) (sequence : List RecordedCall)
    (coverage : Coverage) : m (Except CampaignError Bool × Coverage) := do
  match ← Replay.run client site goal.isShownBy sequence with
  | .error e => return (.error e, coverage)
  | .ok replay =>
      if replay.stopped then
        return (.ok true, coverage)
      else
        let (result, coverage) ← goal.oracle.inspectState client goal.live coverage
        return (result.map goal.isMetBy, coverage)

/-- Try to leave out each of the calls `pending`, in order. The calls `kept` come before them; they
have been tried. -/
def prune (client : Client m) (site : Site) (goal : Goal) (kept : List RecordedCall) :
    List RecordedCall → Coverage → m (Except CampaignError (List RecordedCall) × Coverage)
  | [], coverage => pure (.ok kept, coverage)
  | step :: pending, coverage => do
      match ← reproduces client site goal (kept ++ pending) coverage with
      | (.error e, coverage) => return (.error e, coverage)
      | (.ok true, coverage) => prune client site goal kept pending coverage
      | (.ok false, coverage) => prune client site goal (kept ++ [step]) pending coverage

/-- A shorter sequence that shows the violations, and the obligations that are left when they are
discharged. A failure discharges nothing. -/
def shrink (client : Client m) (site : Site) (goal : Goal) (sequence : List RecordedCall)
    (coverage : Coverage) :
    m (Except CampaignError (List RecordedCall) × Obligations × Coverage) := do
  match ← prune client site goal [] sequence coverage with
  | (.error e, coverage) => return (.error e, goal.live, coverage)
  | (.ok shorter, coverage) =>
      return (.ok shorter, goal.live.discharge goal.violations, coverage)

end Shrinking

end ContractFuzz
