import ContractFuzz.Campaign.CallGenerator
import ContractFuzz.Campaign.Replay

namespace ContractFuzz

/-- What stays the same over a campaign. -/
structure Campaign (ρ : Type) where
  site : Site
  schema : Schema
  oracle : Oracle
  generator : CallGenerator ρ
  sequenceLength : Nat
  /-- Shorten violating sequences before they are reported. -/
  shrinks : Bool

/-- What changes from call to call. -/
structure Progress (ρ : Type) where
  random : ρ
  live : Obligations
  coverage : Coverage

/-- A violating sequence as it was found. -/
structure Detection where
  sequence : List RecordedCall
  violations : List Violation
  deriving DecidableEq, Repr, Inhabited

namespace Campaign

variable {m : Type → Type} [Monad m] {ρ : Type}

/-- Make up to so many random calls after the calls `made`, of which the last comes first. Reverted
calls are left out, unless the revert itself is a violation. -/
def makeCalls (campaign : Campaign ρ) (client : Client m) :
    Nat → List RecordedCall → Progress ρ →
      m (Except CampaignError (Option Detection) × Progress ρ)
  | 0, _, progress => pure (.ok none, progress)
  | count + 1, made, progress =>
      match campaign.generator.call campaign.schema.functions campaign.schema.structs
          progress.random with
      | (.error e, random) => pure (.error (.ofGeneration e), { progress with random })
      | (.ok call, random) => do
          let progress := { progress with random }
          match ← client.invoke (call.invocation campaign.site.target) with
          | .ok frame =>
              let made := ⟨call, frame.sortedEvents⟩ :: made
              match ← campaign.oracle.inspectState client progress.live
                  (progress.coverage.after frame) with
              | (.error e, coverage) => return (.error e, { progress with coverage })
              | (.ok [], coverage) =>
                  makeCalls campaign client count made { progress with coverage }
              | (.ok violations, coverage) =>
                  return (.ok (some ⟨made.reverse, violations⟩), { progress with coverage })
          | .error (.revert r) =>
              match campaign.oracle.inspectRevert? progress.live r with
              | some violation =>
                  return (.ok (some ⟨(⟨call, []⟩ :: made).reverse, [violation]⟩), progress)
              | none => makeCalls campaign client count made progress
          | .error (.client fault) =>
              return (.error (.ofExecution (.invoking call.function) (.client fault)), progress)

/-- Go back to the baseline and make random calls. A campaign that does not shrink discharges the
obligations of what it finds at once. -/
def iterate (campaign : Campaign ρ) (client : Client m) (progress : Progress ρ) :
    m (Except CampaignError (Option Detection) × Progress ρ) := do
  match ← client.restore campaign.site.baseline with
  | .error e => return (.error (.ofExecution .restoringBaseline e), progress)
  | .ok () =>
      match ← campaign.makeCalls client campaign.sequenceLength [] progress with
      | (.ok (some detection), progress) =>
          if campaign.shrinks then
            return (.ok (some detection), progress)
          else
            return (.ok (some detection),
              { progress with live := progress.live.discharge detection.violations })
      | other => return other

end Campaign

end ContractFuzz
