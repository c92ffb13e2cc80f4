import ContractFuzz.Campaign.Iteration
import ContractFuzz.Campaign.Report
import ContractFuzz.Campaign.Shrinking
import ContractFuzz.Deployment

namespace ContractFuzz

namespace Campaign

/-- A campaign under way. -/
structure State (ρ : Type) where
  /-- How many iterations have been started. -/
  iteration : Nat
  /-- The findings, in the order they were made. -/
  findings : List Finding
  progress : Progress ρ
  log : Log

variable {m : Type → Type} [Monad m] {ρ : Type}

/-- The sequence to report for a detection. -/
def settle (campaign : Campaign ρ) (client : Client m) (detection : Detection)
    (progress : Progress ρ) : m (Except CampaignError (List RecordedCall) × Progress ρ) := do
  if campaign.shrinks then
    let goal : Goal := ⟨campaign.oracle, progress.live, detection.violations⟩
    let (result, live, coverage) ← Shrinking.shrink client campaign.site goal detection.sequence
      progress.coverage
    return (result.mapError (.during .shrinking), { progress with live, coverage })
  else
    return (.ok detection.sequence, progress)

/-- Run one iteration and report what it finds. -/
def step (campaign : Campaign ρ) (client : Client m) (state : State ρ) :
    m (Except CampaignError Unit × State ρ) := do
  let iteration := state.iteration + 1
  match ← campaign.iterate client state.progress with
  | (.error e, progress) =>
      return (.error (e.during (.iterating iteration)), { state with iteration, progress })
  | (.ok none, progress) => return (.ok (), { state with iteration, progress })
  | (.ok (some detection), progress) =>
      match ← campaign.settle client detection progress with
      | (.error e, progress) => return (.error e, { state with iteration, progress })
      | (.ok sequence, progress) =>
          let finding : Finding := ⟨iteration, detection.violations, sequence,
            detection.sequence.length, campaign.shrinks⟩
          return (.ok (), ⟨iteration, state.findings ++ [finding], progress,
            state.log ++ finding.log campaign.schema⟩)

/-- The largest iteration number. -/
def lastIteration : Nat := 1 <<< 64 - 1

/-- The end of a campaign, with a last record for its log. -/
def close (observe : Log → m Unit) (state : State ρ) (message : String) :
    m (Except CampaignError Unit × State ρ) := do
  observe [Log.info message]
  return (.ok (), { state with log := state.log ++ [Log.info message] })

/-- Run iterations until no obligation is live or `budget` of them have been run. Only a limited
campaign may end on its budget. Whoever observes the campaign is told of new records as soon as
they are made. -/
def loop (campaign : Campaign ρ) (client : Client m) (observe : Log → m Unit) (limited : Bool) :
    Nat → State ρ → m (Except CampaignError Unit × State ρ)
  | 0, state =>
      if state.progress.live.isEmpty then
        close observe state "All properties have been violated"
      else if limited then
        close observe state "iteration limit reached"
      else
        pure (.error ⟨[], .iterationsExhausted⟩, state)
  | budget + 1, state =>
      if state.progress.live.isEmpty then
        close observe state "All properties have been violated"
      else do
        let (result, next) ← campaign.step client state
        observe (next.log.drop state.log.length)
        match result with
        | .error e => return (.error e, next)
        | .ok () => loop campaign client observe limited budget next

end Campaign

namespace Config

/-- The names that a campaign looks for. -/
def obligations (config : Config) (deployment : Deployment) : Obligations :=
  match config.mode with
  | .property => .ofList deployment.schema.propertyNames
  | .exception => .ofList (deployment.diagnostics.map Diagnostic.messageTemplate)

def oracle (config : Config) (deployment : Deployment) : Oracle :=
  match config.mode with
  | .property => .properties deployment.target config.propertySender
  | .exception =>
      .exceptions (SortedSet.ofList (deployment.diagnostics.map Diagnostic.signature)).toList

/-- The generator of calls. -/
def callGenerator (config : Config) :
    Except Calldata.GenerationError (CallGenerator Random.Stream) :=
  match Calldata.Generator.make config.modulus config.maxArrayLength with
  | .ok values =>
      CallGenerator.make Random.Stream.source values config.senders config.nonceRange
  | .error e => .error e

def iterationBudget (config : Config) : Nat := config.maxIterations.getD Campaign.lastIteration

end Config

/-- What came of a campaign. -/
structure RunOutcome where
  result : Except CampaignError Report
  coverage : Coverage
  log : Log

namespace Campaign

/-- The warning that a campaign starts with when there is nothing to look for. -/
def openingLog (live : Obligations) : Log :=
  if live.isEmpty then [Log.warn "nothing to check, no obligations found"] else []

/-- The campaign that settings ask for, and its state before the first iteration. -/
def prepare (config : Config) (deployment : Deployment) (coverage : Coverage) :
    Except CampaignError (Campaign Random.Stream × State Random.Stream) × Log :=
  if config.sequenceLength = 0 then (.error ⟨[], .emptySequences⟩, [])
  else
    let live := config.obligations deployment
    let log := openingLog live
    match config.callGenerator with
    | .error e => (.error (.ofGeneration e), log)
    | .ok generator =>
        (.ok (⟨deployment.site, deployment.schema, config.oracle deployment, generator,
            config.sequenceLength, config.shrink⟩,
          ⟨0, [], ⟨.ofSeed config.seed, live, coverage⟩, log⟩), log)

/-- The report of a campaign that has ended. A caller with a clock fills in the time. -/
def report (config : Config) (deployment : Deployment) (targetName : String)
    (state : State Random.Stream) : Report where
  target := targetName
  mode := config.mode
  seed := config.seed
  iterations := state.iteration
  elapsedMs := 0
  obligations := (config.obligations deployment).live
  remaining := state.progress.live.live
  findings := state.findings
  coveredInstructions := state.progress.coverage.total

variable {m : Type → Type} [Monad m]

/-- Run a campaign against a deployment, telling an observer of every record in its log. -/
def runObserved (client : Client m) (observe : Log → m Unit) (config : Config)
    (deployment : Deployment) (targetName : String) (coverage : Coverage) : m RunOutcome := do
  let (prepared, log) := prepare config deployment coverage
  observe log
  match prepared with
  | .error e => return ⟨.error e, coverage, log⟩
  | .ok (campaign, state) =>
      let (result, state) ← campaign.loop client observe config.maxIterations.isSome
        config.iterationBudget state
      return ⟨result.map fun () => report config deployment targetName state,
        state.progress.coverage, state.log⟩

/-- Run a campaign against a deployment. -/
def run (client : Client m) (config : Config) (deployment : Deployment) (targetName : String)
    (coverage : Coverage) : m RunOutcome :=
  runObserved client (fun _ => pure ()) config deployment targetName coverage

end Campaign

end ContractFuzz
