import ContractFuzz.Proofs.Campaign.FirstViolation
import ContractFuzz.Proofs.Campaign.Provenance

namespace ContractFuzz

open ContractFuzz.Sandbox
open Executor (Alike)

def Finding.unnumbered (finding : Finding) : Finding :=
  { finding with
    violations := finding.violations.map Violation.unnumbered
    sequence := finding.sequence.map RecordedCall.unnumbered }

/-- The state of a source after so many calls, or after the first one that cannot be drawn. -/
def CallGenerator.stateAfter {ρ : Type} (g : CallGenerator ρ) (functions : List Callable)
    (structs : StructTable) : Nat → ρ → ρ
  | 0, random => random
  | count + 1, random =>
      match g.call functions structs random with
      | (.error _, next) => next
      | (.ok _, next) => g.stateAfter functions structs count next

namespace Campaign

variable {ρ : Type} {program : Program} {campaign : Campaign ρ} {executor last : Executor}

def stateAfter (campaign : Campaign ρ) (count : Nat) (random : ρ) : ρ :=
  campaign.generator.stateAfter campaign.schema.functions campaign.schema.structs count random

theorem stateAfter_of_ok {count : Nat} {random next : ρ} {call : Call}
    (h : campaign.generator.call campaign.schema.functions campaign.schema.structs random =
      (.ok call, next)) :
    campaign.stateAfter (count + 1) random = campaign.stateAfter count next := by
  rw [stateAfter, CallGenerator.stateAfter, h]
  rfl

end Campaign

namespace Sandbox.Host

variable {host : Host} {oracle : Oracle} {live : Obligations}

/-- How many of some turns there are up to the first that shows violations. It is one more than
there are turns if none does, since the next turn may be one for which no call can be drawn. -/
def attempts (host : Host) (oracle : Oracle) (live : Obligations) : List Turn → Nat
  | [] => 1
  | turn :: later =>
      if host.shown oracle live turn = [] then attempts host oracle live later + 1 else 1

theorem attempts_quiet {turn : Turn} {later : List Turn} (h : host.shown oracle live turn = []) :
    host.attempts oracle live (turn :: later) = host.attempts oracle live later + 1 := by
  rw [attempts, if_pos h]

theorem attempts_shown {turn : Turn} {later : List Turn} (h : host.shown oracle live turn ≠ []) :
    host.attempts oracle live (turn :: later) = 1 := by
  rw [attempts, if_neg h]

end Sandbox.Host

namespace Campaign

variable {ρ : Type} {program : Program} {campaign : Campaign ρ} {executor last : Executor}

theorem shown_of_inspectState {oracle : Oracle} {live : Obligations} {coverage covered : Coverage}
    {target : InstanceId} {call : Call} {frame : Frame} {next : Executor}
    {violations : List Violation}
    (answer : program.client.invoke (call.invocation target) executor = (.ok frame, next))
    (inspected : oracle.inspectState program.client live coverage next =
      ((.ok violations, covered), last)) :
    last.storage = next.storage ∧ Alike last executor ∧ ∃ outcome,
      (executor.host program).respond (call.invocation target) executor.storage =
        .ok (outcome, next.storage) ∧
      (executor.host program).shown oracle live ⟨call, .ok outcome, next.storage⟩ =
        violations.map Violation.unnumbered := by
  obtain ⟨halike, outcome, hrespond, -⟩ := Executor.respond_of_invoke_ok answer
  obtain ⟨found, reached, ended, hinspect, hfound, hstorage, hqueried⟩ :=
    Executor.inspectState_found program oracle live coverage next
  rw [inspected] at hinspect
  cases hinspect
  rw [halike.host_eq] at hfound
  exact ⟨hstorage, hqueried.trans halike, outcome, hrespond, hfound.symm⟩

theorem Makes.random {count : Nat} {made : List RecordedCall} {progress after : Progress ρ}
    {found : Option Detection}
    {result : Except CampaignError (Option Detection)}
    (run : Makes campaign program.client count made progress executor result after last)
    (hresult : result = .ok found) :
    after.random = campaign.stateAfter
      (min count ((executor.host program).attempts campaign.oracle progress.live
        ((executor.host program).turns campaign.site.target executor.storage
          (campaign.draws count progress.random).calls))) progress.random := by
  induction run with
  | done => rw [Nat.zero_min]; rfl
  | ungenerated | fails | uninspected => cases hresult
  | @raises _ _ progress executor call _ r _ violation generated answer inspected =>
      obtain ⟨-, -, r, hr, hrespond⟩ := Executor.respond_of_invoke_error answer
      cases hr
      have hshown : (executor.host program).shown campaign.oracle progress.live
          ⟨call, .error r, executor.storage⟩ ≠ [] := by
        simp [Host.shown, inspected]
      rw [draws_of_ok generated, Host.turns_of_error hrespond, Host.attempts_shown hshown,
        Nat.min_eq_right (Nat.le_add_left 1 _), stateAfter_of_ok generated]
      rfl
  | @reverts _ _ progress executor call _ r _ _ _ _ generated answer inspected _ ih =>
      obtain ⟨halike, hstorage, r, hr, hrespond⟩ := Executor.respond_of_invoke_error answer
      cases hr
      have hquiet : (executor.host program).shown campaign.oracle progress.live
          ⟨call, .error r, executor.storage⟩ = [] := congrArg Option.toList inspected
      have hlater := ih hresult
      rw [halike.host_eq, hstorage] at hlater
      rw [draws_of_ok generated, Host.turns_of_error hrespond, Host.attempts_quiet hquiet,
        Nat.succ_min_succ, stateAfter_of_ok generated]
      exact hlater
  | passes generated answer inspected _ ih =>
      obtain ⟨hstorage, halike, outcome, hrespond, hquiet⟩ := shown_of_inspectState answer inspected
      have hlater := ih hresult
      rw [halike.host_eq, hstorage] at hlater
      rw [draws_of_ok generated, Host.turns_of_ok hrespond, Host.attempts_quiet hquiet,
        Nat.succ_min_succ, stateAfter_of_ok generated]
      exact hlater
  | @violates _ _ progress executor call _ _ next _ _ _ _ generated answer inspected =>
      obtain ⟨-, -, outcome, hrespond, hshown⟩ := shown_of_inspectState answer inspected
      have hfound : (executor.host program).shown campaign.oracle progress.live
          ⟨call, .ok outcome, next.storage⟩ ≠ [] := by
        rw [hshown]
        exact List.cons_ne_nil _ _
      rw [draws_of_ok generated, Host.turns_of_ok hrespond, Host.attempts_shown hfound,
        Nat.min_eq_right (Nat.le_add_left 1 _), stateAfter_of_ok generated]
      rfl

theorem Iterates.restored {progress after : Progress ρ} {found : Option Detection}
    (run : Iterates campaign program.client progress executor (.ok found) after last) :
    ∃ baseline, executor.snapshots[campaign.site.baseline.id]? = some baseline := by
  cases hbaseline : executor.snapshots[campaign.site.baseline.id]? with
  | some baseline => exact ⟨baseline, rfl⟩
  | none =>
      have hrestore := Executor.restore_of_none program hbaseline
      cases run with
      | passes answer | detects answer =>
          rw [hrestore] at answer
          cases answer

theorem Iterates.random {progress after : Progress ρ} {found : Option Detection}
    {baseline : Storage}
    (run : Iterates campaign program.client progress executor (.ok found) after last)
    (hbaseline : executor.snapshots[campaign.site.baseline.id]? = some baseline) :
    after.random = campaign.stateAfter
      (min campaign.sequenceLength
        ((executor.host program).attempts campaign.oracle progress.live
          ((executor.host program).turns campaign.site.target baseline
            (campaign.draws campaign.sequenceLength progress.random).calls))) progress.random := by
  obtain ⟨next, hrestore, hstorage, halike⟩ := Executor.restore_of_some program hbaseline
  cases run with
  | passes answer made | detects answer made =>
      rw [answer] at hrestore
      cases hrestore
      have hrandom := (makes made).random rfl
      rw [halike.host_eq, hstorage] at hrandom
      exact hrandom

end Campaign

theorem Violation.raised?_unnumbered (violation : Violation) :
    violation.unnumbered.raised? = violation.raised? := by
  cases violation <;> rfl

theorem Oracle.accepts_unnumbered (oracle : Oracle) (found replayed : List Violation) :
    oracle.accepts (found.map Violation.unnumbered) replayed = oracle.accepts found replayed := by
  cases oracle with
  | properties target sender => simp only [accepts, List.length_map]
  | exceptions signatures =>
      have hraised : (found.map Violation.unnumbered).filterMap Violation.raised? =
          found.filterMap Violation.raised? := by
        rw [List.filterMap_map]
        exact List.filterMap_congr fun violation _ => violation.raised?_unnumbered
      simp only [accepts, hraised]

theorem Goal.isShownBy_unnumbered (oracle : Oracle) (live : Obligations) (found : List Violation) :
    (Goal.mk oracle live (found.map Violation.unnumbered)).isShownBy =
      (Goal.mk oracle live found).isShownBy := by
  funext r
  simp only [isShownBy, Oracle.accepts_unnumbered]

namespace Sandbox.Host

theorem replay_unnumbered (host : Host) (target : InstanceId) (stops : Revert → Bool)
    (storage : Storage) (sequence : List RecordedCall) :
    host.replay target stops storage (sequence.map RecordedCall.unnumbered) =
      host.replay target stops storage sequence := by
  induction sequence generalizing storage with
  | nil => rfl
  | cons step rest ih => simp only [List.map_cons, replay, RecordedCall.unnumbered, ih]

theorem shows_unnumbered (host : Host) (target : InstanceId) (oracle : Oracle) (live : Obligations)
    (found : List Violation) (baseline : Storage) (sequence : List RecordedCall) :
    host.shows target ⟨oracle, live, found.map Violation.unnumbered⟩ baseline
        (sequence.map RecordedCall.unnumbered) =
      host.shows target ⟨oracle, live, found⟩ baseline sequence := by
  simp only [shows, Goal.isShownBy_unnumbered, replay_unnumbered, meets, List.length_map]

end Sandbox.Host

theorem Shrinking.pruned_unnumbered {shows trial : List RecordedCall → Bool}
    (h : ∀ sequence, trial (sequence.map RecordedCall.unnumbered) = shows sequence)
    (kept pending : List RecordedCall) :
    pruned trial (kept.map RecordedCall.unnumbered) (pending.map RecordedCall.unnumbered) =
      (pruned shows kept pending).map RecordedCall.unnumbered := by
  induction pending generalizing kept with
  | nil => rfl
  | cons step pending ih =>
      have hkept := ih (kept ++ [step])
      rw [List.map_append, List.map_singleton] at hkept
      rw [List.map_cons, pruned, pruned, ← List.map_append, h, ih, hkept]
      split <;> rfl

namespace Campaign

variable {ρ : Type} {program : Program} {campaign : Campaign ρ} {executor last : Executor}

/-- The turns of an iteration from a baseline, if none of them ended it. -/
def turns (campaign : Campaign ρ) (host : Host) (baseline : Storage) (random : ρ) : List Turn :=
  host.turns campaign.site.target baseline (campaign.draws campaign.sequenceLength random).calls

/-- What an iteration detects. -/
def detection? (campaign : Campaign ρ) (host : Host) (baseline : Storage) (live : Obligations)
    (random : ρ) : Option Detection :=
  host.detects? campaign.oracle live [] (campaign.turns host baseline random)

/-- The finding that a detection is reported as. -/
def finding (campaign : Campaign ρ) (host : Host) (baseline : Storage) (live : Obligations)
    (iteration : Nat) (detection : Detection) : Finding where
  iteration := iteration
  violations := detection.violations
  sequence :=
    if campaign.shrinks then
      Shrinking.pruned (host.shows campaign.site.target
        ⟨campaign.oracle, live, detection.violations⟩ baseline) [] detection.sequence
    else detection.sequence
  foundLength := detection.sequence.length
  shrunk := campaign.shrinks

theorem unnumbered_finding (host : Host) (baseline : Storage) (live : Obligations)
    (iteration : Nat) (detection : Detection) :
    (campaign.finding host baseline live iteration detection).unnumbered =
      campaign.finding host baseline live iteration detection.unnumbered := by
  have hpruned := Shrinking.pruned_unnumbered
    (host.shows_unnumbered campaign.site.target campaign.oracle live detection.violations baseline)
    [] detection.sequence
  simp only [finding, Finding.unnumbered, Detection.unnumbered, List.length_map]
  split
  · exact congrArg (Finding.mk _ _ · _ _) hpruned.symm
  · rfl

/-- How an iteration takes a campaign on, but for its coverage, its log and the numbers of events. -/
structure State.Moves (campaign : Campaign ρ) (host : Host) (baseline : Storage)
    (state next : State ρ) : Prop where
  iteration : next.iteration = state.iteration + 1
  findings : next.findings.map Finding.unnumbered = state.findings.map Finding.unnumbered ++
    ((campaign.detection? host baseline state.progress.live state.progress.random).map
      (campaign.finding host baseline state.progress.live (state.iteration + 1))).toList
  live : next.progress.live = state.progress.live.discharge
    ((campaign.detection? host baseline state.progress.live state.progress.random).elim []
      Detection.violations)
  random : next.progress.random = campaign.stateAfter (min campaign.sequenceLength
    (host.attempts campaign.oracle state.progress.live
      (campaign.turns host baseline state.progress.random))) state.progress.random

theorem eq_of_verdict {failure : Option Calldata.GenerationError} {detected found : Option Detection}
    (h : verdict failure detected = .ok found) : detected = found := by
  rcases detected with _ | detection
  · rcases failure with _ | e
    · exact Except.ok.inj h
    · cases h
  · exact Except.ok.inj h

theorem detection?_of_iterate {progress after : Progress ρ} {found : Option Detection}
    {baseline : Storage}
    (h : campaign.iterate program.client progress executor = ((.ok found, after), last))
    (hbaseline : executor.snapshots[campaign.site.baseline.id]? = some baseline) :
    campaign.detection? (executor.host program) baseline progress.live progress.random =
      found.map Detection.unnumbered := by
  have hverdict : (campaign.iterate program.client progress executor).1.1.map
      (Option.map Detection.unnumbered) = _ := iterate_detects hbaseline progress
  rw [h] at hverdict
  exact eq_of_verdict hverdict.symm

theorem discharge_unnumbered (live : Obligations) (violations : List Violation) :
    live.discharge (violations.map Violation.unnumbered) = live.discharge violations := by
  rw [Obligations.discharge, Violation.map_obligation_unnumbered, Obligations.discharge]

theorem settle_finding {detection : Detection} {progress after : Progress ρ}
    {sequence : List RecordedCall} {baseline : Storage} (iteration : Nat)
    (h : campaign.settle program.client detection progress executor =
      ((.ok sequence, after), last))
    (hbaseline : executor.snapshots[campaign.site.baseline.id]? = some baseline) :
    sequence = (campaign.finding (executor.host program) baseline progress.live iteration
      detection).sequence ∧ after.random = progress.random := by
  rw [finding]
  by_cases hshrinks : campaign.shrinks = true
  · obtain ⟨covered, ended, hsettle, -, -⟩ :=
      settle_shrinking program hshrinks detection progress hbaseline
    rw [h] at hsettle
    cases hsettle
    exact ⟨(if_pos hshrinks).symm, rfl⟩
  · rw [settle, if_neg hshrinks] at h
    cases h
    exact ⟨(if_neg hshrinks).symm, rfl⟩

/-- In process, what an iteration does is decided by its baseline, by what is live and by the
random source. -/
theorem Steps.moves {state next : State ρ}
    (run : Steps campaign program.client state executor (.ok ()) next last) :
    Alike last executor ∧ ∃ baseline,
      executor.snapshots[campaign.site.baseline.id]? = some baseline ∧
      state.Moves campaign (executor.host program) baseline next := by
  refine ⟨run.arises.1, ?_⟩
  cases run with
  | passes iterated =>
      obtain ⟨baseline, hbaseline⟩ := (iterates iterated).restored
      have hdetection := detection?_of_iterate iterated hbaseline
      refine ⟨baseline, hbaseline, rfl, ?_, ?_, (iterates iterated).random hbaseline⟩
      · rw [hdetection]
        exact (List.append_nil _).symm
      · rw [hdetection]
        exact (iterates iterated).live_of_none
  | @finds detection found middle sequence progress _ iterated settled finding hfinding =>
      obtain ⟨baseline, hbaseline⟩ := (iterates iterated).restored
      have hdetection := detection?_of_iterate iterated hbaseline
      have halike := (iterates iterated).alike
      have hsaved := hbaseline
      rw [← halike.snapshots] at hsaved
      obtain ⟨hsequence, hsettled⟩ := settle_finding (state.iteration + 1) settled hsaved
      -- A campaign that does not shrink has discharged the violations before it settles the
      -- detection, but then it makes no trials.
      have hreported : finding = campaign.finding (executor.host program) baseline
          state.progress.live (state.iteration + 1) detection := by
        rw [hfinding, hsequence, halike.host_eq]
        by_cases hshrinks : campaign.shrinks = true
        · have hlive := (iterates iterated).breaks.2
          rw [if_pos hshrinks] at hlive
          rw [hlive]
          rfl
        · simp only [Campaign.finding, if_neg hshrinks]
      refine ⟨baseline, hbaseline, rfl, ?_, ?_, ?_⟩
      · rw [hdetection, List.map_append, List.map_singleton, hreported, unnumbered_finding]
        rfl
      · rw [hdetection]
        exact (live_of_settled iterated settled).trans (discharge_unnumbered _ _).symm
      · exact hsettled.trans ((iterates iterated).random hbaseline)

end Campaign

end ContractFuzz
