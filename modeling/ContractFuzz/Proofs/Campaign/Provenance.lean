import ContractFuzz.Proofs.Campaign.Accounting
import ContractFuzz.Proofs.Campaign.Growth
import ContractFuzz.Proofs.Campaign.Recurrence
import ContractFuzz.Proofs.Campaign.Shrinking
import ContractFuzz.Proofs.Sandbox.Twins

/-!
Where findings come from: for each of them, calls were made from the baseline that led to its
violations, and they were recorded as they went. Of these the finding reports what shrinking keeps.
-/

namespace ContractFuzz

open ContractFuzz.Sandbox
open Coverage (Within)
open Executor (Alike)

/-- Calls that have recorded the events they emit when they are made from a storage. A call that
reverts has recorded none. -/
inductive Sandbox.Host.Records (host : Host) (target : InstanceId) :
    Storage → List RecordedCall → Prop
  | done {storage} : Records host target storage []
  | goes {storage step outcome next rest}
      (response : host.respond (step.call.invocation target) storage = .ok (outcome, next))
      (events : step.events.map Event.unnumbered = outcome.events.map Emission.event)
      (more : Records host target next rest) : Records host target storage (step :: rest)
  | reverts {storage step r rest}
      (response : host.respond (step.call.invocation target) storage = .error r)
      (silent : step.events = [])
      (more : Records host target storage rest) : Records host target storage (step :: rest)

/-- The events that a call has recorded are those of its frame, but for their numbers. -/
inductive RecordedCall.Agrees : RecordedCall → Except Revert Frame → Prop
  | goes {step frame}
      (events : step.events.map Event.unnumbered = frame.sortedEvents.map Event.unnumbered) :
      Agrees step (.ok frame)
  | reverts {step r} (silent : step.events = []) : Agrees step (.error r)

/-- Recorded calls can be made again from the baseline, and all of them emit what they have
recorded. -/
def Replay.Confirms {σ : Type} (client : Client (StateM σ)) (site : Site)
    (sequence : List RecordedCall) (world : σ) : Prop :=
  ∃ replay ended, Replay.run client site (fun _ => false) sequence world = (.ok replay, ended) ∧
    List.Forall₂ RecordedCall.Agrees sequence replay.outcomes

namespace Sandbox.Host.Records

variable {program : Program} {host : Host} {target : InstanceId} {storage : Storage}
  {sequence : List RecordedCall}

theorem of_append {earlier later : List RecordedCall}
    (h : host.Records target storage (earlier ++ later)) : host.Records target storage earlier := by
  induction earlier generalizing storage with
  | nil => exact .done
  | cons step earlier ih =>
      cases h with
      | goes response events more => exact .goes response events (ih more)
      | reverts response silent more => exact .reverts response silent (ih more)

theorem agrees (h : host.Records target storage sequence) {answers : List (Except Revert Frame)}
    (hshows : List.Forall₂ (ShowsOutcome program) answers
      (host.replay target (fun _ => false) storage sequence).outcomes) :
    List.Forall₂ RecordedCall.Agrees sequence answers := by
  induction h generalizing answers with
  | done =>
      cases hshows
      exact .nil
  | goes response events _ ih =>
      rw [Host.replay_of_ok response] at hshows
      rcases hshows with _ | ⟨⟨_, call, outcome, first⟩, hothers⟩
      refine .cons (.goes ?_) (ih hothers)
      rw [events, Executor.unnumbered_sortedEvents_frame]
  | reverts response silent _ ih =>
      rw [Host.replay_of_error response, if_neg Bool.false_ne_true] at hshows
      rcases hshows with _ | ⟨⟨_⟩, hothers⟩
      exact .cons (.reverts silent) (ih hothers)

theorem confirms {executor : Executor} {site : Site}
    (h : (executor.host program).Records site.target storage sequence)
    (hbaseline : executor.snapshots[site.baseline.id]? = some storage) :
    Replay.Confirms program.client site sequence executor := by
  obtain ⟨replay, ended, hrun, htakes, -, -⟩ :=
    Executor.run_takes program (fun _ => false) sequence hbaseline
  exact ⟨replay, ended, hrun, h.agrees htakes.outcomes⟩

end Sandbox.Host.Records

theorem Oracle.alike_of_inspectState {program : Program} {oracle : Oracle} {live : Obligations}
    {coverage after : Coverage} {executor next : Executor}
    {result : Except CampaignError (List Violation)}
    (h : oracle.inspectState program.client live coverage executor = ((result, after), next)) :
    next.storage = executor.storage ∧ Alike next executor := by
  obtain ⟨violations, covered, reached, hinspect, -, hstorage, halike⟩ :=
    Executor.inspectState_violated program oracle live coverage executor
  rw [h] at hinspect
  cases hinspect
  exact ⟨hstorage, halike⟩

namespace Campaign

variable {ρ : Type} {program : Program} {campaign : Campaign ρ} {executor last : Executor}

theorem Makes.records {count : Nat} {made : List RecordedCall} {progress after : Progress ρ}
    {result : Except CampaignError (Option Detection)}
    (run : Makes campaign program.client count made progress executor result after last)
    {detection : Detection} (hresult : result = .ok (some detection)) :
    ∃ later, detection.sequence = made.reverse ++ later ∧
      (executor.host program).Records campaign.site.target executor.storage later := by
  have hevents {answered : Frame} {target : InstanceId} {call : HandlerCall} {outcome : Outcome}
      {first : Nat} (h : answered = Executor.frame program target call outcome first) :
      answered.sortedEvents.map Event.unnumbered = outcome.events.map Emission.event := by
    rw [h, Executor.unnumbered_sortedEvents_frame]
  induction run with
  | done | ungenerated | fails | uninspected => cases hresult
  | raises _ answer _ =>
      cases hresult
      obtain ⟨-, -, r, -, hrespond⟩ := Executor.respond_of_invoke_error answer
      exact ⟨[_], List.reverse_cons, .reverts hrespond rfl .done⟩
  | reverts _ answer _ _ ih =>
      -- The call that reverted is not kept. It has left the storage as it was, so the calls after
      -- it go on from where those before it ended.
      obtain ⟨halike, hstorage, -, -, -⟩ := Executor.respond_of_invoke_error answer
      obtain ⟨later, hsequence, hrecords⟩ := ih hresult
      rw [halike.host_eq, hstorage] at hrecords
      exact ⟨later, hsequence, hrecords⟩
  | passes _ answer inspected _ ih =>
      obtain ⟨halike, outcome, hrespond, hframe⟩ := Executor.respond_of_invoke_ok answer
      obtain ⟨hmiddle, hqueried⟩ := Oracle.alike_of_inspectState inspected
      obtain ⟨later, hsequence, hrecords⟩ := ih hresult
      rw [(hqueried.trans halike).host_eq, hmiddle] at hrecords
      rw [List.reverse_cons, List.append_assoc] at hsequence
      exact ⟨_, hsequence, .goes hrespond (hevents hframe) hrecords⟩
  | violates _ answer _ =>
      cases hresult
      obtain ⟨-, outcome, hrespond, hframe⟩ := Executor.respond_of_invoke_ok answer
      exact ⟨[_], List.reverse_cons, .goes hrespond (hevents hframe) .done⟩

theorem Makes.alike {count : Nat} {made : List RecordedCall} {progress after : Progress ρ}
    {result : Except CampaignError (Option Detection)}
    (run : Makes campaign program.client count made progress executor result after last) :
    Alike last executor := by
  induction run with
  | done | ungenerated => exact .refl _
  | fails _ answer | raises _ answer _ => exact (Executor.respond_of_invoke_error answer).1
  | reverts _ answer _ _ ih => exact ih.trans (Executor.respond_of_invoke_error answer).1
  | uninspected _ answer inspected | violates _ answer inspected =>
      have hqueried := (Oracle.alike_of_inspectState inspected).2
      exact hqueried.trans (Executor.respond_of_invoke_ok answer).1
  | passes _ answer inspected _ ih =>
      have hqueried := (Oracle.alike_of_inspectState inspected).2
      exact (ih.trans hqueried).trans (Executor.respond_of_invoke_ok answer).1

theorem Iterates.alike {progress after : Progress ρ}
    {result : Except CampaignError (Option Detection)}
    (run : Iterates campaign program.client progress executor result after last) :
    Alike last executor := by
  have hrestored {answer : Except ExecutionError Unit} {next : Executor}
      (h : program.client.restore campaign.site.baseline executor = (answer, next)) :
      Alike next executor := by
    cases hbaseline : executor.snapshots[campaign.site.baseline.id]? with
    | none =>
        rw [Executor.restore_of_none program hbaseline] at h
        cases h
        exact .refl _
    | some baseline =>
        obtain ⟨_, hrestore, -, halike⟩ := Executor.restore_of_some program hbaseline
        rw [h] at hrestore
        cases hrestore
        exact halike
  cases run with
  | unrestored answer => exact hrestored answer
  | fails answer made | passes answer made | detects answer made =>
      exact (makes made).alike.trans (hrestored answer)

theorem iterate_records {progress after : Progress ρ} {detection : Detection} {baseline : Storage}
    (h : campaign.iterate program.client progress executor =
      ((.ok (some detection), after), last))
    (hbaseline : executor.snapshots[campaign.site.baseline.id]? = some baseline) :
    (executor.host program).Records campaign.site.target baseline detection.sequence := by
  cases iterates h with
  | detects answer made =>
      obtain ⟨next, hrestore, hstorage, halike⟩ := Executor.restore_of_some program hbaseline
      rw [answer] at hrestore
      cases hrestore
      obtain ⟨later, hsequence, hrecords⟩ := (makes made).records rfl
      rw [halike.host_eq, hstorage] at hrecords
      rw [show detection.sequence = later from hsequence]
      exact hrecords

theorem settle_shrinking (program : Program) (hshrinks : campaign.shrinks = true)
    (detection : Detection) (progress : Progress ρ) {baseline : Storage}
    (hbaseline : executor.snapshots[campaign.site.baseline.id]? = some baseline) :
    ∃ after next,
      campaign.settle program.client detection progress executor =
        ((.ok (Shrinking.pruned ((executor.host program).shows campaign.site.target
            ⟨campaign.oracle, progress.live, detection.violations⟩ baseline) []
            detection.sequence),
          { progress with
            live := progress.live.discharge detection.violations
            coverage := after }), next) ∧
      Within progress.coverage after ∧ Alike next executor := by
  obtain ⟨after, next, hshrink, hnext⟩ := Shrinking.shrink_pruned program
    ⟨campaign.oracle, progress.live, detection.violations⟩ detection.sequence progress.coverage
    hbaseline
  refine ⟨after, next, ?_, Shrinking.shrink_within hshrink, hnext⟩
  simp only [settle, hshrinks, if_true, bind_apply, pure_apply, hshrink]
  rfl

end Campaign

/-- Where a finding comes from: the calls `found` led to its violations, and it reports what
shrinking keeps of them. -/
structure Finding.Arises (finding : Finding) (host : Host) (target : InstanceId) (oracle : Oracle)
    (live : Obligations) (shrinks : Bool) (baseline : Storage) (found : List RecordedCall) :
    Prop where
  foundLength : finding.foundLength = found.length
  leads : ∃ last, Campaign.Leads host target oracle live baseline found finding.violations last
  records : host.Records target baseline found
  sequence : finding.sequence =
    if shrinks then
      Shrinking.pruned (host.shows target ⟨oracle, live, finding.violations⟩ baseline) [] found
    else found

namespace Finding.Arises

variable {finding : Finding} {host : Host} {target : InstanceId} {oracle : Oracle}
  {live : Obligations} {shrinks : Bool} {baseline : Storage} {found : List RecordedCall}

theorem sublist (h : finding.Arises host target oracle live shrinks baseline found) :
    finding.sequence.Sublist found := by
  rw [h.sequence]
  split
  · exact Shrinking.pruned_sublist _ [] found
  · exact .refl found

theorem shows (h : finding.Arises host target oracle live shrinks baseline found) :
    host.shows target ⟨oracle, live, finding.violations⟩ baseline finding.sequence = true := by
  obtain ⟨last, hleads⟩ := h.leads
  rw [h.sequence]
  split
  · exact Shrinking.pruned_shows hleads.shows
  · exact hleads.shows

end Finding.Arises

namespace Campaign

variable {ρ : Type} {program : Program} {campaign : Campaign ρ} {executor last : Executor}

/-- Findings that have arisen one after another, each with the obligations live that the earlier
ones have left of the initial ones. -/
inductive Traced (program : Program) (executor : Executor) (campaign : Campaign ρ)
    (initial : List String) : List Finding → Prop
  | none : Traced program executor campaign initial []
  | finds {findings live finding baseline found}
      (earlier : Traced program executor campaign initial findings)
      (left : live.live = initial.filter (· ∉ Finding.obligations findings))
      (saved : executor.snapshots[campaign.site.baseline.id]? = some baseline)
      (arises : finding.Arises (executor.host program) campaign.site.target campaign.oracle live
        campaign.shrinks baseline found) :
      Traced program executor campaign initial (findings ++ [finding])

theorem Traced.arises {initial : List String} {findings earlier later : List Finding}
    {finding : Finding} (h : Traced program executor campaign initial findings)
    (hfindings : findings = earlier ++ finding :: later) :
    ∃ live baseline found,
      live.live = initial.filter (· ∉ Finding.obligations earlier) ∧
      executor.snapshots[campaign.site.baseline.id]? = some baseline ∧
      finding.Arises (executor.host program) campaign.site.target campaign.oracle live
        campaign.shrinks baseline found := by
  induction h generalizing later with
  | none => cases earlier <;> cases hfindings
  | finds _ left saved arises ih =>
      -- The finding is either the newest one or one of those before it.
      rcases List.eq_nil_or_concat' later with rfl | ⟨others, newest, rfl⟩
      · obtain ⟨rfl, hfinding⟩ := List.append_inj' hfindings rfl
        cases hfinding
        exact ⟨_, _, _, left, saved, arises⟩
      · rw [← List.cons_append, ← List.append_assoc] at hfindings
        exact ih (List.append_inj' hfindings rfl).1

theorem Steps.arises {state next : State ρ}
    (run : Steps campaign program.client state executor (.ok ()) next last) :
    Alike last executor ∧
      (next.findings = state.findings ∨
        ∃ finding baseline found, next.findings = state.findings ++ [finding] ∧
          executor.snapshots[campaign.site.baseline.id]? = some baseline ∧
          finding.Arises (executor.host program) campaign.site.target campaign.oracle
            state.progress.live campaign.shrinks baseline found) := by
  cases run with
  | passes iterated => exact ⟨(iterates iterated).alike, .inl rfl⟩
  | @finds detection found middle sequence _ _ iterated settled finding hfinding =>
      obtain ⟨halike, baseline, hbaseline, hleads⟩ := iterate_leads iterated
      have hrecords := iterate_records iterated hbaseline
      have hlive := (iterates iterated).breaks.2
      have hsaved := hbaseline
      rw [← halike.snapshots] at hsaved
      subst hfinding
      -- With shrinking the obligations are still live when the sequence is settled, so its trials
      -- look for the violations that the iteration looked for.
      by_cases hshrinks : campaign.shrinks = true
      · obtain ⟨after, ended, hsettle, -, hended⟩ :=
          settle_shrinking program hshrinks detection found hsaved
        rw [settled] at hsettle
        cases hsettle
        rw [if_pos hshrinks] at hlive
        refine ⟨hended.trans halike, .inr ⟨_, baseline, detection.sequence, rfl, hbaseline, ?_⟩⟩
        refine ⟨rfl, ⟨_, hleads⟩, hrecords, ?_⟩
        rw [if_pos hshrinks, halike.host_eq, hlive]
      · have hsettle : campaign.settle program.client detection found middle =
            ((.ok detection.sequence, found), middle) := by
          rw [settle, if_neg hshrinks]
          rfl
        rw [settled] at hsettle
        cases hsettle
        refine ⟨halike, .inr ⟨_, baseline, detection.sequence, rfl, hbaseline, ?_⟩⟩
        exact ⟨rfl, ⟨_, hleads⟩, hrecords, (if_neg hshrinks).symm⟩

theorem prepare_campaign {config : Config} {deployment : Deployment} {coverage : Coverage}
    {campaign : Campaign Random.Stream} {state : State Random.Stream} {log : Log}
    (h : prepare config deployment coverage = (.ok (campaign, state), log)) :
    campaign.site = deployment.site ∧ campaign.oracle = config.oracle deployment ∧
      campaign.shrinks = config.shrink := by
  obtain ⟨_, -, rfl, -⟩ := prepare_eq_ok h
  exact ⟨rfl, rfl, rfl⟩

theorem loop_traced {observe : Log → StateM Executor Unit} {limited : Bool}
    (hobserve : ∀ log executor, (observe log executor).2 = executor) {initial : List String}
    {budget : Nat} {state ended : State ρ}
    (haccounts : Accounts initial state.findings state.progress.live.live)
    (htraced : Traced program executor campaign initial state.findings)
    (hend : campaign.loop program.client observe limited budget state executor =
      ((.ok (), ended), last)) :
    Traced program executor campaign initial ended.findings := by
  -- The accounts go along, since they say which obligations are live when an iteration starts.
  have hkept : Alike last executor ∧ Accounts initial ended.findings ended.progress.live.live ∧
      Traced program executor campaign initial ended.findings := by
    refine loop_preserves (fun state world => Alike world executor ∧
      Accounts initial state.findings state.progress.live.live ∧
      Traced program executor campaign initial state.findings)
      (fun _ _ _ h => h) (fun log state world h => ?_) ?_ ⟨.refl executor, haccounts, htraced⟩ hend
    · rw [hobserve]
      exact h
    · rintro state world next reached - ⟨halike, haccounts, htraced⟩ hstep
      obtain ⟨hreached, hsame | ⟨finding, baseline, found, hfinding, hsaved, harises⟩⟩ :=
        hstep.arises
      · refine ⟨hreached.trans halike, hstep.accounts haccounts, ?_⟩
        rw [hsame]
        exact htraced
      · rw [halike.snapshots] at hsaved
        rw [halike.host_eq] at harises
        refine ⟨hreached.trans halike, hstep.accounts haccounts, ?_⟩
        rw [hfinding]
        exact .finds htraced haccounts.remaining_eq hsaved harises
  exact hkept.2.2

/-- Every finding of a report has arisen from the baseline of the deployment, with the obligations
live that the findings before it have left. -/
theorem run_arises {config : Config} {deployment : Deployment} {targetName : String}
    {coverage : Coverage} {report : Report}
    (hreport : (run program.client config deployment targetName coverage executor).1.result =
      .ok report)
    {earlier later : List Finding} {finding : Finding}
    (hfindings : report.findings = earlier ++ finding :: later) :
    ∃ live baseline found,
      live.live = report.obligations.filter (· ∉ Finding.obligations earlier) ∧
      executor.snapshots[deployment.baseline.id]? = some baseline ∧
      finding.Arises (executor.host program) deployment.target (config.oracle deployment) live
        config.shrink baseline found := by
  obtain ⟨campaign, state, log, ended, last, hprepare, hloop, rfl⟩ := run_ends hreport
  obtain ⟨hnone, hlive⟩ := prepare_start hprepare
  obtain ⟨hsite, horacle, hshrinks⟩ := prepare_campaign hprepare
  have htraced : Traced program executor campaign (config.obligations deployment).live
      ended.findings := by
    refine loop_traced (fun _ _ => rfl) ?_ ?_ hloop
    · rw [hnone, hlive]
      exact .nil
    · rw [hnone]
      exact .none
  obtain ⟨live, baseline, found, hleft, hsaved, harises⟩ := htraced.arises hfindings
  rw [hsite] at hsaved harises
  rw [horacle, hshrinks] at harises
  exact ⟨live, baseline, found, hleft, hsaved, harises⟩

/-- Settings for one iteration of two calls by one sender. -/
def briefConfig : Config :=
  { sequenceLength := 2, senders := [0], seed := 1, maxIterations := some 1 }

/-- A campaign against a program that has just been deployed: the deployment, the executor that
holds it and the report. -/
def runFresh? (program : Program) (config : Config) : Option (Deployment × Executor × Report) :=
  match Deployment.deploy program.client program.artifact [] config.schemaOptions .empty {} with
  | ((.ok deployment, coverage, _), executor) =>
      match (run program.client config deployment "" coverage executor).1.result with
      | .ok report => some (deployment, executor, report)
      | .error _ => none
  | _ => none

theorem runFresh?_eq_some {config : Config} {deployment : Deployment} {report : Report}
    (h : runFresh? program config = some (deployment, executor, report)) :
    ∃ coverage,
      (run program.client config deployment "" coverage executor).1.result = .ok report := by
  rw [runFresh?] at h
  split at h
  · split at h
    · rename_i hreport
      cases h
      exact ⟨_, hreport⟩
    · cases h
  · cases h

theorem runFresh?_of_length {config : Config}
    (h : (runFresh? program config).map (fun run => run.2.2.findings.length) = some 1) :
    ∃ deployment executor report finding coverage,
      runFresh? program config = some (deployment, executor, report) ∧
      report.findings = [finding] ∧
      (run program.client config deployment "" coverage executor).1.result = .ok report := by
  obtain ⟨⟨deployment, executor, report⟩, hrun, hlength⟩ := Option.map_eq_some_iff.mp h
  obtain ⟨finding, hfinding⟩ := List.length_eq_one_iff.mp hlength
  obtain ⟨coverage, hreport⟩ := runFresh?_eq_some hrun
  exact ⟨deployment, executor, report, finding, coverage, hrun, hfinding, hreport⟩

end Campaign

end ContractFuzz
