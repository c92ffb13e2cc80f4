import ContractFuzz.Proofs.Campaign.Provenance

/-!
Two campaigns against one program in lockstep, the first without and the second with shrinking.
They make the same random calls, detect the same violations and have the same obligations left:
shrinking changes the sequences that are reported, and adds to the coverage.
-/

namespace ContractFuzz

open ContractFuzz.Sandbox
open Coverage (Within)
open Executor (Alike Twins)

variable (program : Program) {left right : Executor}

namespace Oracle

/-- What oracles on twins come to. -/
inductive InspectedAlike : (Except CampaignError (List Violation) × Coverage) × Executor →
    (Except CampaignError (List Violation) × Coverage) × Executor → Prop
  | mk {violations others c d left right}
      (violated : violations.map Violation.unnumbered = others.map Violation.unnumbered)
      (coverage : Within c d) (executors : Twins left right) :
      InspectedAlike ((.ok violations, c), left) ((.ok others, d), right)

theorem queryProperties_twins (target : InstanceId) (sender : Felt) (names : List String)
    {c d : Coverage} (hcoverage : Within c d) (h : Twins left right) :
    InspectedAlike (queryProperties program.client target sender names c left)
      (queryProperties program.client target sender names d right) := by
  induction names generalizing c d left right with
  | nil => exact .mk rfl hcoverage h
  | cons name rest ih =>
      obtain ⟨answer, called, other, reached, hanswer, hother, hresembles, hcalled⟩ :=
        Executor.query_twins program h (propertyQuery target sender name)
      simp only [queryProperties, bind_apply, hanswer, hother]
      cases hresembles with
      | reverts r => exact ih hcoverage hcalled
      | frames hframes =>
          have hrest := ih (hcoverage.after hframes.covers) hcalled
          generalize hasked : queryProperties program.client target sender rest _ called = asked
            at hrest
          generalize htold : queryProperties program.client target sender rest _ reached = told
            at hrest
          cases hrest with
          | mk violated coverage executors =>
              simp only [hframes.returnData]
              split
              · simp only [bind_apply, hasked, htold]
                refine .mk ?_ coverage executors
                simp only [List.map_cons, violated, Violation.unnumbered, hframes.events]
              · simp only [bind_apply, hasked, htold]
                exact .mk violated coverage executors

theorem inspectState_twins (oracle : Oracle) (live : Obligations) {c d : Coverage}
    (hcoverage : Within c d) (h : Twins left right) :
    InspectedAlike (oracle.inspectState program.client live c left)
      (oracle.inspectState program.client live d right) := by
  cases oracle with
  | properties target sender =>
      exact queryProperties_twins program target sender live.live hcoverage h
  | exceptions signatures => exact .mk rfl hcoverage h

end Oracle

/-- Two campaigns that have come equally far, of which the second has covered at least as much. -/
structure Progress.Trails {ρ : Type} (progress other : Progress ρ) : Prop where
  random : progress.random = other.random
  live : progress.live = other.live
  coverage : Within progress.coverage other.coverage

namespace Campaign

variable {ρ : Type}

inductive MadeAlike : (Except CampaignError (Option Detection) × Progress ρ) × Executor →
    (Except CampaignError (Option Detection) × Progress ρ) × Executor → Prop
  | fails {progress other left right} (e : CampaignError) (trails : Progress.Trails progress other)
      (executors : Twins left right) :
      MadeAlike ((.error e, progress), left) ((.error e, other), right)
  | passes {progress other left right} (trails : Progress.Trails progress other)
      (executors : Twins left right) :
      MadeAlike ((.ok none, progress), left) ((.ok none, other), right)
  | detects {detection found progress other left right}
      (same : Detection.unnumbered detection = Detection.unnumbered found)
      (trails : Progress.Trails progress other) (executors : Twins left right) :
      MadeAlike ((.ok (some detection), progress), left) ((.ok (some found), other), right)

theorem makeCalls_twins (campaign : Campaign ρ) (count : Nat) {made known : List RecordedCall}
    (hmade : made.map RecordedCall.unnumbered = known.map RecordedCall.unnumbered)
    {progress other : Progress ρ} (htrails : progress.Trails other) (h : Twins left right) :
    MadeAlike (campaign.makeCalls program.client count made progress left)
      (campaign.makeCalls program.client count known other right) := by
  induction count generalizing made known progress other left right with
  | zero => exact .passes htrails h
  | succ count ih =>
      rcases generated : campaign.generator.call campaign.schema.functions campaign.schema.structs
        progress.random with ⟨e | call, random⟩
      · have hgenerated := generated
        rw [htrails.random] at hgenerated
        simp only [makeCalls, generated, hgenerated, pure_apply]
        exact .fails _ ⟨rfl, htrails.live, htrails.coverage⟩ h
      have hgenerated := generated
      rw [htrails.random] at hgenerated
      obtain ⟨answer, called, reply, reached, hanswer, hreply, hresembles, hcalled⟩ :=
        Executor.invoke_twins program h (call.invocation campaign.site.target)
      cases hresembles with
      | reverts r =>
          have hnext : Progress.Trails ⟨random, other.live, progress.coverage⟩
              ⟨random, other.live, other.coverage⟩ := ⟨rfl, rfl, htrails.coverage⟩
          rcases hinspect : campaign.oracle.inspectRevert? other.live r with _ | violation
          · simp only [makeCalls, generated, hgenerated, bind_apply, hanswer, hreply, htrails.live,
              hinspect]
            exact ih hmade hnext hcalled
          · simp only [makeCalls, generated, hgenerated, bind_apply, hanswer, hreply, htrails.live,
              hinspect]
            refine .detects ?_ hnext hcalled
            simp only [Detection.unnumbered, List.reverse_cons, List.map_append, List.map_reverse,
              hmade]
      | frames hframes =>
          have hinspected := Oracle.inspectState_twins program campaign.oracle other.live
            (htrails.coverage.after hframes.covers) hcalled
          generalize hasked : campaign.oracle.inspectState program.client other.live _ called =
            asked at hinspected
          generalize htold : campaign.oracle.inspectState program.client other.live _ reached =
            told at hinspected
          have hevents (events others : List Event)
              (hevents : events.map Event.unnumbered = others.map Event.unnumbered) :
              (⟨call, events⟩ :: made).map RecordedCall.unnumbered =
                (⟨call, others⟩ :: known).map RecordedCall.unnumbered := by
            simp only [List.map_cons, hmade, RecordedCall.unnumbered, hevents]
          cases hinspected with
          | @mk violations others _ _ _ _ violated coverage executors =>
              simp only [makeCalls, generated, hgenerated, bind_apply, hanswer, hreply,
                htrails.live, hasked, htold]
              cases violations with
              | nil =>
                  obtain rfl := List.map_eq_nil_iff.mp violated.symm
                  exact ih (hevents _ _ hframes.events) ⟨rfl, rfl, coverage⟩ executors
              | cons violation more =>
                  cases others with
                  | nil => cases violated
                  | cons breach further =>
                      refine .detects ?_ ⟨rfl, rfl, coverage⟩ executors
                      rw [Detection.unnumbered, Detection.unnumbered, List.map_reverse,
                        List.map_reverse, hevents _ _ hframes.events, violated]

theorem makeCalls_shrinks {m : Type → Type} [Monad m] (campaign : Campaign ρ) (shrinks : Bool)
    (client : Client m) (count : Nat) (made : List RecordedCall) (progress : Progress ρ) :
    ({ campaign with shrinks } : Campaign ρ).makeCalls client count made progress =
      campaign.makeCalls client count made progress := by
  induction count generalizing made progress with
  | zero => rfl
  | succ count ih => simp only [makeCalls, ih]

/-- How an iteration without and one with shrinking compare. The one that does not shrink has
already discharged what it has detected. -/
inductive IteratedAlike : (Except CampaignError (Option Detection) × Progress ρ) × Executor →
    (Except CampaignError (Option Detection) × Progress ρ) × Executor → Prop
  | fails {progress other left right} (e : CampaignError) :
      IteratedAlike ((.error e, progress), left) ((.error e, other), right)
  | passes {progress other left right} (trails : Progress.Trails progress other)
      (executors : Alike left right) :
      IteratedAlike ((.ok none, progress), left) ((.ok none, other), right)
  | detects {detection found progress other left right}
      (same : Detection.unnumbered detection = Detection.unnumbered found)
      (trails : Progress.Trails progress
        { other with live := other.live.discharge found.violations })
      (executors : Alike left right) :
      IteratedAlike ((.ok (some detection), progress), left) ((.ok (some found), other), right)

theorem iterate_twins (campaign : Campaign ρ) {progress other : Progress ρ}
    (htrails : progress.Trails other) (h : Alike left right) :
    IteratedAlike
      (({ campaign with shrinks := false } : Campaign ρ).iterate program.client progress left)
      (({ campaign with shrinks := true } : Campaign ρ).iterate program.client other right) := by
  rcases Executor.restore_twins program h campaign.site.baseline with
    ⟨fault, hanswer, hreply⟩ | ⟨called, reached, hanswer, hreply, hcalled⟩
  · simp only [iterate, bind_apply, pure_apply, hanswer, hreply]
    exact .fails _
  have hmade : MadeAlike
      (campaign.makeCalls program.client campaign.sequenceLength [] progress called)
      (campaign.makeCalls program.client campaign.sequenceLength [] other reached) :=
    makeCalls_twins program campaign campaign.sequenceLength rfl htrails hcalled
  generalize hasked : campaign.makeCalls program.client campaign.sequenceLength [] progress called =
    asked at hmade
  generalize htold : campaign.makeCalls program.client campaign.sequenceLength [] other reached =
    told at hmade
  simp only [iterate, bind_apply, hanswer, hreply, makeCalls_shrinks, hasked, htold]
  cases hmade with
  | fails e => exact .fails e
  | passes trails executors => exact .passes trails executors.toAlike
  | @detects detection found _ _ _ _ same trails executors =>
      have hobligations := Violation.map_obligation_eq (Detection.mk.inj same).2
      refine .detects same ⟨trails.random, ?_, trails.coverage⟩ executors.toAlike
      simp only [Obligations.discharge, trails.live, hobligations]

end Campaign

/-- Findings that tell of the same violations in the same iteration, of which the first may leave
calls out. -/
structure Finding.Shortens (finding other : Finding) : Prop where
  iteration : finding.iteration = other.iteration
  foundLength : finding.foundLength = other.foundLength
  violations : finding.violations.map Violation.unnumbered =
    other.violations.map Violation.unnumbered
  sequence : (finding.sequence.map RecordedCall.unnumbered).Sublist
    (other.sequence.map RecordedCall.unnumbered)

namespace Campaign

/-- Two campaigns under way that have found the same, of which the second has left out calls and
has covered at least as much. -/
structure State.Trails (state other : State ρ) : Prop where
  iteration : state.iteration = other.iteration
  findings : List.Forall₂ Finding.Shortens other.findings state.findings
  progress : state.progress.Trails other.progress

inductive WentAlike : (Except CampaignError Unit × State ρ) × Executor →
    (Except CampaignError Unit × State ρ) × Executor → Prop
  | fails {state other left right} (e : CampaignError) :
      WentAlike ((.error e, state), left) ((.error e, other), right)
  | goes {state other left right} (trails : State.Trails state other)
      (executors : Alike left right) :
      WentAlike ((.ok (), state), left) ((.ok (), other), right)

theorem step_twins (campaign : Campaign ρ) {state other : State ρ} (htrails : state.Trails other)
    (h : Alike left right) :
    WentAlike (({ campaign with shrinks := false } : Campaign ρ).step program.client state left)
      (({ campaign with shrinks := true } : Campaign ρ).step program.client other right) := by
  have hiterated := iterate_twins program campaign htrails.progress h
  generalize hasked : ({ campaign with shrinks := false } : Campaign ρ).iterate program.client
    state.progress left = asked at hiterated
  generalize htold : ({ campaign with shrinks := true } : Campaign ρ).iterate program.client
    other.progress right = told at hiterated
  cases hiterated with
  | fails e =>
      simp only [step, bind_apply, pure_apply, hasked, htold, htrails.iteration]
      exact .fails _
  | passes trails executors =>
      simp only [step, bind_apply, pure_apply, hasked, htold, htrails.iteration]
      exact .goes ⟨rfl, htrails.findings, trails⟩ executors
  | @detects detection found progress reached left' next same trails executors =>
      obtain ⟨hnext, baseline, hbaseline, -⟩ := iterate_leads htold
      rw [← hnext.snapshots] at hbaseline
      have hshrinks : ({ campaign with shrinks := true } : Campaign ρ).shrinks = true := rfl
      obtain ⟨covered, ended, hsettled, hgrown, hended⟩ :=
        settle_shrinking program hshrinks found reached hbaseline
      have hkept : ({ campaign with shrinks := false } : Campaign ρ).settle program.client detection
          progress left' = ((.ok detection.sequence, progress), left') := rfl
      simp only [step, bind_apply, pure_apply, hasked, htold, htrails.iteration, hsettled, hkept]
      obtain ⟨hsequence, hviolations⟩ := Detection.mk.inj same
      have hlength := congrArg List.length hsequence
      rw [List.length_map, List.length_map] at hlength
      -- Only now has the campaign that shrinks discharged what the other one has, in its iteration.
      refine .goes ⟨rfl, ?_, trails.random, trails.live, trails.coverage.trans hgrown⟩
        (executors.trans hended.symm)
      refine List.rel_append htrails.findings (.cons ⟨rfl, hlength.symm, hviolations.symm, ?_⟩ .nil)
      rw [hsequence]
      exact (Shrinking.pruned_sublist _ [] found.sequence).map RecordedCall.unnumbered

theorem loop_twins (campaign : Campaign ρ) (limited : Bool) (budget : Nat)
    {state other : State ρ} (htrails : state.Trails other) (h : Alike left right) :
    WentAlike
      (({ campaign with shrinks := false } : Campaign ρ).loop program.client (fun _ => pure ())
        limited budget state left)
      (({ campaign with shrinks := true } : Campaign ρ).loop program.client (fun _ => pure ())
        limited budget other right) := by
  have hclosed (message : String) {state other : State ρ} {left right : Executor}
      (htrails : state.Trails other) (h : Alike left right) :
      WentAlike (close (m := StateM Executor) (fun _ => pure ()) state message left)
        (close (m := StateM Executor) (fun _ => pure ()) other message right) :=
    .goes ⟨htrails.iteration, htrails.findings, htrails.progress⟩ h
  induction budget generalizing state other left right with
  | zero =>
      rw [loop, loop, htrails.progress.live]
      split
      · exact hclosed _ htrails h
      · split
        · exact hclosed _ htrails h
        · exact .fails _
  | succ budget ih =>
      rw [loop, loop, htrails.progress.live]
      split
      · exact hclosed _ htrails h
      · have hstepped := step_twins program campaign htrails h
        generalize hasked : ({ campaign with shrinks := false } : Campaign ρ).step program.client
          state left = asked at hstepped
        generalize htold : ({ campaign with shrinks := true } : Campaign ρ).step program.client
          other right = told at hstepped
        simp only [bind_apply, pure_apply, hasked, htold]
        cases hstepped with
        | fails e => exact .fails e
        | goes trails executors => exact ih trails executors

theorem prepare_shrink (config : Config) (shrink : Bool) (deployment : Deployment)
    (coverage : Coverage) :
    prepare { config with shrink } deployment coverage =
      ((prepare config deployment coverage).1.map fun prepared =>
        ({ prepared.1 with shrinks := shrink }, prepared.2),
        (prepare config deployment coverage).2) := by
  have hgenerator : ({ config with shrink } : Config).callGenerator = config.callGenerator := rfl
  rw [prepare, prepare, hgenerator]
  split
  · rfl
  · cases config.callGenerator <;> rfl

end Campaign

/-- Reports of which the first tells of the same campaign as the second, with shorter sequences and
at least its coverage. -/
structure Report.Shortens (report other : Report) : Prop where
  iterations : report.iterations = other.iterations
  obligations : report.obligations = other.obligations
  remaining : report.remaining = other.remaining
  findings : List.Forall₂ Finding.Shortens report.findings other.findings
  coverage : other.coveredInstructions ≤ report.coveredInstructions

inductive ShortensResult : Except CampaignError Report → Except CampaignError Report → Prop
  | fails (e : CampaignError) : ShortensResult (.error e) (.error e)
  | reports {report other : Report} (h : report.Shortens other) :
      ShortensResult (.ok report) (.ok other)

namespace Campaign

/-- Shrinking changes nothing about a campaign but the sequences that it reports, out of which it
leaves calls, and the coverage, to which its trials can only add. -/
theorem run_shortens (config : Config) (deployment : Deployment) (targetName : String)
    (coverage : Coverage) (executor : Executor) :
    ShortensResult
      (run program.client { config with shrink := true } deployment targetName coverage
        executor).1.result
      (run program.client { config with shrink := false } deployment targetName coverage
        executor).1.result := by
  rcases hprepare : prepare config deployment coverage with ⟨e | ⟨campaign, state⟩, log⟩
  · simp only [run, runObserved, prepare_shrink, hprepare, bind_apply, pure_apply]
    exact .fails e
  have hfindings := (prepare_start hprepare).1
  have htrails : state.Trails state := ⟨rfl, by rw [hfindings]; exact .nil, rfl, rfl, .refl _⟩
  have hended := loop_twins program campaign config.maxIterations.isSome config.iterationBudget
    htrails (.refl executor)
  have hbudget (shrink : Bool) : ({ config with shrink } : Config).iterationBudget =
      config.iterationBudget := rfl
  simp only [run, runObserved, prepare_shrink, hprepare, bind_apply, pure_apply, Except.map,
    hbudget]
  generalize ({ campaign with shrinks := false } : Campaign Random.Stream).loop program.client
    (fun _ => pure ()) config.maxIterations.isSome config.iterationBudget state executor = plain
    at hended ⊢
  generalize ({ campaign with shrinks := true } : Campaign Random.Stream).loop program.client
    (fun _ => pure ()) config.maxIterations.isSome config.iterationBudget state executor = shrunk
    at hended ⊢
  cases hended with
  | fails e => exact .fails e
  | goes trails executors =>
      refine .reports ⟨trails.iteration.symm, rfl, ?_, trails.findings, ?_⟩
      · exact congrArg Obligations.live trails.progress.live.symm
      · exact trails.progress.coverage.total_le

end Campaign

end ContractFuzz
