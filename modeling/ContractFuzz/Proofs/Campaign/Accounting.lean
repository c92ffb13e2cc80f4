import ContractFuzz.Proofs.Campaign.Obligations
import ContractFuzz.Proofs.Campaign.Oracle
import ContractFuzz.Proofs.Campaign.Runs

namespace ContractFuzz

/-- The obligations that the violations of findings name, one entry for each violation. -/
def Finding.obligations (findings : List Finding) : List String :=
  findings.flatMap fun finding => finding.violations.map Violation.obligation

/-- The findings and the remaining obligations of a campaign agree with its initial ones. -/
structure Accounts (initial : List String) (findings : List Finding) (remaining : List String) :
    Prop where
  violated : ∀ finding ∈ findings, finding.violations ≠ []
  known : ∀ finding ∈ findings, ∀ violation ∈ finding.violations, violation.obligation ∈ initial
  once : (Finding.obligations findings).Nodup
  remaining_eq : remaining = initial.filter (· ∉ Finding.obligations findings)

/-- A detection has violations, and they name distinct live obligations. -/
structure Detection.Breaks (detection : Detection) (live : Obligations) : Prop where
  violated : detection.violations ≠ []
  named : (detection.violations.map Violation.obligation).Sublist live.live

theorem Accounts.nil {initial : List String} : Accounts initial [] initial where
  violated := by simp
  known := by simp
  once := List.nodup_nil
  remaining_eq := (List.filter_eq_self.mpr fun _ _ => by simp [Finding.obligations]).symm

theorem Accounts.append {initial : List String} {findings : List Finding} {live : Obligations}
    (h : Accounts initial findings live.live) {finding : Finding}
    (hviolated : finding.violations ≠ [])
    (hnamed : (finding.violations.map Violation.obligation).Sublist live.live) :
    Accounts initial (findings ++ [finding]) (live.discharge finding.violations).live := by
  have hlive : ∀ name ∈ finding.violations.map Violation.obligation,
      name ∈ initial ∧ name ∉ Finding.obligations findings := by
    intro name hname
    have hmem := hnamed.subset hname
    rw [h.remaining_eq] at hmem
    simpa using List.mem_filter.mp hmem
  have hobligations : Finding.obligations (findings ++ [finding]) =
      Finding.obligations findings ++ finding.violations.map Violation.obligation := by
    simp [Finding.obligations]
  refine ⟨?_, ?_, ?_, ?_⟩
  · intro other hother
    rcases List.mem_append.mp hother with hother | hother
    · exact h.violated other hother
    · exact List.mem_singleton.mp hother ▸ hviolated
  · intro other hother violation hviolation
    rcases List.mem_append.mp hother with hother | hother
    · exact h.known other hother violation hviolation
    · rw [List.mem_singleton.mp hother] at hviolation
      exact (hlive _ (List.mem_map_of_mem hviolation)).1
  · rw [hobligations]
    refine List.nodup_append.mpr ⟨h.once, live.nodup.sublist hnamed, ?_⟩
    rintro name hold other hnew rfl
    exact (hlive name hnew).2 hold
  · rw [Obligations.live_discharge, h.remaining_eq, List.filter_filter, hobligations]
    apply List.filter_congr
    intro name _
    simp [List.mem_append, Bool.and_comm]

namespace Oracle

variable {σ : Type} {client : Client (StateM σ)}

theorem Queries.sublist {target : InstanceId} {sender : Felt} {names : List String}
    {coverage after : Coverage} {world last : σ} {result : Except CampaignError (List Violation)}
    (run : Queries client target sender names coverage world result after last)
    {violations : List Violation} (hresult : result = .ok violations) :
    (violations.map Violation.obligation).Sublist names := by
  induction run generalizing violations with
  | done =>
      cases hresult
      exact List.Sublist.slnil
  | fails => cases hresult
  | reverts _ _ ih => exact (ih hresult).cons _
  | holds _ _ _ ih => exact (ih hresult).cons _
  | @breaks _ _ _ _ _ _ later _ _ _ _ _ ih =>
      cases later with
      | error e => cases hresult
      | ok others =>
          cases hresult
          exact (ih rfl).cons_cons _

theorem inspectState_sublist {oracle : Oracle} {live : Obligations} {coverage after : Coverage}
    {world last : σ} {violations : List Violation}
    (h : oracle.inspectState client live coverage world = ((.ok violations, after), last)) :
    (violations.map Violation.obligation).Sublist live.live := by
  cases oracle with
  | properties target sender =>
      have run : Queries client target sender live.live coverage world _ _ _ := queries h
      exact run.sublist rfl
  | exceptions signatures =>
      cases h
      exact List.nil_sublist _

end Oracle

namespace Campaign

variable {σ ρ : Type} {campaign : Campaign ρ} {client : Client (StateM σ)}

theorem Makes.live {count : Nat} {made : List RecordedCall} {progress after : Progress ρ}
    {world last : σ} {result : Except CampaignError (Option Detection)}
    (run : Makes campaign client count made progress world result after last) :
    after.live = progress.live := by
  induction run with
  | done | ungenerated | fails | raises | uninspected | violates => rfl
  | reverts _ _ _ _ ih => exact ih
  | passes _ _ _ _ ih => exact ih

theorem Makes.breaks {count : Nat} {made : List RecordedCall} {progress after : Progress ρ}
    {world last : σ} {result : Except CampaignError (Option Detection)}
    (run : Makes campaign client count made progress world result after last)
    {detection : Detection} (hresult : result = .ok (some detection)) :
    detection.Breaks progress.live := by
  induction run with
  | done | ungenerated | fails | uninspected => cases hresult
  | raises _ _ inspected =>
      cases hresult
      have hmem := Oracle.obligation_mem_of_inspectRevert? inspected
      exact ⟨by simp, List.singleton_sublist.mpr hmem⟩
  | reverts _ _ _ _ ih => exact ih hresult
  | passes _ _ _ _ ih => exact ih hresult
  | violates _ _ inspected =>
      cases hresult
      exact ⟨by simp, Oracle.inspectState_sublist inspected⟩

theorem Iterates.live_of_none {progress after : Progress ρ} {world last : σ}
    (run : Iterates campaign client progress world (.ok none) after last) :
    after.live = progress.live := by
  cases run with
  | passes _ made => exact (makes made).live

theorem Iterates.breaks {progress after : Progress ρ} {world last : σ} {detection : Detection}
    (run : Iterates campaign client progress world (.ok (some detection)) after last) :
    detection.Breaks progress.live ∧
      after.live = if campaign.shrinks then progress.live
        else progress.live.discharge detection.violations := by
  cases run with
  | detects _ made =>
      refine ⟨(makes made).breaks rfl, ?_⟩
      rw [(makes made).live]

theorem shrink_live {site : Site} {goal : Goal} {sequence shorter : List RecordedCall}
    {coverage after : Coverage} {live : Obligations} {world last : σ}
    (h : Shrinking.shrink client site goal sequence coverage world =
      ((.ok shorter, live, after), last)) :
    live = goal.live.discharge goal.violations := by
  rcases hprune : Shrinking.prune client site goal [] sequence coverage world with
    ⟨⟨e | pruned, _⟩, _⟩
  · simp only [Shrinking.shrink, bind_apply, pure_apply, hprune] at h
    cases h
  · simp only [Shrinking.shrink, bind_apply, pure_apply, hprune] at h
    cases h
    rfl

theorem settle_live {detection : Detection} {progress after : Progress ρ} {world last : σ}
    {sequence : List RecordedCall}
    (h : campaign.settle client detection progress world = ((.ok sequence, after), last)) :
    after.live = if campaign.shrinks then progress.live.discharge detection.violations
      else progress.live := by
  rw [settle] at h
  split at h
  · rename_i hshrinks
    rw [if_pos hshrinks]
    rcases hshrink : Shrinking.shrink client campaign.site
      ⟨campaign.oracle, progress.live, detection.violations⟩ detection.sequence progress.coverage
      world with ⟨⟨e | shorter, live, coverage⟩, next⟩
    · simp only [bind_apply, pure_apply, hshrink] at h
      cases h
    · simp only [bind_apply, pure_apply, hshrink] at h
      cases h
      exact shrink_live hshrink
  · rename_i hshrinks
    rw [if_neg hshrinks]
    cases h
    rfl

theorem live_of_settled {progress found after : Progress ρ} {world next last : σ}
    {detection : Detection} {sequence : List RecordedCall}
    (iterated : campaign.iterate client progress world = ((.ok (some detection), found), next))
    (settled : campaign.settle client detection found next = ((.ok sequence, after), last)) :
    after.live = progress.live.discharge detection.violations := by
  have hfound := (iterates iterated).breaks.2
  rw [settle_live settled]
  by_cases hshrinks : campaign.shrinks = true
  · rw [if_pos hshrinks] at hfound ⊢
    rw [hfound]
  · rw [if_neg hshrinks] at hfound ⊢
    exact hfound

/-- An iteration keeps the books balanced: what it finds was live, and is discharged once. -/
theorem Steps.accounts {state next : State ρ} {world last : σ} {initial : List String}
    (run : Steps campaign client state world (.ok ()) next last)
    (h : Accounts initial state.findings state.progress.live.live) :
    Accounts initial next.findings next.progress.live.live := by
  cases run with
  | @passes progress _ iterated =>
      change Accounts initial state.findings progress.live.live
      rw [(iterates iterated).live_of_none]
      exact h
  | @finds detection found _ _ progress _ iterated settled finding hfinding =>
      obtain ⟨hbreaks, -⟩ := (iterates iterated).breaks
      have hviolations : finding.violations = detection.violations := by rw [hfinding]
      change Accounts initial (state.findings ++ [finding]) progress.live.live
      rw [live_of_settled iterated settled, ← hviolations]
      exact h.append (hviolations ▸ hbreaks.violated) (hviolations ▸ hbreaks.named)

theorem prepare_start {config : Config} {deployment : Deployment} {coverage : Coverage}
    {campaign : Campaign Random.Stream} {state : State Random.Stream} {log : Log}
    (h : prepare config deployment coverage = (.ok (campaign, state), log)) :
    state.findings = [] ∧ state.progress.live = config.obligations deployment := by
  obtain ⟨_, -, -, rfl⟩ := prepare_eq_ok h
  exact ⟨rfl, rfl⟩

/-- Whatever a client answers, the report of a campaign accounts for all its obligations: findings
name distinct initial ones, and what remains are the others in their order. -/
theorem run_accounts (client : Client (StateM σ)) (config : Config) (deployment : Deployment)
    (targetName : String) (coverage : Coverage) (world : σ) {report : Report}
    (hreport : (run client config deployment targetName coverage world).1.result = .ok report) :
    report.obligations.Nodup ∧
      Accounts report.obligations report.findings report.remaining := by
  rcases hprepare : prepare config deployment coverage with ⟨e | ⟨campaign, state⟩, log⟩
  · simp only [run, runObserved, hprepare, bind_apply, pure_apply] at hreport
    cases hreport
  obtain ⟨hfindings, hlive⟩ := prepare_start hprepare
  rcases hloop : campaign.loop client (fun _ => pure ()) config.maxIterations.isSome
    config.iterationBudget state world with ⟨⟨e | _, ended⟩, last⟩
  · simp only [run, runObserved, hprepare, bind_apply, pure_apply, hloop] at hreport
    cases hreport
  · simp only [run, runObserved, hprepare, bind_apply, pure_apply, hloop] at hreport
    cases hreport
    refine ⟨(config.obligations deployment).nodup, ?_⟩
    refine loop_preserves (fun state _ =>
      Accounts (config.obligations deployment).live state.findings state.progress.live.live)
      (fun _ _ _ h => h) (fun _ _ _ h => h) (fun _ _ _ _ _ h run => run.accounts h) ?_ hloop
    rw [hfindings, hlive]
    exact Accounts.nil

/-- A client whose queries return zero every other time. -/
def waveringClient : Client (StateM Nat) where
  deploy _ _ := fun asked => (.error (.client (.unknownHandle asked)), asked)
  declare _ := fun asked => (.ok asked, asked)
  invoke call := fun asked =>
    (.ok ⟨call.target, none, call.entryPoint, [], [], .empty, []⟩, asked + 1)
  query call := fun asked =>
    (.ok ⟨call.target, none, call.entryPoint, [asked % 2], [], .empty, []⟩, asked + 1)
  snapshot := fun asked => (.ok ⟨asked⟩, asked)
  restore _ := fun asked => (.ok (), asked + 1)

/-- A contract with one function and three properties. -/
def threeProperties : Deployment where
  target := 1
  classHash := 1
  schema := ⟨[⟨"f", [], .mutating⟩],
    [⟨"p", [], .property⟩, ⟨"q", [], .property⟩, ⟨"r", [], .property⟩], .empty, .empty⟩
  baseline := ⟨0⟩
  classes := .empty
  diagnostics := []

theorem run_accounts_waveringClient :
    ∃ report,
      (run waveringClient { maxIterations := some 2 } threeProperties "f" .empty 1).1.result =
        .ok report ∧
      report.findings.length = 2 ∧ report.remaining = ["r"] ∧ report.obligations.Nodup ∧
      Accounts report.obligations report.findings report.remaining :=
  ⟨_, rfl, rfl, rfl, run_accounts waveringClient { maxIterations := some 2 } threeProperties "f"
    .empty 1 rfl⟩

end Campaign

end ContractFuzz
