import ContractFuzz.Proofs.Campaign.Iterations

namespace ContractFuzz

variable {σ : Type}

namespace Finding

/-- Lengths that a finding may have. -/
structure Fits (finding : Finding) (sequenceLength : Nat) (shrinks : Bool) : Prop where
  found : 1 ≤ finding.foundLength
  limited : finding.foundLength ≤ sequenceLength
  shortened : finding.sequence.length ≤ finding.foundLength
  whole : shrinks = false → finding.sequence.length = finding.foundLength

/-- The iteration of the last finding, or zero if there is none. -/
def lastIteration (findings : List Finding) : Nat :=
  (findings.getLast?.map Finding.iteration).getD 0

theorem lastIteration_concat (findings : List Finding) (finding : Finding) :
    lastIteration (findings ++ [finding]) = finding.iteration := by
  simp [lastIteration]

end Finding

namespace Campaign

variable {ρ : Type} {campaign : Campaign ρ} {client : Client (StateM σ)}

/-- What an iteration adds to a campaign under way. -/
inductive State.Adds (campaign : Campaign ρ) (state next : State ρ) : Prop
  | passes (findings : next.findings = state.findings)
      (live : next.progress.live = state.progress.live)
  | finds (finding : Finding) (numbered : finding.iteration = state.iteration + 1)
      (fits : finding.Fits campaign.sequenceLength campaign.shrinks)
      (findings : next.findings = state.findings ++ [finding])
      (live : next.progress.live.live.Sublist state.progress.live.live)

theorem Steps.adds {state next : State ρ} {world last : σ}
    (run : Steps campaign client state world (.ok ()) next last) :
    next.iteration = state.iteration + 1 ∧ state.Adds campaign next := by
  cases run with
  | passes iterated =>
      exact ⟨rfl, .passes rfl (iterates iterated).live_of_none⟩
  | @finds detection found middle sequence progress _ iterated settled finding hfinding =>
      obtain ⟨hsublist, hwhole⟩ := settle_sublist settled
      have hlength := (iterates iterated).length_bounds
      have hfits : finding.Fits campaign.sequenceLength campaign.shrinks := by
        subst hfinding
        refine ⟨hlength.1, hlength.2, hsublist.length_le, ?_⟩
        intro hkept
        exact congrArg List.length (hwhole hkept)
      refine ⟨rfl, .finds finding (by rw [hfinding]) hfits rfl ?_⟩
      change progress.live.live.Sublist state.progress.live.live
      rw [live_of_settled iterated settled, Obligations.live_discharge]
      exact List.filter_sublist

/-- The findings of a campaign under way, by the iterations that have made them. If no obligation
is left, the last iteration has found what was live before it. -/
structure State.Counted (campaign : Campaign ρ) (state : State ρ) : Prop where
  increasing : (state.findings.map Finding.iteration).Pairwise (· < ·)
  numbered : ∀ finding ∈ state.findings,
    1 ≤ finding.iteration ∧ finding.iteration ≤ state.iteration
  fits : ∀ finding ∈ state.findings, finding.Fits campaign.sequenceLength campaign.shrinks
  finished : state.progress.live.isEmpty = true →
    state.iteration = Finding.lastIteration state.findings

theorem Steps.counted {state next : State ρ} {world last : σ}
    (run : Steps campaign client state world (.ok ()) next last)
    (hlive : state.progress.live.isEmpty = false) (h : state.Counted campaign) :
    next.Counted campaign := by
  obtain ⟨hiteration, hadds⟩ := run.adds
  have hearlier : ∀ finding ∈ state.findings,
      1 ≤ finding.iteration ∧ finding.iteration ≤ next.iteration := by
    intro finding hfinding
    have hbounds := h.numbered finding hfinding
    omega
  cases hadds with
  | passes findings live =>
      rw [← findings] at hearlier
      refine ⟨findings ▸ h.increasing, hearlier, findings ▸ h.fits, ?_⟩
      -- What was live before the iteration is live after it.
      intro hempty
      rw [live, hlive] at hempty
      cases hempty
  | finds finding numbered fits findings live =>
      refine ⟨?_, ?_, ?_, ?_⟩
      · rw [findings, List.map_append, List.pairwise_append]
        refine ⟨h.increasing, List.pairwise_singleton _ _, ?_⟩
        intro before hbefore number hnumber
        obtain ⟨other, hother, rfl⟩ := List.mem_map.mp hbefore
        obtain rfl := List.mem_singleton.mp hnumber
        have hbounds := h.numbered other hother
        omega
      · rw [findings, List.forall_mem_append, List.forall_mem_singleton]
        exact ⟨hearlier, by omega⟩
      · rw [findings, List.forall_mem_append, List.forall_mem_singleton]
        exact ⟨h.fits, fits⟩
      · intro _
        rw [findings, Finding.lastIteration_concat, hiteration, numbered]

theorem Proceeds.counted {count : Nat} {state ended : State ρ} {world last : σ}
    (run : Proceeds campaign client count state world ended last) (h : state.Counted campaign) :
    ended.Counted campaign :=
  run.preserves (fun _ _ _ _ hlive h step => step.counted hlive h) h

theorem State.Counted.start (progress : Progress ρ) (log : Log) :
    State.Counted campaign ⟨0, [], progress, log⟩ where
  increasing := .nil
  numbered := by simp
  fits := by simp
  finished _ := rfl

theorem Proceeds.iteration {count : Nat} {state ended : State ρ} {world last : σ}
    (run : Proceeds campaign client count state world ended last) :
    ended.iteration = state.iteration + count := by
  induction run with
  | done => rfl
  | goes _ stepped _ ih =>
      have hstep := (steps stepped).adds.1
      omega

end Campaign

/-- How a report counts iterations and findings, under the settings of its campaign. -/
structure Report.Counts (report : Report) (config : Config) : Prop where
  increasing : (report.findings.map Finding.iteration).Pairwise (· < ·)
  numbered : ∀ finding ∈ report.findings,
    1 ≤ finding.iteration ∧ finding.iteration ≤ report.iterations
  limited : ∀ limit, config.maxIterations = some limit → report.iterations ≤ limit
  fits : ∀ finding ∈ report.findings, finding.Fits config.sequenceLength config.shrink
  unfinished : report.remaining ≠ [] → config.maxIterations = some report.iterations
  finished : report.remaining = [] → report.iterations = Finding.lastIteration report.findings

namespace Campaign

/-- Whatever a client answers, findings are numbered by increasing iterations up to the last one,
and fit the sequences that are made. A campaign that leaves obligations has used up its limit;
another one ends with the iteration that made the last finding. -/
theorem run_counts (client : Client (StateM σ)) (config : Config) (deployment : Deployment)
    (targetName : String) (coverage : Coverage) (world : σ) {report : Report}
    (hreport : (run client config deployment targetName coverage world).1.result = .ok report) :
    report.Counts config := by
  obtain ⟨campaign, state, log, ended, last, hprepare, hloop, rfl⟩ := run_ends hreport
  obtain ⟨generator, -, rfl, rfl⟩ := prepare_eq_ok hprepare
  obtain ⟨count, stopped, closing, run, hcount, rfl, hstopped⟩ := loop_proceeds hloop
  have hiteration := run.iteration
  rw [Nat.zero_add] at hiteration
  have hcounted := run.counted (.start _ _)
  refine ⟨hcounted.increasing, hcounted.numbered, ?_, hcounted.fits, ?_, ?_⟩
  · intro limit hlimit
    rw [Config.iterationBudget, hlimit] at hcount
    exact hiteration ▸ hcount
  · intro hremaining
    have hlive : stopped.progress.live.isEmpty = false := List.isEmpty_eq_false_iff.mpr hremaining
    obtain ⟨hlimited, hbudget⟩ := hstopped hlive
    obtain ⟨limit, hlimit⟩ := Option.isSome_iff_exists.mp hlimited
    rw [Config.iterationBudget, hlimit] at hbudget
    rw [hlimit]
    exact congrArg some (hbudget.symm.trans hiteration.symm)
  · intro hremaining
    exact hcounted.finished (List.isEmpty_iff.mpr hremaining)

theorem run_counts_waveringClient :
    (∃ report,
      (run waveringClient { maxIterations := some 2 } threeProperties "f" .empty 1).1.result =
        .ok report ∧
      report.iterations = 2 ∧ report.findings.map Finding.iteration = [1, 2] ∧
      report.remaining = ["r"] ∧ report.Counts { maxIterations := some 2 }) ∧
    ∃ report,
      (run waveringClient { maxIterations := some 9 } threeProperties "f" .empty 1).1.result =
        .ok report ∧
      report.iterations = 4 ∧ report.findings.map Finding.iteration = [1, 2, 4] ∧
      report.remaining = [] ∧ report.Counts { maxIterations := some 9 } :=
  ⟨⟨_, rfl, rfl, rfl, rfl, run_counts waveringClient { maxIterations := some 2 } threeProperties "f"
      .empty 1 rfl⟩,
    ⟨_, rfl, rfl, rfl, rfl, run_counts waveringClient { maxIterations := some 9 } threeProperties
      "f" .empty 1 rfl⟩⟩

end Campaign

end ContractFuzz
