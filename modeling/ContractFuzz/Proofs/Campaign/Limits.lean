import ContractFuzz.Proofs.Campaign.Counts
import ContractFuzz.Proofs.Campaign.Sessions
import ContractFuzz.Sandbox.Executor

namespace ContractFuzz

variable {σ : Type}

/-- The settings with another limit. -/
def Config.limitedTo (config : Config) (limit : Nat) : Config :=
  { config with maxIterations := some limit }

/-- A report that tells of the iterations up to a limit, of those that another one tells of. -/
structure Report.Begins (report whole : Report) (limit : Nat) : Prop where
  findings : report.findings = whole.findings.filter (·.iteration ≤ limit)
  iterations : report.iterations = min limit whole.iterations
  remaining : whole.remaining.Sublist report.remaining

namespace Campaign

variable {ρ : Type} {campaign : Campaign ρ} {client : Client (StateM σ)}

/-- A campaign under way that has come from an earlier state of it. -/
structure State.Extends (next state : State ρ) : Prop where
  iteration : state.iteration ≤ next.iteration
  findings : ∃ later, next.findings = state.findings ++ later ∧
    ∀ finding ∈ later, state.iteration < finding.iteration
  remaining : next.progress.live.live.Sublist state.progress.live.live

theorem Steps.extends {first state next : State ρ} {world last : σ}
    (run : Steps campaign client state world (.ok ()) next last) (h : state.Extends first) :
    next.Extends first := by
  obtain ⟨hiteration, hadds⟩ := run.adds
  obtain ⟨later, hfindings, hlater⟩ := h.findings
  have hnext : first.iteration < next.iteration := by
    have hbefore := h.iteration
    omega
  refine ⟨Nat.le_of_lt hnext, ?_, ?_⟩
  · cases hadds with
    | passes findings live => exact ⟨later, findings.trans hfindings, hlater⟩
    | finds finding numbered fits findings live =>
        refine ⟨later ++ [finding], ?_, ?_⟩
        · rw [findings, hfindings, List.append_assoc]
        · rw [List.forall_mem_append, List.forall_mem_singleton]
          exact ⟨hlater, by omega⟩
  · cases hadds with
    | passes findings live => exact live ▸ h.remaining
    | finds finding numbered fits findings live => exact live.trans h.remaining

theorem Proceeds.extends {count : Nat} {state ended : State ρ} {world last : σ}
    (run : Proceeds campaign client count state world ended last) : ended.Extends state := by
  apply run.preserves
  · intro middle _ next _ _ h step
    exact step.extends h
  · exact ⟨Nat.le_refl _, ⟨[], by simp⟩, List.Sublist.refl _⟩

theorem State.Extends.findings_filter {ended state : State ρ} (h : ended.Extends state)
    (hcounted : state.Counted campaign) :
    ended.findings.filter (·.iteration ≤ state.iteration) = state.findings := by
  obtain ⟨later, hfindings, hlater⟩ := h.findings
  rw [hfindings, List.filter_append]
  have hkept : state.findings.filter (·.iteration ≤ state.iteration) = state.findings := by
    apply List.filter_eq_self.mpr
    intro finding hfinding
    exact decide_eq_true (hcounted.numbered finding hfinding).2
  have hdropped : later.filter (·.iteration ≤ state.iteration) = [] := by
    apply List.filter_eq_nil_iff.mpr
    intro finding hfinding
    have hbeyond := hlater finding hfinding
    simp only [decide_eq_true_eq]
    omega
  rw [hkept, hdropped, List.append_nil]

theorem run_of_loop {config : Config} {deployment : Deployment} {targetName : String}
    {coverage : Coverage} {campaign : Campaign Random.Stream}
    {state ended : State Random.Stream} {log : Log} {world last : σ}
    (hprepare : prepare config deployment coverage = (.ok (campaign, state), log))
    (hloop : campaign.loop client (fun _ => pure ()) config.maxIterations.isSome
      config.iterationBudget state world = ((.ok (), ended), last)) :
    (run client config deployment targetName coverage world).1.result =
      .ok (report config deployment targetName ended) := by
  simp only [run, runObserved, hprepare, bind_apply, pure_apply, hloop]
  rfl

theorem prepare_limitedTo (config : Config) (limit : Nat) :
    prepare (config.limitedTo limit) = prepare config := rfl

theorem run_begins {config : Config} {deployment : Deployment} {targetName : String}
    {coverage : Coverage} {world : σ} {shorter longer : Nat} (hlimits : shorter ≤ longer)
    {whole : Report}
    (hwhole : (run client (config.limitedTo longer) deployment targetName coverage
      world).1.result = .ok whole) :
    ∃ report, (run client (config.limitedTo shorter) deployment targetName coverage
        world).1.result = .ok report ∧ report.Begins whole shorter := by
  obtain ⟨campaign, state, log, ended, last, hprepare, hloop, rfl⟩ := run_ends hwhole
  rw [prepare_limitedTo] at hprepare
  obtain ⟨generator, -, -, hstate⟩ := prepare_eq_ok hprepare
  obtain ⟨count, stopped, closing, course, hcount, rfl, hstopped⟩ := loop_proceeds hloop
  change count ≤ longer at hcount
  -- The shorter campaign makes the same iterations until it is stopped, by its limit or because
  -- nothing is left. In the second case the longer one has stopped with it.
  obtain ⟨rest, hrest⟩ := Nat.exists_eq_add_of_le (Nat.min_le_right shorter count)
  rw [hrest] at course
  obtain ⟨middle, reached, hfirst, hsecond⟩ := course.split
  have hmiddle : middle.progress.live.isEmpty = false → min shorter count = shorter := by
    intro hlive
    by_cases hall : min shorter count = count
    · obtain rfl : rest = 0 := by omega
      cases hsecond
      have hlonger : count = longer := (hstopped hlive).2
      omega
    · omega
  obtain ⟨closed, hshorter⟩ : ∃ closed,
      campaign.loop client (fun _ => pure ()) true shorter state world =
        ((.ok (), { middle with log := closed }), reached) :=
    hfirst.loop (Nat.min_le_left shorter count) fun hlive => ⟨rfl, hmiddle hlive⟩
  have hreport : (run client (config.limitedTo shorter) deployment targetName coverage
      world).1.result = .ok (report (config.limitedTo shorter) deployment targetName
        { middle with log := closed }) :=
    run_of_loop hprepare hshorter
  have hstart : state.Counted campaign := hstate ▸ .start _ _
  have hcounted : middle.Counted campaign ∧ stopped.Counted campaign :=
    ⟨hfirst.counted hstart, course.counted hstart⟩
  have hiterations : middle.iteration = min shorter count ∧ stopped.iteration = count := by
    have hfirst := hfirst.iteration
    have hcourse := course.iteration
    rw [hstate, Nat.zero_add] at hfirst hcourse
    exact ⟨hfirst, hcourse.trans hrest.symm⟩
  refine ⟨_, hreport, ?_, ?_, hsecond.extends.remaining⟩
  · change middle.findings = stopped.findings.filter (·.iteration ≤ shorter)
    rw [← hsecond.extends.findings_filter hcounted.1, hiterations.1]
    apply List.filter_congr
    intro finding hfinding
    have hbound := (hcounted.2.numbered finding hfinding).2
    rw [hiterations.2] at hbound
    exact decide_eq_decide.mpr (by omega)
  · change middle.iteration = min shorter stopped.iteration
    rw [hiterations.1, hiterations.2]

/-- Of the iterations of a session, a lower limit takes those up to it. The session reports
whenever the longer one does. -/
theorem session_begins (client : Client (StateM σ)) (config : Config) (target : Artifact)
    (declared : List Artifact) (targetName : String) (coverage : Coverage) (world : σ)
    {shorter longer : Nat} (hlimits : shorter ≤ longer) {whole : Report}
    (hwhole : sessionReport? client (config.limitedTo longer) target declared targetName coverage
      world = some whole) :
    ∃ report, sessionReport? client (config.limitedTo shorter) target declared targetName coverage
        world = some report ∧ report.Begins whole shorter := by
  obtain ⟨deployment, covered, log, deployed, hdeploy, hrun⟩ := sessionReport?_eq_some_iff.mp hwhole
  obtain ⟨report, hreport, hbegins⟩ := run_begins hlimits hrun
  exact ⟨report, sessionReport?_eq_some_iff.mpr ⟨_, _, _, _, hdeploy, hreport⟩, hbegins⟩

/-- Two lamps that should stay off, and a switch without a lamp. -/
def lamps : Sandbox.Program :=
  [.external "left" [] fun storage _ => .ok ({}, storage.write "left" 1),
    .external "right" [] fun storage _ => .ok ({}, storage.write "right" 1),
    .external "neither" [] fun storage _ => .ok ({}, storage),
    .property "tayt_left" fun storage _ =>
      .ok ({ returnData := [if storage.read "left" = 1 then 0 else 1] }, storage),
    .property "tayt_right" fun storage _ =>
      .ok ({ returnData := [if storage.read "right" = 1 then 0 else 1] }, storage)]

def lampsConfig : Config := { sequenceLength := 2, senders := [0] }

theorem session_begins_lamps :
    ∃ whole, sessionReport? lamps.client (lampsConfig.limitedTo 9) lamps.artifact [] "" .empty {} =
        some whole ∧
      whole.iterations = 4 ∧ whole.findings.map Finding.iteration = [1, 4] ∧
      whole.remaining = [] ∧
      ∃ report, sessionReport? lamps.client (lampsConfig.limitedTo 3) lamps.artifact [] "" .empty
          {} = some report ∧
        report.Begins whole 3 := by
  have hcounts : (sessionReport? lamps.client (lampsConfig.limitedTo 9) lamps.artifact [] "" .empty
      {}).map (fun whole =>
        (whole.iterations, whole.findings.map Finding.iteration, whole.remaining)) =
      some (4, [1, 4], []) := by decide +kernel
  obtain ⟨whole, hwhole, hcounted⟩ := Option.map_eq_some_iff.mp hcounts
  obtain ⟨hiterations, hfindings, hremaining⟩ : _ ∧ _ ∧ _ := by simpa using hcounted
  exact ⟨whole, hwhole, hiterations, hfindings, hremaining,
    session_begins lamps.client lampsConfig lamps.artifact [] "" .empty {} (by decide) hwhole⟩

end Campaign

end ContractFuzz
