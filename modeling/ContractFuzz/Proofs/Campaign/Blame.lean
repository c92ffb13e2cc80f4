import ContractFuzz.Proofs.Campaign.Provenance

namespace ContractFuzz

open ContractFuzz.Sandbox
open Executor (Alike)

/-- The properties, of those named, that are found broken where a replay from the baseline leads. -/
def Replay.broken {m : Type → Type} [Monad m] (client : Client m) (site : Site) (sender : Felt)
    (names : List String) (sequence : List RecordedCall) :
    m (Except CampaignError (List String)) := do
  match ← Replay.run client site (fun _ => false) sequence with
  | .error e => return .error e
  | .ok _ =>
      let (result, _) ← Oracle.queryProperties client site.target sender names .empty
      return result.map fun violations => violations.map Violation.obligation

theorem Sandbox.Host.replay_stopped (host : Host) (target : InstanceId) (storage : Storage)
    (sequence : List RecordedCall) :
    (host.replay target (fun _ => false) storage sequence).stopped = false := by
  induction sequence generalizing storage with
  | nil => rfl
  | cons step rest ih =>
      rcases hrespond : host.respond (step.call.invocation target) storage with
        r | ⟨outcome, next⟩
      · rw [Host.replay_of_error hrespond, if_neg Bool.false_ne_true]
        exact ih storage
      · rw [Host.replay_of_ok hrespond]
        exact ih next

theorem Goal.isShownBy_properties {goal : Goal} {target : InstanceId} {sender : Felt}
    (h : goal.oracle = .properties target sender) : goal.isShownBy = fun _ => false := by
  funext r
  rw [isShownBy, h]
  rfl

/-- A finding blames the properties that the calls `found` break. Those that its own sequence breaks
may be others, but there are as many, and at least one. -/
structure Finding.Blames {σ : Type} (finding : Finding) (client : Client (StateM σ)) (site : Site)
    (sender : Felt) (live : List String) (found : List RecordedCall) (world : σ) : Prop where
  named : (Replay.broken client site sender live found world).1 =
    .ok (finding.violations.map Violation.obligation)
  counted : ∃ names, (Replay.broken client site sender live finding.sequence world).1 = .ok names ∧
    names ≠ [] ∧ names.length = finding.violations.length

variable {program : Program} {executor : Executor}

theorem Replay.broken_eq (program : Program) (site : Site) {baseline : Storage} (sender : Felt)
    (names : List String) (sequence : List RecordedCall)
    (hbaseline : executor.snapshots[site.baseline.id]? = some baseline) :
    (Replay.broken program.client site sender names sequence executor).1 =
      .ok (names.filter ((executor.host program).breaks site.target sender
        ((executor.host program).replay site.target (fun _ => false) baseline
          sequence).storage)) := by
  obtain ⟨replay, next, hrun, -, hstorage, halike⟩ :=
    Executor.run_takes program (fun _ => false) sequence hbaseline
  obtain ⟨violations, after, last, hquery, hviolations, -, -⟩ :=
    Executor.queryProperties_violated program site.target sender names .empty next
  rw [halike.host_eq, hstorage] at hviolations
  simp only [Replay.broken, bind_apply, pure_apply, hrun, hquery, Except.map, hviolations]

namespace Campaign

/-- Calls that lead to violations of properties lead to a storage that breaks exactly these. -/
theorem Leads.violated {host : Host} {target queried : InstanceId} {sender : Felt}
    {live : Obligations} {storage last : Storage} {sequence : List RecordedCall}
    {violations : List Violation}
    (h : Leads host target (.properties queried sender) live storage sequence violations last) :
    violations ≠ [] ∧
      violations.map Violation.obligation = live.live.filter (host.breaks queried sender last) := by
  induction h with
  | breaks _ violated ne => exact ⟨ne, violated⟩
  | raises _ inspected => cases inspected
  | goes _ _ ih => exact ih

end Campaign

namespace Finding.Arises

variable {finding : Finding} {host : Host} {target queried : InstanceId} {sender : Felt}
  {live : Obligations} {shrinks : Bool} {baseline : Storage} {found : List RecordedCall}

theorem violated_found
    (h : finding.Arises host target (.properties queried sender) live shrinks baseline found) :
    live.live.filter (host.breaks queried sender
        (host.replay target (fun _ => false) baseline found).storage) =
      finding.violations.map Violation.obligation := by
  obtain ⟨last, hleads⟩ := h.leads
  -- All calls of the sequence go through again, so its replay ends where they have led.
  obtain ⟨outcomes, hreplay, -⟩ := hleads.replay_properties fun _ => false
  rw [hreplay, hleads.violated.2]

theorem violated_sequence
    (h : finding.Arises host target (.properties queried sender) live shrinks baseline found) :
    let broken := live.live.filter (host.breaks queried sender
      (host.replay target (fun _ => false) baseline finding.sequence).storage)
    broken ≠ [] ∧ broken.length = finding.violations.length := by
  have hshows := h.shows
  have hstopped := Host.replay_stopped host target baseline finding.sequence
  rw [Host.shows, Goal.isShownBy_properties rfl, hstopped, Bool.false_or, Host.meets,
    Bool.and_eq_true, beq_iff_eq, Bool.not_eq_true', List.isEmpty_eq_false_iff] at hshows
  exact hshows

end Finding.Arises

theorem Config.oracle_property {config : Config} (h : config.mode = .property)
    (deployment : Deployment) :
    config.oracle deployment = .properties deployment.target config.propertySender := by
  rw [Config.oracle, h]

namespace Campaign

/-- The sequence of a finding breaks as many of the properties that were live when it was made as
the finding names. It has been taken from a sequence that broke exactly those, and is that sequence
unless calls have been left out. -/
theorem run_blames {config : Config} (hmode : config.mode = .property) {deployment : Deployment}
    {targetName : String} {coverage : Coverage} {report : Report}
    (hreport : (run program.client config deployment targetName coverage executor).1.result =
      .ok report)
    {earlier later : List Finding} {finding : Finding}
    (hfindings : report.findings = earlier ++ finding :: later) :
    ∃ found, finding.sequence.Sublist found ∧ found.length = finding.foundLength ∧
      ∀ replayer, Alike replayer executor →
        finding.Blames program.client deployment.site config.propertySender
          (report.obligations.filter (· ∉ Finding.obligations earlier)) found replayer := by
  obtain ⟨live, baseline, found, hlive, hbaseline, harises⟩ := run_arises hreport hfindings
  rw [Config.oracle_property hmode] at harises
  refine ⟨found, harises.sublist, harises.foundLength.symm, fun replayer halike => ?_⟩
  rw [← halike.snapshots] at hbaseline
  rw [← halike.host_eq] at harises
  have hbroken (sequence : List RecordedCall) :=
    Replay.broken_eq program deployment.site config.propertySender live.live sequence hbaseline
  rw [← hlive]
  refine ⟨?_, _, hbroken finding.sequence, harises.violated_sequence⟩
  exact (hbroken found).trans (congrArg Except.ok harises.violated_found)

/-- A tank that breaks one property when it is drained open and another when it is drained shut. -/
def tank : Program :=
  [.external "open" [] fun storage _ => .ok ({}, storage.write "open" 1),
    .external "drain" [] fun storage _ => .ok ({}, storage.write "drained" 1),
    .property "tayt_sealed" fun storage _ =>
      let leaks := storage.read "open" = 1 ∧ storage.read "drained" = 1
      .ok ({ returnData := [if leaks then 0 else 1] }, storage),
    .property "tayt_steady" fun storage _ =>
      let bursts := storage.read "open" = 0 ∧ storage.read "drained" = 1
      .ok ({ returnData := [if bursts then 0 else 1] }, storage)]

theorem run_blames_tank :
    ∃ deployment executor report finding found,
      runFresh? tank briefConfig = some (deployment, executor, report) ∧
      report.findings = [finding] ∧ finding.sequence.Sublist found ∧
      found.length = finding.foundLength ∧
      finding.Blames tank.client deployment.site briefConfig.propertySender
        (report.obligations.filter (· ∉ Finding.obligations [])) found executor := by
  have hone : (runFresh? tank briefConfig).map (fun run => run.2.2.findings.length) = some 1 := by
    decide +kernel
  obtain ⟨deployment, executor, report, finding, coverage, hrun, hfinding, hreport⟩ :=
    runFresh?_of_length hone
  have hfindings : report.findings = [] ++ finding :: [] := hfinding
  obtain ⟨found, hsublist, hfound, hblames⟩ := run_blames rfl hreport hfindings
  exact ⟨deployment, executor, report, finding, found, hrun, hfinding, hsublist, hfound,
    hblames executor (.refl executor)⟩

/-- The tank is drained open and `tayt_sealed` is blamed, but the one call that is reported drains
it shut, by which only `tayt_steady` is broken. -/
theorem tank_breaks_another :
    ∃ deployment executor report finding,
      runFresh? tank briefConfig = some (deployment, executor, report) ∧
      report.findings = [finding] ∧
      finding.violations.map Violation.obligation = ["tayt_sealed"] ∧
      finding.sequence.map (fun step => step.call.function) = ["drain"] ∧
      (Replay.broken tank.client deployment.site briefConfig.propertySender report.obligations
        finding.sequence executor).1 = .ok ["tayt_steady"] := by
  have hshown : (runFresh? tank briefConfig).map (fun (deployment, executor, report) =>
      report.findings.map fun finding =>
        (finding.violations.map Violation.obligation,
          finding.sequence.map (fun step => step.call.function),
          (Replay.broken tank.client deployment.site briefConfig.propertySender report.obligations
            finding.sequence executor).1)) =
      some [(["tayt_sealed"], ["drain"], .ok ["tayt_steady"])] := by decide +kernel
  obtain ⟨⟨deployment, executor, report⟩, hrun, hfindings⟩ := Option.map_eq_some_iff.mp hshown
  obtain ⟨finding, hfinding, hfacts⟩ := List.map_eq_singleton_iff.mp hfindings
  simp only [Prod.mk.injEq] at hfacts
  exact ⟨deployment, executor, report, finding, hrun, hfinding, hfacts⟩

end Campaign

end ContractFuzz
