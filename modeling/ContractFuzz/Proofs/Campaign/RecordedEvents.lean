import ContractFuzz.Proofs.Campaign.Provenance

namespace ContractFuzz

/-- The events of the calls of a replay that went through. -/
def Replay.events (replay : Replay) : List (List Event) :=
  replay.outcomes.filterMap fun
    | .ok frame => some frame.sortedEvents
    | .error _ => none

namespace Campaign

open ContractFuzz.Sandbox
open Executor (Alike)

variable {program : Program} {executor : Executor}

/-- The calls of a finding have been taken, with their events, from a sequence that emits these
events whenever it is replayed, and so does every part of it that begins at the baseline. Without
shrinking, that sequence is the one reported. -/
theorem run_records {config : Config} {deployment : Deployment} {targetName : String}
    {coverage : Coverage} {report : Report}
    (hreport : (run program.client config deployment targetName coverage executor).1.result =
      .ok report)
    {finding : Finding} (hfinding : finding ∈ report.findings) :
    ∃ found, finding.sequence.Sublist found ∧ found.length = finding.foundLength ∧
      (config.shrink = false → finding.sequence = found) ∧
      ∀ calls, calls <+: found → ∀ replayer, Alike replayer executor →
        Replay.Confirms program.client deployment.site calls replayer := by
  obtain ⟨earlier, later, hfindings⟩ := List.append_of_mem hfinding
  obtain ⟨live, baseline, found, -, hbaseline, harises⟩ := run_arises hreport hfindings
  refine ⟨found, harises.sublist, harises.foundLength.symm, fun hshrink => ?_, ?_⟩
  · rw [harises.sequence, hshrink, if_neg Bool.false_ne_true]
  · rintro calls ⟨rest, rfl⟩ replayer halike
    have hrecords := harises.records.of_append
    rw [← halike.snapshots] at hbaseline
    rw [← halike.host_eq] at hrecords
    exact hrecords.confirms hbaseline

/-- A cannon that tells, when it is fired, how often it has been loaded. -/
def cannon : Program :=
  [.external "load" [] fun storage _ =>
      .ok ({}, storage.write "loaded" (storage.read "loaded" + 1)),
    .external "fire" [] fun storage _ =>
      .ok ({ events := [⟨"Fired", [storage.read "loaded"]⟩] }, storage.write "fired" 1),
    .event "Fired",
    .property "tayt_unfired" fun storage _ =>
      .ok ({ returnData := [if storage.read "fired" = 0 then 1 else 0] }, storage)]

theorem run_records_cannon :
    ∃ deployment executor report finding found,
      runFresh? cannon briefConfig = some (deployment, executor, report) ∧
      finding ∈ report.findings ∧ finding.sequence.Sublist found ∧
      found.length = finding.foundLength ∧
      Replay.Confirms cannon.client deployment.site found executor := by
  have hone : (runFresh? cannon briefConfig).map (fun run => run.2.2.findings.length) =
      some 1 := by decide +kernel
  obtain ⟨deployment, executor, report, finding, coverage, hrun, hfindings, hreport⟩ :=
    runFresh?_of_length hone
  have hfinding : finding ∈ report.findings := hfindings ▸ List.mem_singleton_self finding
  obtain ⟨found, hsublist, hfound, -, hconfirms⟩ := run_records hreport hfinding
  exact ⟨deployment, executor, report, finding, found, hrun, hfinding, hsublist, hfound,
    hconfirms found (List.prefix_refl found) executor (.refl executor)⟩

/-- The one call that is reported has recorded that the cannon was loaded, since it was when the
call was found. Alone, the call tells that it was not. -/
theorem cannon_tells_otherwise :
    ∃ deployment executor report finding,
      runFresh? cannon briefConfig = some (deployment, executor, report) ∧
      report.findings = [finding] ∧
      finding.sequence.map (fun step => (step.call.function, step.events.map Event.data)) =
        [("fire", [[1]])] ∧
      (Replay.run cannon.client deployment.site (fun _ => false) finding.sequence executor).1.map
          (fun replay => replay.events.map fun events => events.map Event.data) =
        .ok [[[0]]] := by
  have hrecorded : (runFresh? cannon briefConfig).map (fun run =>
      run.2.2.findings.map fun finding =>
        finding.sequence.map fun step => (step.call.function, step.events.map Event.data)) =
      some [[("fire", [[1]])]] := by decide +kernel
  have hreplayed : (runFresh? cannon briefConfig).map (fun (deployment, executor, report) =>
      report.findings.map fun finding =>
        (Replay.run cannon.client deployment.site (fun _ => false) finding.sequence executor).1.map
          fun replay => replay.events.map fun events => events.map Event.data) =
      some [.ok [[[0]]]] := by decide +kernel
  obtain ⟨⟨deployment, executor, report⟩, hrun, hfindings⟩ := Option.map_eq_some_iff.mp hrecorded
  obtain ⟨finding, hfinding, hcalls⟩ := List.map_eq_singleton_iff.mp hfindings
  have hfinding : report.findings = [finding] := hfinding
  simp only [hrun, hfinding, Option.map_some, List.map_singleton, Option.some.injEq,
    List.cons.injEq, and_true] at hreplayed
  exact ⟨deployment, executor, report, finding, hrun, hfinding, hcalls, hreplayed⟩

end Campaign

end ContractFuzz
