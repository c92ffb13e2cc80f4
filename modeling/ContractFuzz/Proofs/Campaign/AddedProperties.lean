import ContractFuzz.Proofs.Campaign.Blame
import ContractFuzz.Proofs.Campaign.Deployments
import ContractFuzz.Proofs.Campaign.Observers
import ContractFuzz.Proofs.Campaign.Sessions

namespace ContractFuzz

open ContractFuzz.Sandbox

variable {program : Program} {name : String} {handler : Handler} {options : SchemaOptions}
  {executor deployed reached : Executor}

theorem Schema.FoundIn.name_ne {schema : Schema} (h : schema.FoundIn options program.abi)
    (hfresh : program.handler? name = none) {c : Callable}
    (hc : c ∈ schema.functions ∨ c ∈ schema.properties) : c.name ≠ name := by
  obtain ⟨entry, hentry, f, hf, hnamed⟩ := h.named hc
  rintro rfl
  rw [hnamed] at hfresh
  exact Program.handler?_ne_none hentry hf hfresh

namespace Deployment

theorem declareAll_withProperty (declared : List Artifact) (classes : ClassTable) :
    declareAll (program.withProperty name handler).client declared classes =
      declareAll program.client declared classes := by
  have hdeclare (artifact : Artifact) : (program.withProperty name handler).client.declare artifact =
      program.client.declare artifact := rfl
  induction declared generalizing classes with
  | nil => rfl
  | cons artifact rest ih => simp only [declareAll, hdeclare, ih]

theorem classOf_withProperty (frame : Frame) :
    classOf (program.withProperty name handler).client (program.withProperty name handler).artifact
        frame executor =
      classOf program.client program.artifact frame executor := by
  rw [classOf, classOf]
  cases frame.classHash with
  | some classHash => rfl
  | none => rfl

theorem deploy_withProperty (hname : name ≠ Declaration.constructorName)
    (hmarked : options.marksProperty name = true) {declared : List Artifact}
    {coverage covered coveredNext : Coverage} {log records : Log} {deployment watched : Deployment}
    (h : deploy program.client program.artifact declared options coverage executor =
      ((.ok deployment, covered, log), deployed))
    (hwatched : deploy (program.withProperty name handler).client
      (program.withProperty name handler).artifact declared options coverage executor =
      ((.ok watched, coveredNext, records), reached)) :
    watched.site = deployment.site ∧ watched.schema = deployment.schema.withProperty name ∧
      reached = deployed := by
  obtain ⟨classes, frame, classHash, schema, baseline, ready, constructed, known, hdeclare,
    hdeploy, hclass, hdiscover, hsnapshot, rfl⟩ := deploy_eq_ok h
  obtain ⟨_, _, _, _, _, _, _, _, hdeclared, hdeployed, hclassed, hdiscovered, hsaved, rfl⟩ :=
    deploy_eq_ok hwatched
  rw [declareAll_withProperty, hdeclare] at hdeclared
  cases hdeclared
  have hsame : (program.withProperty name handler).client.deploy
      (program.withProperty name handler).artifact [] ready = (.ok frame, constructed) :=
    (Program.deploy_withProperty hname [] ready).trans hdeploy
  rw [hsame] at hdeployed
  cases hdeployed
  rw [classOf_withProperty, hclass] at hclassed
  cases hclassed
  have hextended : (Schema.discover (program.withProperty name handler).artifact.abi
      (declared.map Artifact.abi) options).1 = .ok (schema.withProperty name) := by
    change (Schema.discover (program.withProperty name handler).abi _ options).1 = _
    rw [Program.abi_withProperty]
    exact Schema.discover_concat_property (Program.role_propertyFunction hmarked) hdiscover
  rw [hextended] at hdiscovered
  cases hdiscovered
  have hsnapshots : (program.withProperty name handler).client.snapshot known =
      (.ok baseline, deployed) := hsnapshot
  rw [hsnapshots] at hsaved
  cases hsaved
  exact ⟨rfl, rfl, rfl⟩

end Deployment

namespace Campaign

theorem run_watches {config : Config} (hmode : config.mode = .property)
    {deployment other : Deployment} (hsite : other.site = deployment.site)
    (hschema : other.schema = deployment.schema.withProperty name)
    (hnew : ∀ c, c ∈ deployment.schema.functions ∨ c ∈ deployment.schema.properties →
      c.name ≠ name)
    {extended : Program}
    (hhost : ∀ deployed, Host.Watches ⟨extended, deployed⟩ ⟨program, deployed⟩ deployment.target
      config.propertySender name)
    {targetName : String} {coverage covered : Coverage} {report watched : Report}
    (hreport : (run program.client config deployment targetName coverage executor).1.result =
      .ok report)
    (hwatched : (run extended.client config other targetName covered executor).1.result =
      .ok watched) :
    watched.findings.map Finding.unnumbered = report.findings.map Finding.unnumbered ∧
      watched.obligations = report.obligations ++ [name] ∧
      watched.remaining = report.remaining ++ [name] := by
  obtain ⟨campaign, state, log, ended, last, hprepare, hloop, rfl⟩ := run_ends hreport
  obtain ⟨_, _, records, otherEnded, reached, hprepared, hother, rfl⟩ := run_ends hwatched
  obtain ⟨generator, hgenerator, rfl, rfl⟩ := prepare_eq_ok hprepare
  obtain ⟨_, hgenerated, rfl, rfl⟩ := prepare_eq_ok hprepared
  rw [hgenerator] at hgenerated
  cases hgenerated
  have horacle : config.oracle other = config.oracle deployment := by
    have htarget : other.target = deployment.target := congrArg Site.target hsite
    rw [Config.oracle_property hmode, Config.oracle_property hmode, htarget]
  have hlive : (config.obligations other).live = (config.obligations deployment).live ++ [name] := by
    have hobligations (deployment : Deployment) :
        config.obligations deployment = .ofList deployment.schema.propertyNames := by
      rw [Config.obligations, hmode]
    have hname : name ∉ deployment.schema.propertyNames := by
      intro hmem
      obtain ⟨c, hc, hcalled⟩ := List.mem_map.mp hmem
      exact hnew c (.inr hc) hcalled
    rw [hobligations, hobligations, hschema, Schema.propertyNames_withProperty,
      Obligations.live_ofList_concat hname]
  have hadmits : Admits ⟨deployment.site, deployment.schema, config.oracle deployment, generator,
      config.sequenceLength, config.shrink⟩ (deployment.schema.withProperty name)
      deployment.target config.propertySender name :=
    ⟨rfl, rfl, Config.oracle_property hmode deployment, fun c hc => hnew c (.inl hc)⟩
  have hstart : State.Watches
      ⟨0, [], ⟨Random.Stream.ofSeed config.seed, config.obligations other, covered⟩, records⟩
      ⟨0, [], ⟨.ofSeed config.seed, config.obligations deployment, coverage⟩, log⟩ name :=
    ⟨rfl, rfl, hlive, rfl⟩
  rw [hsite, hschema, horacle] at hother
  obtain ⟨hfindings, hremaining⟩ := loop_watches hadmits hhost hstart hloop hother
  exact ⟨hfindings, hlive, hremaining⟩

/-- Properties are pure observers. Whatever one more property writes, emits or fails with, as long
as it never returns zero the session finds what it finds without it, up to the numbers of events,
and has the new property left after all others. -/
theorem session_watches {config : Config} (hmode : config.mode = .property)
    (hfresh : program.handler? name = none)
    (hmarked : config.schemaOptions.marksProperty name = true)
    (hallowed : name ∉ config.effectiveBlacklist)
    (hquiet : ∀ storage outcome next,
      handler storage ⟨name, [], config.propertySender, .external⟩ = .ok (outcome, next) →
        outcome.returnData ≠ [0])
    {declared : List Artifact} {targetName : String} {coverage : Coverage}
    {report watched : Report}
    (hreport : sessionReport? program.client config program.artifact declared targetName coverage
      executor = some report)
    (hwatched : sessionReport? (program.withProperty name handler).client config
      (program.withProperty name handler).artifact declared targetName coverage executor =
      some watched) :
    watched.findings.map Finding.unnumbered = report.findings.map Finding.unnumbered ∧
      watched.obligations = report.obligations ++ [name] ∧
      watched.remaining = report.remaining ++ [name] := by
  obtain ⟨deployment, covered, log, deployed, hdeploy, hrun⟩ :=
    sessionReport?_eq_some_iff.mp hreport
  obtain ⟨other, otherCovered, records, reached, hdeployed, hother⟩ :=
    sessionReport?_eq_some_iff.mp hwatched
  -- A constructor would be run by the deployment, but its name is always blacklisted.
  have hname : name ≠ Declaration.constructorName := by
    rintro rfl
    exact hallowed (SortedSet.mem_foldl_insert.mpr (.inr (by decide)))
  obtain ⟨hsite, hschema, rfl⟩ := Deployment.deploy_withProperty hname hmarked hdeploy hdeployed
  exact run_watches hmode hsite hschema
    (fun _ hc => (Deployment.foundIn_of_deploy hdeploy).name_ne hfresh hc)
    (fun deployed => Program.watches_withProperty hfresh hquiet deployed deployment.target)
    hrun hother

/-- A bell that ought to be quiet. -/
def belfry : Program :=
  [.external "ring" [] fun storage _ => .ok ({ events := [⟨"Rung", []⟩] }, storage.write "rung" 1),
    .external "wait" [] fun storage _ => .ok ({}, storage),
    .property "tayt_quiet" fun storage _ =>
      .ok ({ returnData := [if storage.read "rung" = 1 then 0 else 1] }, storage)]

/-- A property that rings the bell on its own, and fails if that has been done already. -/
def rings : Handler := fun storage _ =>
  if storage.read "rung" = 1 then .error "too loud"
  else .ok ({ returnData := [7], events := [⟨"Asked", []⟩] }, storage.write "rung" 1)

theorem rings_quiet {storage next : Storage} {call : HandlerCall} {outcome : Outcome}
    (h : rings storage call = .ok (outcome, next)) : outcome.returnData ≠ [0] := by
  rw [rings] at h
  split at h
  · cases h
  · cases h
    decide

def belfryConfig : Config := { sequenceLength := 3, senders := [0], maxIterations := some 4 }

/-- How many iterations a report counts, and the numbers of the events in its findings. -/
def eventOrders (report : Report) : Nat × List (List Nat) :=
  (report.iterations,
    report.findings.map fun finding => finding.sequence.flatMap (·.events.map Event.order))

theorem session_watches_belfry :
    ∃ report watched,
      sessionReport? belfry.client belfryConfig belfry.artifact [] "" .empty {} = some report ∧
      sessionReport? (belfry.withProperty "tayt_rings" rings).client belfryConfig
        (belfry.withProperty "tayt_rings" rings).artifact [] "" .empty {} = some watched ∧
      eventOrders report = (1, [[0]]) ∧ eventOrders watched = (4, [[1]]) ∧
      watched.findings.map Finding.unnumbered = report.findings.map Finding.unnumbered ∧
      watched.obligations = report.obligations ++ ["tayt_rings"] ∧
      watched.remaining = report.remaining ++ ["tayt_rings"] := by
  have horders : (sessionReport? belfry.client belfryConfig belfry.artifact [] "" .empty
      {}).map eventOrders = some (1, [[0]]) := by decide +kernel
  have hwatched : (sessionReport? (belfry.withProperty "tayt_rings" rings).client belfryConfig
      (belfry.withProperty "tayt_rings" rings).artifact [] "" .empty {}).map eventOrders =
      some (4, [[1]]) := by decide +kernel
  obtain ⟨report, hreport, hfirst⟩ := Option.map_eq_some_iff.mp horders
  obtain ⟨watched, hsession, hsecond⟩ := Option.map_eq_some_iff.mp hwatched
  have hallowed : "tayt_rings" ∉ belfryConfig.effectiveBlacklist := by
    rw [← SortedSet.contains_iff_mem]
    decide +kernel
  exact ⟨report, watched, hreport, hsession, hfirst, hsecond,
    session_watches rfl (by decide +kernel) (by decide +kernel) hallowed
      (fun _ _ _ h => rings_quiet h) hreport hsession⟩

end Campaign

end ContractFuzz
