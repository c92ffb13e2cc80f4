import ContractFuzz.Campaign.Shrinking
import ContractFuzz.Proofs.Campaign.Runs
import ContractFuzz.Proofs.Sandbox.Twins
import Mathlib.Data.List.Forall2

/-!
Replays in process: the baseline and the calls alone decide how a replay goes, where it ends and
whether it shows the violations looked for, whatever the executor did before.
-/

namespace ContractFuzz.Sandbox

/-- What came of the calls of a replay, whether a revert stopped it, and the storage at its end. -/
structure Course where
  outcomes : List (Except Revert Outcome)
  stopped : Bool
  storage : Storage

/-- The course with one more outcome in front. -/
def Course.after (outcome : Except Revert Outcome) (course : Course) : Course :=
  { course with outcomes := outcome :: course.outcomes }

namespace Host

def replay (host : Host) (target : InstanceId) (stops : Revert → Bool) :
    Storage → List RecordedCall → Course
  | storage, [] => ⟨[], false, storage⟩
  | storage, step :: rest =>
      match host.respond (step.call.invocation target) storage with
      | .ok (outcome, next) => (replay host target stops next rest).after (.ok outcome)
      | .error r =>
          if stops r then ⟨[.error r], true, storage⟩
          else (replay host target stops storage rest).after (.error r)

variable {host : Host} {target : InstanceId} {stops : Revert → Bool} {storage : Storage}
  {step : RecordedCall} {rest : List RecordedCall}

theorem replay_of_ok {outcome : Outcome} {next : Storage}
    (h : host.respond (step.call.invocation target) storage = .ok (outcome, next)) :
    host.replay target stops storage (step :: rest) =
      (host.replay target stops next rest).after (.ok outcome) := by
  rw [replay, h]

theorem replay_of_error {r : Revert}
    (h : host.respond (step.call.invocation target) storage = .error r) :
    host.replay target stops storage (step :: rest) =
      if stops r then ⟨[.error r], true, storage⟩
      else (host.replay target stops storage rest).after (.error r) := by
  rw [replay, h]

/-- Whether a storage breaks as many properties as were found broken. -/
def meets (host : Host) (goal : Goal) (storage : Storage) : Bool :=
  let broken := host.violated goal.live storage goal.oracle
  !broken.isEmpty && broken.length == goal.violations.length

/-- Whether a sequence shows the violations looked for, from a baseline. -/
def shows (host : Host) (target : InstanceId) (goal : Goal) (baseline : Storage)
    (sequence : List RecordedCall) : Bool :=
  let course := host.replay target goal.isShownBy baseline sequence
  course.stopped || host.meets goal course.storage

variable {goal : Goal}

theorem isMetBy_eq_meets {violations : List Violation}
    (h : violations.map Violation.obligation = host.violated goal.live storage goal.oracle) :
    goal.isMetBy violations = host.meets goal storage := by
  rcases goal with ⟨oracle, live, found⟩
  cases oracle with
  | properties target sender =>
      rw [Host.meets, ← h, List.isEmpty_map, List.length_map]
      rfl
  | exceptions signatures =>
      have hnil : violations = [] := List.map_eq_nil_iff.mp h
      subst hnil
      rfl

theorem shows_of_ok {outcome : Outcome} {next : Storage}
    (h : host.respond (step.call.invocation target) storage = .ok (outcome, next)) :
    host.shows target goal storage (step :: rest) = host.shows target goal next rest := by
  rw [shows, replay_of_ok h]
  rfl

theorem shows_of_stop {r : Revert}
    (h : host.respond (step.call.invocation target) storage = .error r)
    (hstop : goal.isShownBy r = true) :
    host.shows target goal storage (step :: rest) = true := by
  rw [shows, replay_of_error h, if_pos hstop]
  rfl

theorem shows_of_pass {r : Revert}
    (h : host.respond (step.call.invocation target) storage = .error r)
    (hpass : ¬goal.isShownBy r = true) :
    host.shows target goal storage (step :: rest) = host.shows target goal storage rest := by
  rw [shows, replay_of_error h, if_neg hpass]
  rfl

end Host

namespace Host

/-- The violation that a property makes of a storage in which its query returns exactly zero. Its
events have no numbers. -/
def violation? (host : Host) (target : InstanceId) (sender : Felt) (storage : Storage)
    (name : String) : Option Violation :=
  match host.respond (Oracle.propertyQuery target sender name) storage with
  | .ok (outcome, _) =>
      if outcome.returnData = [0] then
        some (.property name (outcome.events.map Emission.event))
      else none
  | .error _ => none

/-- The violations in a storage, in the order in which the obligations are live. -/
def violations (host : Host) (live : Obligations) (storage : Storage) : Oracle → List Violation
  | .properties target sender => live.live.filterMap (host.violation? target sender storage)
  | .exceptions _ => []

variable {host : Host} {target : InstanceId} {sender : Felt} {storage : Storage} {name : String}

theorem violation?_of_ok {outcome : Outcome} {next : Storage}
    (h : host.respond (Oracle.propertyQuery target sender name) storage = .ok (outcome, next)) :
    host.violation? target sender storage name =
      if outcome.returnData = [0] then some (.property name (outcome.events.map Emission.event))
      else none := by
  rw [violation?, h]

theorem violation?_of_error {r : Revert}
    (h : host.respond (Oracle.propertyQuery target sender name) storage = .error r) :
    host.violation? target sender storage name = none := by
  rw [violation?, h]

theorem map_obligation_violation? :
    (host.violation? target sender storage name).map Violation.obligation =
      if host.breaks target sender storage name then some name else none := by
  rw [breaks]
  rcases hrespond : host.respond (Oracle.propertyQuery target sender name) storage with
    r | ⟨outcome, next⟩
  · rw [violation?_of_error hrespond]
    rfl
  · rw [violation?_of_ok hrespond]
    by_cases hzero : outcome.returnData = [0]
    · rw [if_pos hzero, if_pos (beq_iff_eq.mpr hzero)]
      rfl
    · rw [if_neg hzero, if_neg (mt beq_iff_eq.mp hzero)]
      rfl

theorem map_obligation_filterMap (names : List String) :
    (names.filterMap (host.violation? target sender storage)).map Violation.obligation =
      names.filter (host.breaks target sender storage) := by
  rw [List.map_filterMap, ← List.filterMap_eq_filter]
  refine List.filterMap_congr fun name _ => ?_
  rw [map_obligation_violation?, Option.guard]

theorem map_obligation_violations (live : Obligations) (storage : Storage) (oracle : Oracle) :
    (host.violations live storage oracle).map Violation.obligation =
      host.violated live storage oracle := by
  cases oracle with
  | properties target sender => exact map_obligation_filterMap live.live
  | exceptions signatures => rfl

end Host

/-- A frame shows an outcome, whatever number its first event has. -/
inductive ShowsOutcome (program : Program) : Except Revert Frame → Except Revert Outcome → Prop
  | ok (target : InstanceId) (call : HandlerCall) (outcome : Outcome) (firstEvent : Nat) :
      ShowsOutcome program (.ok (Executor.frame program target call outcome firstEvent))
        (.ok outcome)
  | error (r : Revert) : ShowsOutcome program (.error r) (.error r)

/-- A replay is reported as it went. -/
structure Takes (program : Program) (replay : Replay) (course : Course) : Prop where
  stopped : replay.stopped = course.stopped
  outcomes : List.Forall₂ (ShowsOutcome program) replay.outcomes course.outcomes

theorem Takes.after {program : Program} {replay : Replay} {course : Course}
    (h : Takes program replay course) {actual : Except Revert Frame}
    {outcome : Except Revert Outcome} (houtcome : ShowsOutcome program actual outcome) :
    Takes program (replay.after actual) (course.after outcome) :=
  ⟨h.stopped, .cons houtcome h.outcomes⟩

namespace Executor

variable (program : Program) {executor : Executor}

theorem calls_takes (target : InstanceId) (stops : Revert → Bool) (sequence : List RecordedCall)
    (executor : Executor) :
    ∃ replay next, Replay.calls program.client target stops sequence executor =
        (.ok replay, next) ∧
      Takes program replay
        ((host program executor).replay target stops executor.storage sequence) ∧
      next.storage =
        ((host program executor).replay target stops executor.storage sequence).storage ∧
      Alike next executor := by
  induction sequence generalizing executor with
  | nil => exact ⟨_, _, rfl, ⟨rfl, .nil⟩, rfl, .refl executor⟩
  | cons step rest ih =>
      rcases hrespond : (host program executor).respond (step.call.invocation target)
        executor.storage with r | ⟨outcome, storage⟩
      · obtain ⟨next, answer, hstorage, hnext⟩ := invoke_of_error hrespond
        rw [Host.replay_of_error hrespond]
        by_cases hstops : stops r = true
        · refine ⟨⟨[.error r], true⟩, next, ?_, ?_, ?_, hnext⟩
          · simp only [Replay.calls, bind_apply, pure_apply, answer, hstops, if_true]
          · rw [if_pos hstops]
            exact ⟨rfl, .cons (.error r) .nil⟩
          · rw [if_pos hstops, hstorage]
        · obtain ⟨replay, last, hcalls, htakes, hlast, halike⟩ := ih next
          rw [hnext.host_eq, hstorage] at htakes hlast
          refine ⟨replay.after (.error r), last, ?_, ?_, ?_, halike.trans hnext⟩
          · simp only [Replay.calls, bind_apply, answer, if_neg hstops, hcalls]
            rfl
          · rw [if_neg hstops]
            exact htakes.after (.error r)
          · rw [if_neg hstops]
            exact hlast
      · obtain ⟨next, answer, hstorage, hnext⟩ := invoke_of_ok hrespond
        obtain ⟨replay, last, hcalls, htakes, hlast, halike⟩ := ih next
        rw [hnext.host_eq, hstorage] at htakes hlast
        rw [Host.replay_of_ok hrespond]
        have hshows : ShowsOutcome program _ (.ok outcome) :=
          .ok target (handlerCall (step.call.invocation target)) outcome executor.nextEvent
        refine ⟨_, last, ?_, htakes.after hshows, hlast, halike.trans hnext⟩
        simp only [Replay.calls, bind_apply, answer, hcalls]
        rfl

theorem run_takes {site : Site} {baseline : Storage} (stops : Revert → Bool)
    (sequence : List RecordedCall)
    (hbaseline : executor.snapshots[site.baseline.id]? = some baseline) :
    ∃ replay next, Replay.run program.client site stops sequence executor = (.ok replay, next) ∧
      Takes program replay
        ((host program executor).replay site.target stops baseline sequence) ∧
      next.storage = ((host program executor).replay site.target stops baseline sequence).storage ∧
      Alike next executor := by
  obtain ⟨restored, answer, hstorage, hrestored⟩ := restore_of_some program hbaseline
  obtain ⟨replay, next, hcalls, htakes, hnext, halike⟩ :=
    calls_takes program site.target stops sequence restored
  rw [hrestored.host_eq, hstorage] at htakes hnext
  refine ⟨replay, next, ?_, htakes, hnext, halike.trans hrestored⟩
  simp only [Replay.run, bind_apply, answer, hcalls]

theorem queryProperties_found (target : InstanceId) (sender : Felt) (names : List String)
    (coverage : Coverage) (executor : Executor) :
    ∃ violations after next,
      Oracle.queryProperties program.client target sender names coverage executor =
        ((.ok violations, after), next) ∧
      violations.map Violation.unnumbered =
        names.filterMap ((host program executor).violation? target sender executor.storage) ∧
      next.storage = executor.storage ∧ Alike next executor := by
  induction names generalizing coverage executor with
  | nil => exact ⟨[], coverage, executor, rfl, rfl, rfl, .refl executor⟩
  | cons name rest ih =>
      rcases hrespond : (host program executor).respond
        (Oracle.propertyQuery target sender name) executor.storage with r | ⟨outcome, storage⟩
      · obtain ⟨next, answer, hstorage, hnext⟩ := query_of_error hrespond
        obtain ⟨violations, after, last, hquery, hviolations, hlast, halike⟩ := ih coverage next
        rw [hnext.host_eq, hstorage] at hviolations
        refine ⟨violations, after, last, ?_, ?_, hlast.trans hstorage, halike.trans hnext⟩
        · simp only [Oracle.queryProperties, bind_apply, answer, hquery]
        · rw [hviolations, List.filterMap_cons_none (Host.violation?_of_error hrespond)]
      · obtain ⟨next, answer, hstorage, hnext⟩ := query_of_ok hrespond
        generalize hframe : frame program _ _ outcome executor.nextEvent = answered at answer
        have hreturned : answered.returnData = outcome.returnData := by
          rw [← hframe]
          rfl
        have hevents : answered.sortedEvents.map Event.unnumbered =
            outcome.events.map Emission.event := by
          rw [← hframe, unnumbered_sortedEvents_frame]
        obtain ⟨violations, after, last, hquery, hviolations, hlast, halike⟩ :=
          ih (coverage.after answered) next
        rw [hnext.host_eq, hstorage] at hviolations
        by_cases hzero : outcome.returnData = [0]
        · refine ⟨.property name answered.sortedEvents :: violations, after, last, ?_, ?_,
            hlast.trans hstorage, halike.trans hnext⟩
          · simp only [Oracle.queryProperties, bind_apply, answer, hquery]
            rw [hreturned, if_pos (beq_iff_eq.mpr hzero)]
            rfl
          · rw [List.map_cons, hviolations, Violation.unnumbered, hevents,
              List.filterMap_cons_some (Host.violation?_of_ok hrespond |>.trans (if_pos hzero))]
        · refine ⟨violations, after, last, ?_, ?_, hlast.trans hstorage, halike.trans hnext⟩
          · simp only [Oracle.queryProperties, bind_apply, answer, hquery]
            rw [hreturned, if_neg (mt beq_iff_eq.mp hzero)]
            rfl
          · rw [hviolations,
              List.filterMap_cons_none (Host.violation?_of_ok hrespond |>.trans (if_neg hzero))]

theorem queryProperties_violated (target : InstanceId) (sender : Felt) (names : List String)
    (coverage : Coverage) (executor : Executor) :
    ∃ violations after next,
      Oracle.queryProperties program.client target sender names coverage executor =
        ((.ok violations, after), next) ∧
      violations.map Violation.obligation =
        names.filter ((host program executor).breaks target sender executor.storage) ∧
      next.storage = executor.storage ∧ Alike next executor := by
  obtain ⟨violations, after, next, hquery, hviolations, hnext⟩ :=
    queryProperties_found program target sender names coverage executor
  refine ⟨violations, after, next, hquery, ?_, hnext⟩
  rw [← Violation.map_obligation_unnumbered, hviolations, Host.map_obligation_filterMap]

theorem inspectState_found (oracle : Oracle) (live : Obligations) (coverage : Coverage)
    (executor : Executor) :
    ∃ violations after next,
      oracle.inspectState program.client live coverage executor =
        ((.ok violations, after), next) ∧
      violations.map Violation.unnumbered =
        (host program executor).violations live executor.storage oracle ∧
      next.storage = executor.storage ∧ Alike next executor := by
  cases oracle with
  | properties target sender =>
      exact queryProperties_found program target sender live.live coverage executor
  | exceptions signatures => exact ⟨[], coverage, executor, rfl, rfl, rfl, .refl executor⟩

theorem inspectState_violated (oracle : Oracle) (live : Obligations) (coverage : Coverage)
    (executor : Executor) :
    ∃ violations after next,
      oracle.inspectState program.client live coverage executor =
        ((.ok violations, after), next) ∧
      violations.map Violation.obligation =
        (host program executor).violated live executor.storage oracle ∧
      next.storage = executor.storage ∧ Alike next executor := by
  obtain ⟨violations, after, next, hinspect, hviolations, hnext⟩ :=
    inspectState_found program oracle live coverage executor
  refine ⟨violations, after, next, hinspect, ?_, hnext⟩
  rw [← Violation.map_obligation_unnumbered, hviolations, Host.map_obligation_violations]

/-- Whether a sequence shows the violations is decided by the baseline alone. -/
theorem reproduces_shows {site : Site} {baseline : Storage} (goal : Goal)
    (sequence : List RecordedCall) (coverage : Coverage)
    (hbaseline : executor.snapshots[site.baseline.id]? = some baseline) :
    ∃ after next,
      Shrinking.reproduces program.client site goal sequence coverage executor =
        ((.ok ((host program executor).shows site.target goal baseline sequence), after), next) ∧
      Alike next executor := by
  obtain ⟨replay, next, hrun, htakes, hnext, halike⟩ :=
    run_takes program goal.isShownBy sequence hbaseline
  by_cases hstopped :
      ((host program executor).replay site.target goal.isShownBy baseline sequence).stopped = true
  · refine ⟨coverage, next, ?_, halike⟩
    simp only [Shrinking.reproduces, bind_apply, hrun, htakes.stopped, hstopped, Host.shows,
      Bool.true_or, if_true, pure_apply]
  · obtain ⟨violations, after, last, hinspect, hviolations, -, hlast⟩ :=
      inspectState_violated program goal.oracle goal.live coverage next
    rw [halike.host_eq, hnext] at hviolations
    refine ⟨after, last, ?_, hlast.trans halike⟩
    simp only [Shrinking.reproduces, bind_apply, hrun, htakes.stopped,
      Bool.eq_false_iff.mpr hstopped, Bool.false_eq_true, if_false, hinspect, pure_apply,
      Except.map, Host.isMetBy_eq_meets hviolations, Host.shows, Bool.false_or]

theorem shows_of_reproduces {site : Site} {goal : Goal} {sequence : List RecordedCall}
    {coverage : Coverage}
    (h : (Shrinking.reproduces program.client site goal sequence coverage executor).1.1 =
      .ok true) :
    ∃ baseline, executor.snapshots[site.baseline.id]? = some baseline ∧
      (host program executor).shows site.target goal baseline sequence = true := by
  cases hbaseline : executor.snapshots[site.baseline.id]? with
  | none =>
      have hrestore := restore_of_none program hbaseline
      simp only [Shrinking.reproduces, Replay.run, bind_apply, pure_apply, hrestore] at h
      cases h
  | some baseline =>
      obtain ⟨after, next, hreproduces, -⟩ :=
        reproduces_shows program goal sequence coverage hbaseline
      rw [hreproduces] at h
      exact ⟨baseline, rfl, Except.ok.inj h⟩

end Executor

end ContractFuzz.Sandbox
