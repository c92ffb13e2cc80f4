import ContractFuzz.Proofs.Campaign.Oracle
import ContractFuzz.Proofs.Sandbox.Replay

namespace ContractFuzz.Campaign

open ContractFuzz.Sandbox

/-- Calls that lead from a storage to violations in another one: they all go through and the last
storage breaks properties, or they go through but for the last one, which raises an exception. -/
inductive Leads (host : Host) (target : InstanceId) (oracle : Oracle) (live : Obligations) :
    Storage → List RecordedCall → List Violation → Storage → Prop
  | breaks {storage step outcome next violations}
      (response : host.respond (step.call.invocation target) storage = .ok (outcome, next))
      (violated : violations.map Violation.obligation = host.violated live next oracle)
      (ne : violations ≠ []) :
      Leads host target oracle live storage [step] violations next
  | raises {storage step r violation}
      (response : host.respond (step.call.invocation target) storage = .error r)
      (inspected : oracle.inspectRevert? live r = some violation) :
      Leads host target oracle live storage [step] [violation] storage
  | goes {storage step outcome next rest violations last}
      (response : host.respond (step.call.invocation target) storage = .ok (outcome, next))
      (more : Leads host target oracle live next rest violations last) :
      Leads host target oracle live storage (step :: rest) violations last

namespace Leads

variable {host : Host} {target : InstanceId} {live : Obligations} {storage last : Storage}
  {sequence : List RecordedCall} {violations : List Violation}

theorem replay_properties {queried : InstanceId} {sender : Felt}
    (h : Leads host target (.properties queried sender) live storage sequence violations last)
    (stops : Revert → Bool) :
    ∃ outcomes : List Outcome,
      host.replay target stops storage sequence = ⟨outcomes.map .ok, false, last⟩ ∧
      outcomes.length = sequence.length := by
  induction h with
  | @breaks storage step outcome next violations response violated ne =>
      refine ⟨[outcome], ?_, rfl⟩
      rw [Host.replay_of_ok response]
      rfl
  | raises _ inspected => cases inspected
  | @goes storage step outcome next rest violations last response more ih =>
      obtain ⟨outcomes, hreplay, hlength⟩ := ih
      refine ⟨outcome :: outcomes, ?_, ?_⟩
      · rw [Host.replay_of_ok response, hreplay]
        rfl
      · rw [List.length_cons, hlength, List.length_cons]

theorem replay_exceptions {signatures : List String}
    (h : Leads host target (.exceptions signatures) live storage sequence violations last)
    (stops : Revert → Bool) :
    ∃ (outcomes : List Outcome) (r : Revert) (violation : Violation),
      host.replay target stops storage sequence =
        ⟨outcomes.map .ok ++ [.error r], stops r, last⟩ ∧
      outcomes.length + 1 = sequence.length ∧ violations = [violation] ∧
      (Oracle.exceptions signatures).inspectRevert? live r = some violation := by
  induction h with
  | breaks _ violated ne =>
      rw [Host.violated] at violated
      exact absurd (List.map_eq_nil_iff.mp violated) ne
  | @raises storage step r violation response inspected =>
      refine ⟨[], r, violation, ?_, rfl, rfl, inspected⟩
      rw [Host.replay_of_error response]
      cases stops r <;> rfl
  | @goes storage step outcome next rest violations last response more ih =>
      obtain ⟨outcomes, r, violation, hreplay, hlength, hviolations⟩ := ih
      refine ⟨outcome :: outcomes, r, violation, ?_, ?_, hviolations⟩
      · rw [Host.replay_of_ok response, hreplay]
        rfl
      · rw [List.length_cons, hlength, List.length_cons]

theorem shows {oracle : Oracle}
    (h : Leads host target oracle live storage sequence violations last) :
    host.shows target ⟨oracle, live, violations⟩ storage sequence = true := by
  induction h with
  | @breaks storage step outcome next violations response violated ne =>
      have hmeets : host.meets ⟨oracle, live, violations⟩ next = true := by
        simp [Host.meets, ← violated, ne]
      rw [Host.shows_of_ok response]
      exact hmeets
  | raises response inspected =>
      exact Host.shows_of_stop response (Goal.isShownBy_of_inspectRevert? inspected)
  | goes response _ ih =>
      rw [Host.shows_of_ok response]
      exact ih

end Leads

variable {ρ : Type} {program : Program} {campaign : Campaign ρ}

theorem Makes.leads {count : Nat} {made : List RecordedCall} {progress after : Progress ρ}
    {executor last : Executor} {result : Except CampaignError (Option Detection)}
    (run : Makes campaign program.client count made progress executor result after last)
    {detection : Detection} (hresult : result = .ok (some detection)) :
    Executor.Alike last executor ∧ ∃ later, detection.sequence = made.reverse ++ later ∧
      Leads (executor.host program) campaign.site.target campaign.oracle progress.live
        executor.storage later detection.violations last.storage := by
  induction run with
  | done | ungenerated | fails | uninspected => cases hresult
  | raises _ answer inspected =>
      cases hresult
      obtain ⟨halike, hstorage, r, hr, hrespond⟩ := Executor.respond_of_invoke_error answer
      cases hr
      refine ⟨halike, [_], List.reverse_cons, ?_⟩
      rw [hstorage]
      exact .raises hrespond inspected
  | reverts _ answer _ _ ih =>
      obtain ⟨halike, hstorage, -, -, -⟩ := Executor.respond_of_invoke_error answer
      obtain ⟨hlast, later, hsequence, hleads⟩ := ih hresult
      rw [halike.host_eq, hstorage] at hleads
      exact ⟨hlast.trans halike, later, hsequence, hleads⟩
  | passes _ answer inspected _ ih =>
      obtain ⟨halike, outcome, hrespond, -⟩ := Executor.respond_of_invoke_ok answer
      obtain ⟨violations, coverage, middle, hinspect, -, hmiddle, hqueried⟩ :=
        Executor.inspectState_violated program campaign.oracle _ _ _
      rw [inspected] at hinspect
      cases hinspect
      obtain ⟨hlast, later, hsequence, hleads⟩ := ih hresult
      rw [(hqueried.trans halike).host_eq, hmiddle] at hleads
      rw [List.reverse_cons, List.append_assoc] at hsequence
      exact ⟨hlast.trans (hqueried.trans halike), _, hsequence, .goes hrespond hleads⟩
  | violates _ answer inspected =>
      cases hresult
      obtain ⟨halike, outcome, hrespond, -⟩ := Executor.respond_of_invoke_ok answer
      obtain ⟨violations, coverage, middle, hinspect, hviolated, hmiddle, hqueried⟩ :=
        Executor.inspectState_violated program campaign.oracle _ _ _
      rw [inspected] at hinspect
      cases hinspect
      rw [halike.host_eq] at hviolated
      refine ⟨hqueried.trans halike, [_], List.reverse_cons, ?_⟩
      rw [hmiddle]
      exact .breaks hrespond hviolated (by simp)

/-- What an iteration detects recurs from its baseline. -/
theorem iterate_leads {progress after : Progress ρ} {executor last : Executor}
    {detection : Detection}
    (h : campaign.iterate program.client progress executor =
      ((.ok (some detection), after), last)) :
    Executor.Alike last executor ∧ ∃ baseline,
      executor.snapshots[campaign.site.baseline.id]? = some baseline ∧
      Leads (executor.host program) campaign.site.target campaign.oracle progress.live baseline
        detection.sequence detection.violations last.storage := by
  cases iterates h with
  | detects answer made =>
      cases hbaseline : executor.snapshots[campaign.site.baseline.id]? with
      | none =>
          rw [Executor.restore_of_none program hbaseline] at answer
          cases answer
      | some baseline =>
          obtain ⟨next, hrestore, hstorage, halike⟩ := Executor.restore_of_some program hbaseline
          rw [answer] at hrestore
          cases hrestore
          obtain ⟨hlast, later, hsequence, hleads⟩ := (makes made).leads rfl
          rw [halike.host_eq, hstorage] at hleads
          refine ⟨hlast.trans halike, baseline, rfl, ?_⟩
          rw [show detection.sequence = later from hsequence]
          exact hleads

theorem answers_of_shows_ok {outcomes : List Outcome} {rest : List (Except Revert Outcome)}
    {answers : List (Except Revert Frame)}
    (h : List.Forall₂ (ShowsOutcome program) answers (outcomes.map .ok ++ rest)) :
    ∃ (frames : List Frame) (others : List (Except Revert Frame)),
      answers = frames.map .ok ++ others ∧ frames.length = outcomes.length ∧
      List.Forall₂ (ShowsOutcome program) others rest := by
  induction outcomes generalizing answers with
  | nil => exact ⟨[], answers, rfl, rfl, h⟩
  | cons outcome more ih =>
      rcases h with _ | ⟨hhead, htail⟩
      obtain ⟨frames, others, rfl, hlength, hothers⟩ := ih htail
      cases hhead
      exact ⟨_ :: frames, others, rfl, by rw [List.length_cons, hlength, List.length_cons], hothers⟩

/-- How the calls of a detection turn out when they are made again: all of them go through, or all
but the last, which reverts with the message that was recorded. -/
def Recurs (detection : Detection) (outcomes : List (Except Revert Frame)) : Oracle → Prop
  | .properties .. =>
      ∃ frames : List Frame, outcomes = frames.map .ok ∧
        frames.length = detection.sequence.length
  | .exceptions signatures =>
      ∃ (frames : List Frame) (r : Revert) (template message : String),
        outcomes = frames.map .ok ++ [.error r] ∧
        frames.length + 1 = detection.sequence.length ∧
        detection.violations = [.exception template message] ∧
        Oracle.extractMessage? signatures r = some message

theorem Leads.recurs {host : Host} {target : InstanceId} {oracle : Oracle} {live : Obligations}
    {storage last : Storage} {detection : Detection}
    (h : Leads host target oracle live storage detection.sequence detection.violations last)
    {stops : Revert → Bool} {replay : Replay}
    (htakes : Takes program replay (host.replay target stops storage detection.sequence)) :
    Recurs detection replay.outcomes oracle ∧
      (host.replay target stops storage detection.sequence).storage = last := by
  cases oracle with
  | properties queried sender =>
      obtain ⟨outcomes, hreplay, hlength⟩ := h.replay_properties stops
      rw [hreplay] at htakes ⊢
      have houtcomes := htakes.outcomes
      rw [← List.append_nil (outcomes.map _)] at houtcomes
      obtain ⟨frames, others, hreplayed, hframes, hothers⟩ := answers_of_shows_ok houtcomes
      cases hothers
      rw [List.append_nil] at hreplayed
      exact ⟨⟨frames, hreplayed, hframes.trans hlength⟩, rfl⟩
  | exceptions signatures =>
      obtain ⟨outcomes, r, violation, hreplay, hlength, hviolations, hinspected⟩ :=
        h.replay_exceptions stops
      rw [hreplay] at htakes ⊢
      obtain ⟨frames, others, hreplayed, hframes, hothers⟩ := answers_of_shows_ok htakes.outcomes
      rcases hothers with _ | ⟨⟨⟩, ⟨⟩⟩
      obtain ⟨_, template, message, horacle, hmessage, -, rfl⟩ :=
        Oracle.inspectRevert?_eq_some hinspected
      cases horacle
      rw [← hframes] at hlength
      exact ⟨⟨frames, r, template, message, hreplayed, hlength, hviolations, hmessage⟩, rfl⟩

/-- A detection recurs on every executor that holds the same snapshots of the same deployment,
whatever has run on it since: the calls turn out as they did and end in the storage in which the
violations were seen, and shrinking finds that the sequence shows them. -/
theorem iterate_recurs {progress after : Progress ρ} {executor found replayer : Executor}
    {detection : Detection}
    (h : campaign.iterate program.client progress executor =
      ((.ok (some detection), after), found))
    (halike : Executor.Alike replayer executor) :
    (∀ stops, ∃ replay ended,
        Replay.run program.client campaign.site stops detection.sequence replayer =
          (.ok replay, ended) ∧
        Recurs detection replay.outcomes campaign.oracle ∧ ended.storage = found.storage) ∧
      ∀ coverage, (Shrinking.reproduces program.client campaign.site
        ⟨campaign.oracle, progress.live, detection.violations⟩ detection.sequence coverage
        replayer).1.1 = .ok true := by
  obtain ⟨-, baseline, hbaseline, hleads⟩ := iterate_leads h
  rw [← halike.snapshots] at hbaseline
  rw [← halike.host_eq] at hleads
  refine ⟨fun stops => ?_, fun coverage => ?_⟩
  · obtain ⟨replay, ended, hrun, htakes, hended, -⟩ :=
      Executor.run_takes program stops detection.sequence hbaseline
    obtain ⟨hrecurs, hlast⟩ := hleads.recurs htakes
    exact ⟨replay, ended, hrun, hrecurs, hended.trans hlast⟩
  · obtain ⟨covered, ended, hreproduces, -⟩ := Executor.reproduces_shows program
      ⟨campaign.oracle, progress.live, detection.violations⟩ detection.sequence coverage hbaseline
    rw [hreproduces, hleads.shows]

/-- A program that raises an alarm when it is entered armed. It refuses to be armed twice. -/
def alarm : Program :=
  [.external "enter" [] fun storage _ =>
      if storage.read "armed" = 1 then .error "Alarm: intrusion" else .ok ({}, storage),
    .external "arm" [] fun storage _ =>
      if storage.read "armed" = 1 then .error "armed already"
      else .ok ({}, storage.write "armed" 1)]

/-- Draws that only count: every function is called twice before the next one is. -/
def countingSource : Random.Source Nat where
  fraction n := (0, n)
  index bound n := (n / 4 % bound, n + 1)
  length _ n := (0, n)
  below _ n := (0, n)

def alarmCampaign : Campaign Nat where
  site := ⟨targetAddress, ⟨0⟩⟩
  schema := ⟨[⟨"enter", [], .mutating⟩, ⟨"arm", [], .mutating⟩], [], .empty, .empty⟩
  oracle := .exceptions ["Alarm"]
  generator := ⟨countingSource, ⟨Calldata.modulusFloor + 1, 1, Nat.lt_succ_self _, Nat.one_pos⟩,
    [0], (0, 0), List.cons_ne_nil 0 []⟩
  sequenceLength := 5
  shrinks := false

def alarmStart : Progress Nat := ⟨0, .ofList ["intrusion"], .empty⟩

def alarmExecutor : Executor := { snapshots := [.empty], deployed := some targetAddress }

/-- The second call that arms the alarm reverts, so four of the five calls are kept. -/
def alarmDetection : Detection where
  sequence := ["enter", "enter", "arm", "enter"].map fun function =>
    ⟨⟨0, function, [], .external, none⟩, []⟩
  violations := [.exception "intrusion" "intrusion"]

theorem iterate_alarm : (alarmCampaign.iterate alarm.client alarmStart alarmExecutor).1.1 =
    .ok (some alarmDetection) := by
  decide +kernel

/-- The detection recurs on an executor that has been left armed. -/
def armedExecutor : Executor := { alarmExecutor with storage := Storage.write .empty "armed" 1 }

theorem iterate_recurs_alarm :
    (alarmCampaign.iterate alarm.client alarmStart alarmExecutor).1.1 =
        .ok (some alarmDetection) ∧
      (∃ replay ended,
        Replay.run alarm.client alarmCampaign.site (fun _ => false) alarmDetection.sequence
          armedExecutor = (.ok replay, ended) ∧
        Recurs alarmDetection replay.outcomes alarmCampaign.oracle) ∧
      (Shrinking.reproduces alarm.client alarmCampaign.site
        ⟨alarmCampaign.oracle, alarmStart.live, alarmDetection.violations⟩ alarmDetection.sequence
        .empty armedExecutor).1.1 = .ok true := by
  have halike : Executor.Alike armedExecutor alarmExecutor := ⟨rfl, rfl⟩
  obtain ⟨hreplays, hreproduces⟩ :=
    iterate_recurs (Prod.ext (Prod.ext iterate_alarm rfl) rfl) halike
  obtain ⟨replay, ended, hrun, hrecurs, -⟩ := hreplays fun _ => false
  exact ⟨iterate_alarm, ⟨replay, ended, hrun, hrecurs⟩, hreproduces .empty⟩

/-- An executor on which nothing is deployed refuses all calls, whatever snapshots it holds. -/
def undeployedExecutor : Executor := { alarmExecutor with deployed := none }

theorem alarm_silent_undeployed :
    (alarmCampaign.iterate alarm.client alarmStart alarmExecutor).1.1 =
        .ok (some alarmDetection) ∧
      undeployedExecutor.snapshots = alarmExecutor.snapshots ∧
      (Replay.run alarm.client alarmCampaign.site (fun _ => false) alarmDetection.sequence
        undeployedExecutor).1.toOption.map (·.outcomes.map (·.toOption.isSome)) =
          some [false, false, false, false] ∧
      (Shrinking.reproduces alarm.client alarmCampaign.site
        ⟨alarmCampaign.oracle, alarmStart.live, alarmDetection.violations⟩ alarmDetection.sequence
        .empty undeployedExecutor).1.1 = .ok false :=
  ⟨iterate_alarm, rfl, by decide +kernel, by decide +kernel⟩

end ContractFuzz.Campaign
