import ContractFuzz.Proofs.Campaign.Recurrence

namespace ContractFuzz

open ContractFuzz.Sandbox

/-- Calls drawn one after another, and the failure that has ended the drawing early. -/
structure Draws where
  calls : List Call
  failure : Option Calldata.GenerationError
  deriving DecidableEq

def CallGenerator.draws {ρ : Type} (g : CallGenerator ρ) (functions : List Callable)
    (structs : StructTable) : Nat → ρ → Draws
  | 0, _ => ⟨[], none⟩
  | count + 1, random =>
      match g.call functions structs random with
      | (.error e, _) => ⟨[], some e⟩
      | (.ok call, next) =>
          let later := g.draws functions structs count next
          ⟨call :: later.calls, later.failure⟩

namespace Sandbox

/-- A call, what came of it, and the storage after it. -/
structure Turn where
  call : Call
  response : Except Revert Outcome
  storage : Storage

namespace Turn

def wentThrough (turn : Turn) : Bool := turn.response.isOk

/-- The call as it is recorded, with events that have no numbers. -/
def record (turn : Turn) : RecordedCall :=
  match turn.response with
  | .ok outcome => ⟨turn.call, outcome.events.map Emission.event⟩
  | .error _ => ⟨turn.call, []⟩

end Turn

namespace Host

/-- A revert leaves the storage as it was. -/
def turn (host : Host) (target : InstanceId) (storage : Storage) (call : Call) : Turn :=
  match host.respond (call.invocation target) storage with
  | .ok (outcome, next) => ⟨call, .ok outcome, next⟩
  | .error r => ⟨call, .error r, storage⟩

def turns (host : Host) (target : InstanceId) : Storage → List Call → List Turn
  | _, [] => []
  | storage, call :: rest =>
      let turn := host.turn target storage call
      turn :: turns host target turn.storage rest

/-- The violations in the storage that a call has led to, or the one that its revert is. -/
def shown (host : Host) (oracle : Oracle) (live : Obligations) (turn : Turn) : List Violation :=
  match turn.response with
  | .ok _ => host.violations live turn.storage oracle
  | .error r => (oracle.inspectRevert? live r).toList

/-- The detection by a turn: the calls that went through in the turns before it, and its own. -/
def detection (host : Host) (oracle : Oracle) (live : Obligations) (before : List Turn)
    (turn : Turn) : Detection :=
  ⟨(before.filter Turn.wentThrough ++ [turn]).map Turn.record, host.shown oracle live turn⟩

/-- The detection by the first of some turns that shows violations, when calls have been kept
before. -/
def detects? (host : Host) (oracle : Oracle) (live : Obligations) :
    List RecordedCall → List Turn → Option Detection
  | _, [] => none
  | kept, turn :: later =>
      if host.shown oracle live turn = [] then
        detects? host oracle live (if turn.wentThrough then kept ++ [turn.record] else kept) later
      else some ⟨kept ++ [turn.record], host.shown oracle live turn⟩

variable {host : Host} {oracle : Oracle} {live : Obligations} {target : InstanceId}
  {storage : Storage} {call : Call} {rest : List Call}

theorem turns_of_ok {outcome : Outcome} {next : Storage}
    (h : host.respond (call.invocation target) storage = .ok (outcome, next)) :
    host.turns target storage (call :: rest) =
      ⟨call, .ok outcome, next⟩ :: host.turns target next rest := by
  rw [turns, turn, h]

theorem turns_of_error {r : Revert}
    (h : host.respond (call.invocation target) storage = .error r) :
    host.turns target storage (call :: rest) =
      ⟨call, .error r, storage⟩ :: host.turns target storage rest := by
  rw [turns, turn, h]

theorem detects?_reverted {kept : List RecordedCall} {turn : Turn} {later : List Turn}
    (hquiet : host.shown oracle live turn = []) (hwent : turn.wentThrough = false) :
    host.detects? oracle live kept (turn :: later) = host.detects? oracle live kept later := by
  rw [detects?, if_pos hquiet, hwent, if_neg Bool.false_ne_true]

section Recording

variable {made : List RecordedCall} {step : RecordedCall} {turn : Turn} {later : List Turn}

theorem detects?_passed (hstep : step.unnumbered = turn.record) (hwent : turn.wentThrough = true)
    (hquiet : host.shown oracle live turn = []) :
    host.detects? oracle live (made.reverse.map RecordedCall.unnumbered) (turn :: later) =
      host.detects? oracle live ((step :: made).reverse.map RecordedCall.unnumbered) later := by
  rw [detects?, if_pos hquiet, if_pos hwent, List.reverse_cons, List.map_append,
    List.map_singleton, hstep]

theorem detects?_reported {violations : List Violation} (hstep : step.unnumbered = turn.record)
    (hshown : violations.map Violation.unnumbered = host.shown oracle live turn)
    (hne : violations ≠ []) :
    host.detects? oracle live (made.reverse.map RecordedCall.unnumbered) (turn :: later) =
      some (Detection.unnumbered ⟨(step :: made).reverse, violations⟩) := by
  have hne' : host.shown oracle live turn ≠ [] := hshown ▸ mt List.map_eq_nil_iff.mp hne
  rw [detects?, if_neg hne', Detection.unnumbered, List.reverse_cons, List.map_append,
    List.map_singleton, hstep, hshown]

end Recording

theorem detects?_eq_none_iff {kept : List RecordedCall} {turns : List Turn} :
    host.detects? oracle live kept turns = none ↔
      ∀ turn ∈ turns, host.shown oracle live turn = [] := by
  induction turns generalizing kept with
  | nil => simp [detects?]
  | cons turn later ih =>
      rw [detects?, List.forall_mem_cons]
      by_cases hquiet : host.shown oracle live turn = []
      · rw [if_pos hquiet, ih]
        exact (and_iff_right hquiet).symm
      · rw [if_neg hquiet]
        exact iff_of_false (Option.some_ne_none _) fun h => hquiet h.1

theorem detects?_of_first {kept : List RecordedCall} {before later : List Turn} {turn : Turn}
    (hbefore : ∀ other ∈ before, host.shown oracle live other = [])
    (hturn : host.shown oracle live turn ≠ []) :
    host.detects? oracle live kept (before ++ turn :: later) =
      some ⟨kept ++ (before.filter Turn.wentThrough ++ [turn]).map Turn.record,
        host.shown oracle live turn⟩ := by
  induction before generalizing kept with
  | nil =>
      rw [List.nil_append, detects?, if_neg hturn]
      rfl
  | cons other rest ih =>
      obtain ⟨hother, hrest⟩ := List.forall_mem_cons.mp hbefore
      rw [List.cons_append, detects?, if_pos hother, ih hrest]
      cases hwent : other.wentThrough
      · rw [List.filter_cons_of_neg (by simp [hwent])]
        rfl
      · rw [List.filter_cons_of_pos hwent, if_pos rfl, List.append_assoc]
        rfl

end Host

end Sandbox

namespace Campaign

variable {ρ : Type} {program : Program} {campaign : Campaign ρ} {executor last : Executor}

def draws (campaign : Campaign ρ) (count : Nat) (random : ρ) : Draws :=
  campaign.generator.draws campaign.schema.functions campaign.schema.structs count random

theorem draws_of_error {count : Nat} {random next : ρ} {e : Calldata.GenerationError}
    (h : campaign.generator.call campaign.schema.functions campaign.schema.structs random =
      (.error e, next)) :
    campaign.draws (count + 1) random = ⟨[], some e⟩ := by
  rw [draws, CallGenerator.draws, h]

theorem draws_of_ok {count : Nat} {random next : ρ} {call : Call}
    (h : campaign.generator.call campaign.schema.functions campaign.schema.structs random =
      (.ok call, next)) :
    campaign.draws (count + 1) random =
      ⟨call :: (campaign.draws count next).calls, (campaign.draws count next).failure⟩ := by
  rw [draws, CallGenerator.draws, h]
  rfl

/-- What an iteration comes to: what its calls show counts before a failure to draw more of them. -/
def verdict (failure : Option Calldata.GenerationError) :
    Option Detection → Except CampaignError (Option Detection)
  | some detection => .ok (some detection)
  | none =>
      match failure with
      | some e => .error (.ofGeneration e)
      | none => .ok none

theorem Makes.detects {count : Nat} {made : List RecordedCall} {progress after : Progress ρ}
    {result : Except CampaignError (Option Detection)}
    (run : Makes campaign program.client count made progress executor result after last) :
    result.map (Option.map Detection.unnumbered) =
      verdict (campaign.draws count progress.random).failure
        ((executor.host program).detects? campaign.oracle progress.live
          (made.reverse.map RecordedCall.unnumbered)
          ((executor.host program).turns campaign.site.target executor.storage
            (campaign.draws count progress.random).calls)) := by
  have hevents (call : Call) (outcome : Outcome) (first : Nat) (next : Storage) :
      RecordedCall.unnumbered ⟨call, (Executor.frame program
        (call.invocation campaign.site.target).target
        (Executor.handlerCall (call.invocation campaign.site.target)) outcome first).sortedEvents⟩ =
      Turn.record ⟨call, .ok outcome, next⟩ := by
    rw [RecordedCall.unnumbered, Executor.unnumbered_sortedEvents_frame]
    rfl
  induction run with
  | done => rfl
  | ungenerated generated =>
      rw [draws_of_error generated]
      rfl
  | fails _ answer =>
      -- In process a call can fail by a revert only.
      obtain ⟨-, -, r, hr, -⟩ := Executor.respond_of_invoke_error answer
      cases hr
  | @raises _ _ progress executor call _ r _ violation generated answer inspected =>
      obtain ⟨-, -, r, hr, hrespond⟩ := Executor.respond_of_invoke_error answer
      cases hr
      have hrecord : RecordedCall.unnumbered ⟨call, []⟩ =
          Turn.record ⟨call, .error r, executor.storage⟩ := rfl
      have hshown : [violation].map Violation.unnumbered =
          (campaign.oracle.inspectRevert? progress.live r).toList := by
        obtain ⟨_, template, message, -, -, -, rfl⟩ := Oracle.inspectRevert?_eq_some inspected
        rw [inspected]
        rfl
      rw [draws_of_ok generated, Host.turns_of_error hrespond,
        Host.detects?_reported hrecord hshown (List.cons_ne_nil _ _)]
      rfl
  | @reverts _ _ progress executor call _ r _ _ _ _ generated answer inspected _ ih =>
      obtain ⟨halike, hstorage, r, hr, hrespond⟩ := Executor.respond_of_invoke_error answer
      cases hr
      have hquiet : (executor.host program).shown campaign.oracle progress.live
          ⟨call, .error r, executor.storage⟩ = [] := congrArg Option.toList inspected
      rw [halike.host_eq, hstorage] at ih
      rw [draws_of_ok generated, Host.turns_of_error hrespond, Host.detects?_reverted hquiet rfl]
      exact ih
  | uninspected _ _ inspected =>
      obtain ⟨violations, coverage, middle, hinspect, -⟩ :=
        Executor.inspectState_found program campaign.oracle _ _ _
      rw [inspected] at hinspect
      cases hinspect
  | passes generated answer inspected _ ih =>
      obtain ⟨halike, outcome, hrespond, rfl⟩ := Executor.respond_of_invoke_ok answer
      obtain ⟨violations, coverage, middle, hinspect, hviolations, hmiddle, hqueried⟩ :=
        Executor.inspectState_found program campaign.oracle _ _ _
      rw [inspected] at hinspect
      cases hinspect
      -- The queries have left the storage of the call as it was, for the turns that follow.
      rw [halike.host_eq] at hviolations
      rw [(hqueried.trans halike).host_eq, hmiddle] at ih
      rw [draws_of_ok generated, Host.turns_of_ok hrespond,
        Host.detects?_passed (hevents _ _ _ _) rfl hviolations.symm]
      exact ih
  | violates generated answer inspected =>
      obtain ⟨halike, outcome, hrespond, rfl⟩ := Executor.respond_of_invoke_ok answer
      obtain ⟨violations, coverage, middle, hinspect, hviolations, -, -⟩ :=
        Executor.inspectState_found program campaign.oracle _ _ _
      rw [inspected] at hinspect
      cases hinspect
      rw [halike.host_eq] at hviolations
      rw [draws_of_ok generated, Host.turns_of_ok hrespond,
        Host.detects?_reported (hevents _ _ _ _) hviolations (List.cons_ne_nil _ _)]
      rfl

theorem iterate_detects {baseline : Storage}
    (hbaseline : executor.snapshots[campaign.site.baseline.id]? = some baseline)
    (progress : Progress ρ) :
    (campaign.iterate program.client progress executor).1.1.map (Option.map Detection.unnumbered) =
      verdict (campaign.draws campaign.sequenceLength progress.random).failure
        ((executor.host program).detects? campaign.oracle progress.live []
          ((executor.host program).turns campaign.site.target baseline
            (campaign.draws campaign.sequenceLength progress.random).calls)) := by
  obtain ⟨next, hrestore, hstorage, halike⟩ := Executor.restore_of_some program hbaseline
  rcases hiterate : campaign.iterate program.client progress executor with ⟨⟨result, after⟩, last⟩
  cases iterates hiterate with
  | unrestored answer =>
      rw [answer] at hrestore
      cases hrestore
  | fails answer made | passes answer made | detects answer made =>
      rw [answer] at hrestore
      cases hrestore
      have hdetects := (makes made).detects
      rw [halike.host_eq, hstorage] at hdetects
      exact hdetects

theorem verdict_eq_ok_none_iff {failure : Option Calldata.GenerationError}
    {detected : Option Detection} :
    verdict failure detected = .ok none ↔ failure = none ∧ detected = none := by
  cases detected <;> cases failure <;> simp [verdict]

/-- An iteration detects nothing just if none of its calls shows a violation, when they are made in
order from the baseline. Otherwise it stops at the first that does, and detects all that it shows;
the calls before it that went through are kept. -/
theorem iterate_finds_first {baseline : Storage}
    (hbaseline : executor.snapshots[campaign.site.baseline.id]? = some baseline)
    (progress : Progress ρ) :
    let draws := campaign.draws campaign.sequenceLength progress.random
    let host := executor.host program
    let turns := host.turns campaign.site.target baseline draws.calls
    let shown := host.shown campaign.oracle progress.live
    let result := (campaign.iterate program.client progress executor).1.1
    (result = .ok none ↔ draws.failure = none ∧ ∀ turn ∈ turns, shown turn = []) ∧
      (∀ e, draws.failure = some e → (∀ turn ∈ turns, shown turn = []) →
        result = .error (.ofGeneration e)) ∧
      ∀ before turn later, turns = before ++ turn :: later →
        (∀ other ∈ before, shown other = []) → shown turn ≠ [] →
          ∃ detection, result = .ok (some detection) ∧
            detection.unnumbered = host.detection campaign.oracle progress.live before turn := by
  intro draws host turns shown result
  have hresult : result.map (Option.map Detection.unnumbered) =
      verdict draws.failure (host.detects? campaign.oracle progress.live [] turns) :=
    iterate_detects hbaseline progress
  refine ⟨?_, fun e hfailure hquiet => ?_, fun before turn later hturns hbefore hturn => ?_⟩
  · have hnone : result = .ok none ↔ result.map (Option.map Detection.unnumbered) = .ok none := by
      rcases result with e | _ | detection <;> simp [Except.map]
    rw [hnone, hresult, verdict_eq_ok_none_iff, Host.detects?_eq_none_iff]
  · rw [Host.detects?_eq_none_iff.mpr hquiet, hfailure] at hresult
    rcases result with _ | _
    · cases hresult
      rfl
    · cases hresult
  · rw [hturns, Host.detects?_of_first hbefore hturn] at hresult
    rcases result with _ | _ | detection
    · cases hresult
    · cases hresult
    · exact ⟨detection, rfl, Option.some.inj (Except.ok.inj hresult)⟩

/-- A boiler with an outlet that cannot be opened without pressure. Of what is said about it two
things are wrong under high pressure; of the others, one is never said and one says too much. -/
def boiler : Program :=
  [.external "vent" [] fun storage _ =>
      if storage.read "pressure" = 0 then .error "nothing to vent"
      else .ok ({}, storage.write "pressure" 0),
    .external "heat" [] fun storage _ =>
      .ok ({}, storage.write "pressure" (storage.read "pressure" + 1)),
    .property "calm" fun storage _ =>
      .ok ({ returnData := [if storage.read "pressure" < 2 then 1 else 0] }, storage),
    .property "vague" fun storage _ => .ok ({ returnData := [0, 0] }, storage),
    .property "mute" fun _ _ => .error "no gauge",
    .property "cool" fun storage _ =>
      .ok ({ returnData := [if storage.read "pressure" < 2 then 1 else 0] }, storage)]

def boilerCampaign : Campaign Nat :=
  { alarmCampaign with
    schema := ⟨[⟨"vent", [], .mutating⟩, ⟨"heat", [], .mutating⟩], [], .empty, .empty⟩
    oracle := .properties targetAddress 1 }

def boilerStart : Progress Nat := ⟨0, .ofList ["mute", "cool", "vague", "calm"], .empty⟩

/-- Two calls have reverted before these. -/
def boilerDetection : Detection where
  sequence := ["heat", "heat"].map fun function => ⟨⟨0, function, [], .external, none⟩, []⟩
  violations := [.property "cool" [], .property "calm" []]

def boilerTurns : List Turn :=
  (alarmExecutor.host boiler).turns targetAddress .empty (boilerCampaign.draws 5 0).calls

def alarmTurns : List Turn :=
  (alarmExecutor.host alarm).turns targetAddress .empty (alarmCampaign.draws 5 0).calls

theorem eq_take_append_getElem {α : Type} {xs : List α} {i : Nat} (h : i < xs.length) :
    xs = xs.take i ++ xs[i] :: xs.drop (i + 1) := by
  rw [← List.drop_eq_getElem_cons, List.take_append_drop]

theorem length_boilerTurns : 3 < boilerTurns.length := by decide +kernel

theorem length_alarmTurns : 4 < alarmTurns.length := by decide +kernel

theorem iterate_finds_first_boiler :
    (∃ detection, (boilerCampaign.iterate boiler.client boilerStart alarmExecutor).1.1 =
        .ok (some detection) ∧ detection.unnumbered = boilerDetection) ∧
      ∃ detection, (alarmCampaign.iterate alarm.client alarmStart alarmExecutor).1.1 =
        .ok (some detection) ∧ detection.unnumbered = alarmDetection := by
  have hsaved : alarmExecutor.snapshots[alarmCampaign.site.baseline.id]? = some .empty := rfl
  obtain ⟨-, -, hboiler⟩ :=
    @iterate_finds_first Nat boiler boilerCampaign alarmExecutor .empty hsaved boilerStart
  obtain ⟨-, -, halarm⟩ :=
    @iterate_finds_first Nat alarm alarmCampaign alarmExecutor .empty hsaved alarmStart
  constructor
  · obtain ⟨detection, hdetects, hdetection⟩ := hboiler (boilerTurns.take 3) boilerTurns[3]
      (boilerTurns.drop 4) (eq_take_append_getElem length_boilerTurns) (by decide +kernel)
      (by decide +kernel)
    refine ⟨detection, hdetects, hdetection.trans ?_⟩
    decide +kernel
  · obtain ⟨detection, hdetects, hdetection⟩ := halarm (alarmTurns.take 4) alarmTurns[4]
      (alarmTurns.drop 5) (eq_take_append_getElem length_alarmTurns) (by decide +kernel)
      (by decide +kernel)
    refine ⟨detection, hdetects, hdetection.trans ?_⟩
    decide +kernel

end Campaign

end ContractFuzz
