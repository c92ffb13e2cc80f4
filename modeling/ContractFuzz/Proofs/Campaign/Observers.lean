import ContractFuzz.Proofs.Campaign.Iterations
import ContractFuzz.Proofs.Campaign.PureSteps
import ContractFuzz.Proofs.Campaign.Requests
import ContractFuzz.Proofs.Sandbox.Observers

namespace ContractFuzz

open ContractFuzz.Sandbox
open Executor (Alike)

theorem Shrinking.pruned_congr {shows trial : List RecordedCall → Bool}
    {kept pending : List RecordedCall}
    (h : ∀ sequence, sequence.Sublist (kept ++ pending) → trial sequence = shows sequence) :
    pruned trial kept pending = pruned shows kept pending := by
  induction pending generalizing kept with
  | nil => rfl
  | cons step pending ih =>
      have hdropped : (kept ++ pending).Sublist (kept ++ step :: pending) :=
        (List.sublist_cons_self step pending).append_left kept
      rw [pruned, pruned, h _ hdropped]
      split
      · exact ih fun sequence hsequence => h sequence (hsequence.trans hdropped)
      · apply ih
        intro sequence hsequence
        rw [List.append_assoc] at hsequence
        exact h sequence hsequence

namespace Sandbox.Host

variable {host watching : Host} {oracle : Oracle} {live watched : Obligations}

theorem call_mem_of_turns {target : InstanceId} {storage : Storage} {calls : List Call}
    {turn : Turn} (h : turn ∈ host.turns target storage calls) : turn.call ∈ calls := by
  have hturn (storage : Storage) (call : Call) : (host.turn target storage call).call = call := by
    rw [Host.turn]
    split <;> rfl
  induction calls generalizing storage with
  | nil => cases h
  | cons call rest ih =>
      rw [turns] at h
      rcases List.mem_cons.mp h with rfl | h
      · rw [hturn]
        exact List.mem_cons_self
      · exact List.mem_cons_of_mem call (ih h)

theorem mem_of_detects? {kept : List RecordedCall} {turns : List Turn} {detection : Detection}
    (h : host.detects? oracle live kept turns = some detection) :
    ∀ step ∈ detection.sequence, step ∈ kept ∨ ∃ turn ∈ turns, step = turn.record := by
  induction turns generalizing kept with
  | nil => cases h
  | cons turn later ih =>
      rw [detects?] at h
      split at h
      · intro step hstep
        rcases ih h step hstep with hkept | ⟨other, hother, hrecord⟩
        · split at hkept
          · rcases List.mem_append.mp hkept with hkept | hkept
            · exact .inl hkept
            · exact .inr ⟨turn, List.mem_cons_self, List.mem_singleton.mp hkept⟩
          · exact .inl hkept
        · exact .inr ⟨other, List.mem_cons_of_mem turn hother, hrecord⟩
      · cases h
        intro step hstep
        rcases List.mem_append.mp hstep with hkept | hstep
        · exact .inl hkept
        · exact .inr ⟨turn, List.mem_cons_self, List.mem_singleton.mp hstep⟩

theorem violations_of_detects? {kept : List RecordedCall} {turns : List Turn}
    {detection : Detection} (h : host.detects? oracle live kept turns = some detection) :
    ∃ turn, detection.violations = host.shown oracle live turn := by
  induction turns generalizing kept with
  | nil => cases h
  | cons turn later ih =>
      rw [detects?] at h
      split at h
      · exact ih h
      · cases h
        exact ⟨turn, rfl⟩

theorem obligation_mem_of_shown {target : InstanceId} {sender : Felt} {turn : Turn}
    {violation : Violation} (h : violation ∈ host.shown (.properties target sender) live turn) :
    violation.obligation ∈ live.live := by
  rw [shown] at h
  split at h
  · have hmem := List.mem_map_of_mem (f := Violation.obligation) h
    rw [map_obligation_violations] at hmem
    exact List.mem_of_mem_filter hmem
  · cases h

theorem detects?_congr (h : ∀ turn, watching.shown oracle watched turn = host.shown oracle live turn)
    (kept : List RecordedCall) (turns : List Turn) :
    watching.detects? oracle watched kept turns = host.detects? oracle live kept turns := by
  induction turns generalizing kept with
  | nil => rfl
  | cons turn later ih => rw [detects?, detects?, h turn, ih]

theorem attempts_congr (h : ∀ turn, watching.shown oracle watched turn = host.shown oracle live turn)
    (turns : List Turn) :
    watching.attempts oracle watched turns = host.attempts oracle live turns := by
  induction turns with
  | nil => rfl
  | cons turn later ih => rw [attempts, attempts, h turn, ih]

namespace Watches

variable {target : InstanceId} {sender : Felt} {name : String}

theorem turns_eq (h : watching.Watches host target sender name) {called : InstanceId}
    {calls : List Call} (hcalls : ∀ call ∈ calls, call.function ≠ name) (storage : Storage) :
    watching.turns called storage calls = host.turns called storage calls := by
  induction calls generalizing storage with
  | nil => rfl
  | cons call rest ih =>
      obtain ⟨hcall, hrest⟩ := List.forall_mem_cons.mp hcalls
      have hturn : watching.turn called storage call = host.turn called storage call := by
        have hrespond := h.respond (call.invocation called) storage hcall
        rw [Host.turn, hrespond, Host.turn]
      rw [turns, turns, hturn, ih hrest]

theorem shown_eq (h : watching.Watches host target sender name)
    (hlive : watched.live = live.live ++ [name]) (turn : Turn) :
    watching.shown (.properties target sender) watched turn =
      host.shown (.properties target sender) live turn := by
  rw [shown, shown]
  split
  · exact h.violations_eq hlive turn.storage
  · rfl

theorem shown_eq_nil (h : watching.Watches host target sender name) (hlive : watched.live = [name])
    (turn : Turn) : watching.shown (.properties target sender) watched turn = [] := by
  rw [shown]
  split
  · change watched.live.filterMap (watching.violation? target sender turn.storage) = []
    rw [hlive, List.filterMap_cons_none (h.silent turn.storage), List.filterMap_nil]
  · rfl

end Watches

end Sandbox.Host

theorem CallGenerator.function_of_draws {ρ : Type} {g : CallGenerator ρ}
    {functions : List Callable} {structs : StructTable} {count : Nat} {random : ρ} {call : Call}
    (h : call ∈ (g.draws functions structs count random).calls) :
    ∃ f ∈ functions, call.function = f.name := by
  induction count generalizing random with
  | zero => cases h
  | succ count ih =>
      rw [draws] at h
      split at h
      · cases h
      · rename_i generated
        rcases List.mem_cons.mp h with rfl | h
        · obtain ⟨f, hf, hname, -⟩ := function_of_call generated
          exact ⟨f, hf, hname⟩
        · exact ih h

namespace Campaign

variable {ρ : Type} {campaign : Campaign ρ} {schema : Schema} {host watching : Host}
  {target : InstanceId} {sender : Felt} {name : String} {baseline : Storage}
  {live watched : Obligations}

/-- A campaign for violated properties, and a schema that differs from that of the campaign in its
properties alone. The campaign never calls `name`. -/
structure Admits (campaign : Campaign ρ) (schema : Schema) (target : InstanceId) (sender : Felt)
    (name : String) : Prop where
  functions : schema.functions = campaign.schema.functions
  structs : schema.structs = campaign.schema.structs
  oracle : campaign.oracle = .properties target sender
  uncalled : ∀ f ∈ campaign.schema.functions, f.name ≠ name

namespace Admits

theorem draws_eq (h : campaign.Admits schema target sender name) (count : Nat) (random : ρ) :
    ({ campaign with schema } : Campaign ρ).draws count random = campaign.draws count random := by
  simp only [draws, h.functions, h.structs]

theorem stateAfter_eq (h : campaign.Admits schema target sender name) (count : Nat) (random : ρ) :
    ({ campaign with schema } : Campaign ρ).stateAfter count random =
      campaign.stateAfter count random := by
  simp only [stateAfter, h.functions, h.structs]

theorem function_ne (h : campaign.Admits schema target sender name) {count : Nat} {random : ρ}
    {call : Call} (hcall : call ∈ (campaign.draws count random).calls) : call.function ≠ name := by
  obtain ⟨f, hf, hname⟩ := CallGenerator.function_of_draws hcall
  rw [hname]
  exact h.uncalled f hf

theorem turns_eq (h : campaign.Admits schema target sender name)
    (hhost : watching.Watches host target sender name) (random : ρ) :
    ({ campaign with schema } : Campaign ρ).turns watching baseline random =
      campaign.turns host baseline random := by
  rw [turns, h.draws_eq]
  exact hhost.turns_eq (fun _ hcall => h.function_ne hcall) baseline

theorem detection?_eq (h : campaign.Admits schema target sender name)
    (hhost : watching.Watches host target sender name)
    (hlive : watched.live = live.live ++ [name]) (random : ρ) :
    ({ campaign with schema } : Campaign ρ).detection? watching baseline watched random =
      campaign.detection? host baseline live random := by
  rw [detection?, h.turns_eq hhost, detection?, h.oracle]
  exact Host.detects?_congr (hhost.shown_eq hlive) [] _

theorem attempts_eq (h : campaign.Admits schema target sender name)
    (hhost : watching.Watches host target sender name)
    (hlive : watched.live = live.live ++ [name]) (turns : List Turn) :
    watching.attempts campaign.oracle watched turns =
      host.attempts campaign.oracle live turns := by
  rw [h.oracle]
  exact Host.attempts_congr (hhost.shown_eq hlive) turns

theorem finding_eq (h : campaign.Admits schema target sender name)
    (hhost : watching.Watches host target sender name)
    (hlive : watched.live = live.live ++ [name]) {random : ρ} {detection : Detection}
    (hdetection : campaign.detection? host baseline live random = some detection)
    (iteration : Nat) :
    ({ campaign with schema } : Campaign ρ).finding watching baseline watched iteration detection =
      campaign.finding host baseline live iteration detection := by
  have hcalls : ∀ step ∈ detection.sequence, step.call.function ≠ name := by
    intro step hstep
    rcases Host.mem_of_detects? hdetection step hstep with hkept | ⟨turn, hturn, rfl⟩
    · cases hkept
    · have hcall : turn.record.call = turn.call := by
        rw [Turn.record]
        split <;> rfl
      rw [hcall]
      exact h.function_ne (Host.call_mem_of_turns hturn)
  have hpruned : Shrinking.pruned (watching.shows campaign.site.target
        ⟨campaign.oracle, watched, detection.violations⟩ baseline) [] detection.sequence =
      Shrinking.pruned (host.shows campaign.site.target
        ⟨campaign.oracle, live, detection.violations⟩ baseline) [] detection.sequence := by
    apply Shrinking.pruned_congr
    intro sequence hsequence
    rw [h.oracle]
    exact hhost.shows_eq hlive _ baseline fun step hstep => hcalls step (hsequence.subset hstep)
  simp only [finding, hpruned]

end Admits

/-- A campaign under way that has found the same as another one, but for the numbers of events, and
has one more property left. -/
structure State.Watches (watching state : State ρ) (name : String) : Prop where
  iteration : watching.iteration = state.iteration
  findings : watching.findings.map Finding.unnumbered = state.findings.map Finding.unnumbered
  live : watching.progress.live.live = state.progress.live.live ++ [name]
  random : watching.progress.random = state.progress.random

theorem Admits.live_discharge (h : campaign.Admits schema target sender name)
    (hlive : watched.live = live.live ++ [name]) (random : ρ) {violations : List Violation}
    (hviolations : violations =
      (campaign.detection? host baseline live random).elim [] Detection.violations) :
    (watched.discharge violations).live = (live.discharge violations).live ++ [name] := by
  have hnew : name ∉ live.live := Obligations.not_mem_of_live_eq hlive
  have hkept : name ∉ violations.map Violation.obligation := by
    intro hname
    obtain ⟨violation, hviolation, rfl⟩ := List.mem_map.mp hname
    apply hnew
    cases hdetection : campaign.detection? host baseline live random with
    | none =>
        rw [hviolations, hdetection] at hviolation
        cases hviolation
    | some detection =>
        rw [hviolations, hdetection] at hviolation
        obtain ⟨turn, hshown⟩ := Host.violations_of_detects? hdetection
        change violation ∈ detection.violations at hviolation
        rw [hshown, h.oracle] at hviolation
        exact Host.obligation_mem_of_shown hviolation
  rw [Obligations.live_discharge, hlive, List.filter_append, Obligations.live_discharge,
    List.filter_cons_of_pos (by simpa using hkept), List.filter_nil]

theorem State.Moves.watches (h : campaign.Admits schema target sender name)
    (hhost : watching.Watches host target sender name) {state next other reached : State ρ}
    (hmoves : state.Moves campaign host baseline next)
    (hother : other.Moves { campaign with schema } watching baseline reached)
    (hstate : other.Watches state name) : reached.Watches next name := by
  have hdetection : ({ campaign with schema } : Campaign ρ).detection? watching baseline
      other.progress.live state.progress.random =
      campaign.detection? host baseline state.progress.live state.progress.random :=
    h.detection?_eq hhost hstate.live _
  have hreported :
      (campaign.detection? host baseline state.progress.live state.progress.random).map
        (({ campaign with schema } : Campaign ρ).finding watching baseline other.progress.live
          (state.iteration + 1)) =
      (campaign.detection? host baseline state.progress.live state.progress.random).map
        (campaign.finding host baseline state.progress.live (state.iteration + 1)) := by
    cases hfound : campaign.detection? host baseline state.progress.live state.progress.random with
    | none => rw [Option.map_none, Option.map_none]
    | some detection => exact congrArg some (h.finding_eq hhost hstate.live hfound _)
  refine ⟨?_, ?_, ?_, ?_⟩
  · rw [hother.iteration, hmoves.iteration, hstate.iteration]
  · rw [hother.findings, hmoves.findings, hstate.findings, hstate.random, hdetection,
      hstate.iteration, hreported]
  · rw [hother.live, hmoves.live, hstate.random, hdetection]
    exact h.live_discharge hstate.live state.progress.random rfl
  · rw [hother.random, hmoves.random, hstate.random, h.stateAfter_eq, h.turns_eq hhost,
      h.attempts_eq hhost hstate.live]

theorem State.Moves.idles (h : campaign.Admits schema target sender name)
    (hhost : watching.Watches host target sender name) {state next : State ρ}
    (hmoves : state.Moves { campaign with schema } watching baseline next)
    (hlive : state.progress.live.live = [name]) :
    next.findings.map Finding.unnumbered = state.findings.map Finding.unnumbered ∧
      next.progress.live = state.progress.live := by
  have hdetection : ({ campaign with schema } : Campaign ρ).detection? watching baseline
      state.progress.live state.progress.random = none := by
    rw [detection?, h.oracle]
    exact Host.detects?_eq_none_iff.mpr fun turn _ => hhost.shown_eq_nil hlive turn
  refine ⟨?_, ?_⟩
  · rw [hmoves.findings, hdetection]
    exact List.append_nil _
  · rw [hmoves.live, hdetection]
    rfl

section Runs

variable {program extended : Program} {executor reached last : Executor} {count : Nat}
  {state ended : State ρ}

theorem Proceeds.watches (h : campaign.Admits schema target sender name)
    (hhost : ∀ deployed,
      Host.Watches ⟨extended, deployed⟩ ⟨program, deployed⟩ target sender name)
    (run : Proceeds campaign program.client count state executor ended last)
    {other otherEnded : State ρ} {otherExecutor : Executor}
    (others : Proceeds { campaign with schema } extended.client count other otherExecutor otherEnded
      reached)
    (hstate : other.Watches state name) (halike : Alike otherExecutor executor) :
    otherEnded.Watches ended name ∧ Alike reached last := by
  induction run generalizing other otherExecutor with
  | done =>
      cases others
      exact ⟨hstate, halike⟩
  | goes _ stepped _ ih =>
      cases others with
      | goes _ otherStepped more =>
          obtain ⟨hkept, baseline, hbaseline, hmoves⟩ := (steps stepped).moves
          obtain ⟨hotherKept, saved, hsaved, hother⟩ := (steps otherStepped).moves
          have hsame : saved = baseline := by
            change _ = some saved at hsaved
            rw [halike.snapshots] at hsaved
            exact Option.some.inj (hsaved.symm.trans hbaseline)
          rw [hsame, halike.host_eq] at hother
          exact ih more (hmoves.watches h (hhost _) hother hstate)
            ((hotherKept.trans halike).trans hkept.symm)

theorem Proceeds.idles (h : campaign.Admits schema target sender name)
    (hhost : ∀ deployed,
      Host.Watches ⟨extended, deployed⟩ ⟨program, deployed⟩ target sender name)
    (run : Proceeds { campaign with schema } extended.client count state executor ended last)
    (hlive : state.progress.live.live = [name]) :
    ended.findings.map Finding.unnumbered = state.findings.map Finding.unnumbered ∧
      ended.progress.live.live = [name] := by
  induction run with
  | done => exact ⟨rfl, hlive⟩
  | goes _ stepped _ ih =>
      obtain ⟨-, baseline, -, hmoves⟩ := (steps stepped).moves
      obtain ⟨hfindings, hkept⟩ := hmoves.idles h (hhost _) hlive
      obtain ⟨hlater, hended⟩ := ih (by rw [hkept, hlive])
      exact ⟨hlater.trans hfindings, hended⟩

/-- However long the two campaigns run under one limit, the second one ends with the findings of
the first one, and with the new property left. -/
theorem loop_watches (h : campaign.Admits schema target sender name)
    (hhost : ∀ deployed,
      Host.Watches ⟨extended, deployed⟩ ⟨program, deployed⟩ target sender name)
    {limited : Bool} {budget : Nat} {other otherEnded : State ρ}
    (hstate : other.Watches state name)
    (hloop : campaign.loop program.client (fun _ => pure ()) limited budget state executor =
      ((.ok (), ended), last))
    (hother : ({ campaign with schema } : Campaign ρ).loop extended.client (fun _ => pure ())
      limited budget other executor = ((.ok (), otherEnded), reached)) :
    otherEnded.findings.map Finding.unnumbered = ended.findings.map Finding.unnumbered ∧
      otherEnded.progress.live.live = ended.progress.live.live ++ [name] := by
  obtain ⟨count, stopped, log, run, hcount, rfl, hstopped⟩ := loop_proceeds hloop
  obtain ⟨total, stoppedOther, otherLog, others, htotal, rfl, hstoppedOther⟩ := loop_proceeds hother
  -- The second campaign always has a property left, so it only ever stops at the limit. The first
  -- one may be done before, but then the second one idles.
  rcases Nat.le_total count total with hle | hle
  · obtain ⟨rest, rfl⟩ := Nat.exists_eq_add_of_le hle
    obtain ⟨middle, between, hfirst, hsecond⟩ := others.split
    obtain ⟨hwatches, -⟩ := run.watches h hhost hfirst hstate (.refl executor)
    cases hlive : stopped.progress.live.isEmpty
    · obtain rfl : rest = 0 := by
        have hbudget := (hstopped hlive).2
        omega
      cases hsecond
      exact ⟨hwatches.findings, hwatches.live⟩
    · have hnone : stopped.progress.live.live = [] := List.isEmpty_iff.mp hlive
      have hmiddle : middle.progress.live.live = [name] := by rw [hwatches.live, hnone]; rfl
      obtain ⟨hfindings, hended⟩ := hsecond.idles h hhost hmiddle
      refine ⟨hfindings.trans hwatches.findings, ?_⟩
      change stoppedOther.progress.live.live = stopped.progress.live.live ++ [name]
      rw [hended, hnone]
      rfl
  · obtain ⟨rest, rfl⟩ := Nat.exists_eq_add_of_le hle
    obtain ⟨middle, between, hfirst, hsecond⟩ := run.split
    obtain ⟨hwatches, -⟩ := hfirst.watches h hhost others hstate (.refl executor)
    have hlive : stoppedOther.progress.live.isEmpty = false := by
      simp [Obligations.isEmpty, hwatches.live]
    obtain rfl : rest = 0 := by
      have hbudget := (hstoppedOther hlive).2
      omega
    cases hsecond
    exact ⟨hwatches.findings, hwatches.live⟩

end Runs

end Campaign

end ContractFuzz
