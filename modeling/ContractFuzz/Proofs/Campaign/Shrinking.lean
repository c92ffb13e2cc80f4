import ContractFuzz.Proofs.Campaign.Obligations
import ContractFuzz.Proofs.Campaign.Oracle
import ContractFuzz.Proofs.Sandbox.Advance

namespace ContractFuzz.Shrinking

open ContractFuzz.Sandbox

/-- The calls `kept`, and those of `pending` that cannot be left out. -/
def pruned (shows : List RecordedCall → Bool) (kept : List RecordedCall) :
    List RecordedCall → List RecordedCall
  | [] => kept
  | step :: pending =>
      if shows (kept ++ pending) then pruned shows kept pending
      else pruned shows (kept ++ [step]) pending

theorem pruned_sublist (shows : List RecordedCall → Bool) (kept pending : List RecordedCall) :
    (pruned shows kept pending).Sublist (kept ++ pending) := by
  induction pending generalizing kept with
  | nil =>
      rw [List.append_nil]
      exact List.Sublist.refl kept
  | cons step pending ih =>
      rw [pruned]
      split
      · have hdropped : (kept ++ pending).Sublist (kept ++ step :: pending) :=
          (List.sublist_cons_self step pending).append_left kept
        exact (ih kept).trans hdropped
      · have hkept := ih (kept ++ [step])
        rw [List.append_assoc] at hkept
        exact hkept

theorem pruned_shows {shows : List RecordedCall → Bool} {kept pending : List RecordedCall}
    (h : shows (kept ++ pending) = true) : shows (pruned shows kept pending) = true := by
  induction pending generalizing kept with
  | nil =>
      rw [List.append_nil] at h
      exact h
  | cons step pending ih =>
      rw [pruned]
      split
      · rename_i hdropped
        exact ih hdropped
      · apply ih
        rw [List.append_assoc]
        exact h

variable (program : Program) (goal : Goal) {site : Site} {executor : Executor}

/-- In process, every trial starts over from the baseline, so that pruning is a matter of the
sequence alone. -/
theorem prune_pruned {baseline : Storage} (kept pending : List RecordedCall) (coverage : Coverage)
    (hbaseline : executor.snapshots[site.baseline.id]? = some baseline) :
    ∃ after next,
      prune program.client site goal kept pending coverage executor =
        ((.ok (pruned ((executor.host program).shows site.target goal baseline) kept pending),
          after), next) ∧
      Executor.Alike next executor := by
  induction pending generalizing kept coverage executor with
  | nil => exact ⟨coverage, executor, rfl, .refl executor⟩
  | cons step pending ih =>
      obtain ⟨covered, tried, hreproduces, htried⟩ :=
        Executor.reproduces_shows program goal (kept ++ pending) coverage hbaseline
      rw [← htried.snapshots] at hbaseline
      rw [pruned]
      split
      · rename_i hshows
        obtain ⟨after, next, hprune, hnext⟩ := ih kept covered hbaseline
        rw [htried.host_eq] at hprune
        refine ⟨after, next, ?_, hnext.trans htried⟩
        simp only [prune, bind_apply, hreproduces, hshows, hprune]
      · rename_i hshows
        obtain ⟨after, next, hprune, hnext⟩ := ih (kept ++ [step]) covered hbaseline
        rw [htried.host_eq] at hprune
        refine ⟨after, next, ?_, hnext.trans htried⟩
        simp only [prune, bind_apply, hreproduces, Bool.eq_false_iff.mpr hshows, hprune]

theorem shrink_pruned {baseline : Storage} (sequence : List RecordedCall) (coverage : Coverage)
    (hbaseline : executor.snapshots[site.baseline.id]? = some baseline) :
    ∃ after next,
      shrink program.client site goal sequence coverage executor =
        ((.ok (pruned ((executor.host program).shows site.target goal baseline) [] sequence),
          goal.live.discharge goal.violations, after), next) ∧
      Executor.Alike next executor := by
  obtain ⟨after, next, hprune, hnext⟩ := prune_pruned program goal [] sequence coverage hbaseline
  refine ⟨after, next, ?_, hnext⟩
  simp only [shrink, bind_apply, pure_apply, hprune]

variable {program goal}

theorem shrink_of_reproduces {trial : Executor} {sequence : List RecordedCall} {tried : Coverage}
    (h : (reproduces program.client site goal sequence tried trial).1.1 = .ok true)
    (halike : Executor.Alike executor trial) (coverage : Coverage) :
    ∃ baseline after ended,
      executor.snapshots[site.baseline.id]? = some baseline ∧
      (executor.host program).shows site.target goal baseline sequence = true ∧
      shrink program.client site goal sequence coverage executor =
        ((.ok (pruned ((executor.host program).shows site.target goal baseline) [] sequence),
          goal.live.discharge goal.violations, after), ended) ∧
      Executor.Alike ended executor := by
  obtain ⟨baseline, hbaseline, hshows⟩ := Executor.shows_of_reproduces program h
  rw [← halike.snapshots] at hbaseline
  rw [← halike.host_eq] at hshows
  obtain ⟨after, ended, hshrink, hended⟩ :=
    shrink_pruned program goal sequence coverage hbaseline
  exact ⟨baseline, after, ended, hbaseline, hshows, hshrink, hended⟩

/-- What is left of a sequence that shows violations shows them too, with the obligations that were
live before, and its calls are unchanged and in order. Only the obligations of the violations are
discharged. -/
theorem shrink_reproduces {trial : Executor} {sequence : List RecordedCall} {tried : Coverage}
    (h : (reproduces program.client site goal sequence tried trial).1.1 = .ok true)
    (halike : Executor.Alike executor trial) (coverage : Coverage) :
    ∃ shorter live after ended,
      shrink program.client site goal sequence coverage executor =
        ((.ok shorter, live, after), ended) ∧
      shorter.Sublist sequence ∧
      (∀ coverage later, Executor.Alike later ended →
        (reproduces program.client site goal shorter coverage later).1.1 = .ok true) ∧
      live.live = goal.live.live.filter (· ∉ goal.violations.map Violation.obligation) := by
  obtain ⟨baseline, after, ended, hbaseline, hshows, hshrink, hended⟩ :=
    shrink_of_reproduces h halike coverage
  have hstart : (executor.host program).shows site.target goal baseline ([] ++ sequence) = true :=
    hshows
  have hshorter := pruned_shows hstart
  refine ⟨_, _, after, ended, hshrink, pruned_sublist _ [] sequence, ?_,
    Obligations.live_discharge goal.live goal.violations⟩
  intro coverage later hlater
  have hlater := hlater.trans hended
  rw [← hlater.snapshots] at hbaseline
  obtain ⟨covered, next, hreproduces, -⟩ :=
    Executor.reproduces_shows program goal _ coverage hbaseline
  rw [hreproduces, hlater.host_eq, hshorter]

/-- A turnstile that opens when it is pushed after a coin. It jams when it is pushed open. -/
def turnstile : Program :=
  [.external "coin" [] fun storage _ => .ok ({}, storage.write "paid" 1),
    .external "push" [] fun storage _ =>
      if storage.read "open" = 1 then .error "Jammed: pushed too often"
      else if storage.read "paid" = 1 then .ok ({}, storage.write "open" 1)
      else .ok ({}, storage),
    .property "closed" fun storage _ =>
      .ok ({ returnData := [if storage.read "open" = 1 then 0 else 1] }, storage)]

def turnstileSite : Site := ⟨targetAddress, ⟨0⟩⟩

def turnstileExecutor : Executor := { snapshots := [.empty], deployed := some targetAddress }

def turnstileCalls : List RecordedCall :=
  ["push", "coin", "coin", "push"].map fun function => ⟨⟨0, function, [], .external, none⟩, []⟩

def opened : Goal := ⟨.properties targetAddress 0, .ofList ["closed"], [.property "closed" []]⟩

theorem shrink_reproduces_opened :
    (reproduces turnstile.client turnstileSite opened turnstileCalls .empty
        turnstileExecutor).1.1 = .ok true ∧
      ∃ shorter live after ended,
        shrink turnstile.client turnstileSite opened turnstileCalls .empty turnstileExecutor =
          ((.ok shorter, live, after), ended) ∧
        shorter.Sublist turnstileCalls ∧
        (∀ coverage later, Executor.Alike later ended →
          (reproduces turnstile.client turnstileSite opened shorter coverage later).1.1 =
            .ok true) ∧
        live.live = opened.live.live.filter
          (· ∉ opened.violations.map Violation.obligation) := by
  have hreproduces : (reproduces turnstile.client turnstileSite opened turnstileCalls .empty
      turnstileExecutor).1.1 = .ok true := by decide +kernel
  exact ⟨hreproduces, shrink_reproduces hreproduces (.refl turnstileExecutor) .empty⟩

/-- Sequences without an idle call. They advance to a storage that meets the goal, or to one in
which a last call shows it by its revert. -/
inductive Tight (host : Host) (target : InstanceId) (goal : Goal) (baseline : Storage) :
    List RecordedCall → Prop
  | meets {sequence last} (advances : host.Advances target baseline sequence last)
      (met : host.meets goal last = true) : Tight host target goal baseline sequence
  | raises {earlier middle step r} (advances : host.Advances target baseline earlier middle)
      (response : host.respond (step.call.invocation target) middle = .error r)
      (shown : goal.isShownBy r = true) : Tight host target goal baseline (earlier ++ [step])

theorem pruned_of_shown {shows : List RecordedCall → Bool} {kept : List RecordedCall}
    (h : ∀ rest, shows (kept ++ rest) = true) (pending : List RecordedCall) :
    pruned shows kept pending = kept := by
  induction pending with
  | nil => rfl
  | cons step pending ih =>
      rw [pruned, if_pos (h pending)]
      exact ih

/-- Calls left of the cursor are never tried again, but they need not be: an idle call shows as
much from the storage before it as the calls after it do, so it goes when its turn comes. -/
theorem pruned_tight {host : Host} {target : InstanceId} {baseline middle : Storage}
    {kept pending : List RecordedCall} (hkept : host.Advances target baseline kept middle)
    (hshows : host.shows target goal middle pending = true) :
    Tight host target goal baseline (pruned (host.shows target goal baseline) kept pending) := by
  induction pending generalizing kept middle with
  | nil => exact .meets hkept hshows
  | cons step pending ih =>
      rw [pruned, hkept.shows_append]
      by_cases hdropped : host.shows target goal middle pending = true
      · rw [if_pos hdropped]
        exact ih hkept hdropped
      · rw [if_neg hdropped]
        rcases hrespond : host.respond (step.call.invocation target) middle with
          r | ⟨outcome, next⟩
        · by_cases hstop : goal.isShownBy r = true
          · have hshown : ∀ rest,
                host.shows target goal baseline ((kept ++ [step]) ++ rest) = true := by
              intro rest
              rw [List.append_assoc, hkept.shows_append]
              exact Host.shows_of_stop hrespond hstop
            rw [pruned_of_shown hshown]
            exact .raises hkept hrespond hstop
          · rw [Host.shows_of_pass hrespond hstop] at hshows
            exact absurd hshows hdropped
        · rw [Host.shows_of_ok hrespond] at hshows
          by_cases hidle : next = middle
          · rw [hidle] at hshows
            exact absurd hshows hdropped
          · exact ih (hkept.concat hrespond hidle) hshows

/-- What replaying a sequence without an idle call comes to. If properties are looked for, every
call goes through and changes the storage. If exceptions are, so does every call but the last,
which stops the replay: it raises the one message that the violations carry. -/
def ReplaysTight (program : Program) (site : Site) (goal : Goal) (sequence : List RecordedCall)
    (executor : Executor) : Oracle → Prop
  | .properties .. => ∃ restored frames last,
      program.client.restore site.baseline executor = (.ok (), restored) ∧
      Executor.Advances program site.target restored sequence frames last ∧
      Replay.run program.client site goal.isShownBy sequence executor =
        (.ok ⟨frames.map .ok, false⟩, last)
  | .exceptions signatures => ∃ restored earlier step frames middle r message last,
      sequence = earlier ++ [step] ∧
      program.client.restore site.baseline executor = (.ok (), restored) ∧
      Executor.Advances program site.target restored earlier frames middle ∧
      program.client.invoke (step.call.invocation site.target) middle =
        (.error (.revert r), last) ∧
      Oracle.extractMessage? signatures r = some message ∧
      goal.violations.filterMap Violation.raised? = [message] ∧
      Replay.run program.client site goal.isShownBy sequence executor =
        (.ok ⟨frames.map .ok ++ [.error r], true⟩, last)

theorem Tight.replays {baseline : Storage} {sequence : List RecordedCall}
    (h : Tight (executor.host program) site.target goal baseline sequence)
    (hbaseline : executor.snapshots[site.baseline.id]? = some baseline) :
    ReplaysTight program site goal sequence executor goal.oracle := by
  obtain ⟨restored, answer, hstorage, hrestored⟩ := Executor.restore_of_some program hbaseline
  rw [← hrestored.host_eq] at h
  cases h with
  | meets advances met =>
      obtain ⟨frames, last, hadvances, -, -⟩ := Executor.advances_of_host advances hstorage
      have hend : Replay.calls program.client site.target goal.isShownBy [] last =
          (.ok ⟨[], false⟩, last) := rfl
      have hcalls := hadvances.calls hend
      rw [List.append_nil, List.append_nil] at hcalls
      cases horacle : goal.oracle with
      | properties queried sender =>
          refine ⟨restored, frames, last, answer, hadvances, ?_⟩
          simp only [Replay.run, bind_apply, answer, hcalls]
      | exceptions signatures =>
          rw [Host.meets, horacle] at met
          cases met
  | @raises earlier middle step r advances response shown =>
      obtain ⟨frames, reached, hadvances, hreached, halike⟩ :=
        Executor.advances_of_host advances hstorage
      rw [← halike.host_eq, ← hreached] at response
      obtain ⟨last, hraised, -, -⟩ := Executor.invoke_of_error response
      have hend : Replay.calls program.client site.target goal.isShownBy [step] reached =
          (.ok ⟨[.error r], true⟩, last) := by
        simp only [Replay.calls, bind_apply, pure_apply, hraised, shown, if_true]
      have hcalls := hadvances.calls hend
      obtain ⟨signatures, message, horacle, hmessage, hlooked⟩ := Goal.message_of_isShownBy shown
      rw [horacle]
      refine ⟨restored, earlier, step, frames, reached, r, message, last, rfl, answer, hadvances,
        hraised, hmessage, hlooked, ?_⟩
      simp only [Replay.run, bind_apply, answer, hcalls]

/-- No call is idle in what is left of a sequence that shows violations. -/
theorem shrink_tight {trial : Executor} {sequence : List RecordedCall} {tried : Coverage}
    (h : (reproduces program.client site goal sequence tried trial).1.1 = .ok true)
    (halike : Executor.Alike executor trial) (coverage : Coverage) :
    ∃ shorter live after ended,
      shrink program.client site goal sequence coverage executor =
        ((.ok shorter, live, after), ended) ∧
      ∀ replayer, Executor.Alike replayer ended →
        ReplaysTight program site goal shorter replayer goal.oracle := by
  obtain ⟨baseline, after, ended, hbaseline, hshows, hshrink, hended⟩ :=
    shrink_of_reproduces h halike coverage
  have htight := pruned_tight .done hshows
  refine ⟨_, _, after, ended, hshrink, ?_⟩
  intro replayer hreplayer
  have hreplayer := hreplayer.trans hended
  rw [← hreplayer.snapshots] at hbaseline
  rw [← hreplayer.host_eq]
  rw [← hreplayer.host_eq] at htight
  exact htight.replays hbaseline

def jammed : Goal :=
  ⟨.exceptions ["Jammed"], .ofList ["pushed"], [.exception "pushed" "pushed too often"]⟩

def jammingCalls : List RecordedCall :=
  ["push", "coin", "push", "coin", "push", "push"].map fun function =>
    ⟨⟨0, function, [], .external, none⟩, []⟩

theorem shrink_tight_jammed :
    (reproduces turnstile.client turnstileSite jammed jammingCalls .empty
        turnstileExecutor).1.1 = .ok true ∧
      ∃ shorter live after ended,
        shrink turnstile.client turnstileSite jammed jammingCalls .empty turnstileExecutor =
          ((.ok shorter, live, after), ended) ∧
        ∀ replayer, Executor.Alike replayer ended →
          ReplaysTight turnstile turnstileSite jammed shorter replayer jammed.oracle := by
  have hreproduces : (reproduces turnstile.client turnstileSite jammed jammingCalls .empty
      turnstileExecutor).1.1 = .ok true := by decide +kernel
  exact ⟨hreproduces, shrink_tight hreproduces (.refl turnstileExecutor) .empty⟩

end ContractFuzz.Shrinking
