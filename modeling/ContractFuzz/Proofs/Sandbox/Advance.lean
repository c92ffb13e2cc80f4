import ContractFuzz.Proofs.Sandbox.Replay

namespace ContractFuzz.Sandbox

/-- Calls that take one storage to another, each changing it. -/
inductive Host.Advances (host : Host) (target : InstanceId) :
    Storage → List RecordedCall → Storage → Prop
  | done {storage} : Advances host target storage [] storage
  | goes {storage step outcome next rest last}
      (response : host.respond (step.call.invocation target) storage = .ok (outcome, next))
      (changes : next ≠ storage)
      (more : Advances host target next rest last) :
      Advances host target storage (step :: rest) last

namespace Host.Advances

variable {host : Host} {target : InstanceId} {storage middle : Storage}
  {sequence : List RecordedCall}

theorem concat (h : Advances host target storage sequence middle) {step : RecordedCall}
    {outcome : Outcome} {next : Storage}
    (response : host.respond (step.call.invocation target) middle = .ok (outcome, next))
    (changes : next ≠ middle) : Advances host target storage (sequence ++ [step]) next := by
  induction h with
  | done => exact .goes response changes .done
  | goes hresponse hchanges _ ih => exact .goes hresponse hchanges (ih response changes)

theorem shows_append (h : Advances host target storage sequence middle) (goal : Goal)
    (rest : List RecordedCall) :
    host.shows target goal storage (sequence ++ rest) = host.shows target goal middle rest := by
  induction h with
  | done => rfl
  | goes response _ _ ih =>
      rw [List.cons_append, Host.shows_of_ok response]
      exact ih

end Host.Advances

/-- Calls that an executor lets through, each changing its storage, and their frames. -/
inductive Executor.Advances (program : Program) (target : InstanceId) :
    Executor → List RecordedCall → List Frame → Executor → Prop
  | done {executor} : Advances program target executor [] [] executor
  | goes {executor step frame next rest frames last}
      (answer : program.client.invoke (step.call.invocation target) executor = (.ok frame, next))
      (changes : next.storage ≠ executor.storage)
      (more : Advances program target next rest frames last) :
      Advances program target executor (step :: rest) (frame :: frames) last

namespace Executor

variable {program : Program} {target : InstanceId} {executor : Executor}

theorem advances_of_host {storage last : Storage} {sequence : List RecordedCall}
    (h : (host program executor).Advances target storage sequence last)
    (hstorage : executor.storage = storage) :
    ∃ frames next, Advances program target executor sequence frames next ∧
      next.storage = last ∧ Alike next executor := by
  generalize hhost : host program executor = constant at h
  induction h generalizing executor with
  | done => exact ⟨[], executor, .done, hstorage, .refl executor⟩
  | @goes storage step outcome next rest last response changes _ ih =>
      rw [← hhost, ← hstorage] at response
      obtain ⟨called, answer, hcalled, halike⟩ := invoke_of_ok response
      have hconstant : host program called = constant := by
        rw [halike.host_eq]
        exact hhost
      obtain ⟨frames, ended, hadvances, hended, hlast⟩ := ih hcalled hconstant
      rw [← hcalled, ← hstorage] at changes
      exact ⟨_, ended, .goes answer changes hadvances, hended, hlast.trans halike⟩

theorem Advances.calls {sequence rest : List RecordedCall} {frames : List Frame}
    {last ended : Executor} (h : Advances program target executor sequence frames last)
    {stops : Revert → Bool} {replay : Replay}
    (hrest : Replay.calls program.client target stops rest last = (.ok replay, ended)) :
    Replay.calls program.client target stops (sequence ++ rest) executor =
      (.ok ⟨frames.map .ok ++ replay.outcomes, replay.stopped⟩, ended) := by
  induction h with
  | done => exact hrest
  | goes answer _ _ ih =>
      simp only [List.cons_append, Replay.calls, bind_apply, answer, ih hrest]
      rfl

end Executor

end ContractFuzz.Sandbox
