import ContractFuzz.Campaign.Oracle
import ContractFuzz.Sandbox.Executor

namespace ContractFuzz.Sandbox

/-- A program, and the address at which it is deployed. -/
structure Host where
  program : Program
  deployed : Option InstanceId

namespace Host

/-- What a call comes to in a storage: its outcome and the storage after it, or the revert. -/
def respond (host : Host) (invocation : Invocation) (storage : Storage) :
    Except Revert (Outcome × Storage) :=
  if host.deployed = some invocation.target then
    match Executor.compute host.program storage (Executor.handlerCall invocation) with
    | .ok result => .ok result
    | .error message => .error ⟨message⟩
  else
    .error ⟨s!"Requested contract address {invocation.target.toHex} is not deployed."⟩

/-- Whether a property returns zero in a storage. -/
def breaks (host : Host) (target : InstanceId) (sender : Felt) (storage : Storage)
    (name : String) : Bool :=
  match host.respond (Oracle.propertyQuery target sender name) storage with
  | .ok (outcome, _) => outcome.returnData == [0]
  | .error _ => false

/-- The obligations that a storage breaks, in the order in which they are live. -/
def violated (host : Host) (live : Obligations) (storage : Storage) : Oracle → List String
  | .properties target sender => live.live.filter (host.breaks target sender storage)
  | .exceptions _ => []

end Host

namespace Executor

variable {program : Program} {invocation : Invocation} {executor : Executor}

abbrev host (program : Program) (executor : Executor) : Host := ⟨program, executor.deployed⟩

/-- Executors that hold the same snapshots of the same deployment. Their storages and counters may
differ. -/
structure Alike (next executor : Executor) : Prop where
  deployed : next.deployed = executor.deployed
  snapshots : next.snapshots = executor.snapshots

theorem Alike.refl (executor : Executor) : Alike executor executor := ⟨rfl, rfl⟩

theorem Alike.trans {last next : Executor} (h : Alike last next)
    (hnext : Alike next executor) : Alike last executor :=
  ⟨h.deployed.trans hnext.deployed, h.snapshots.trans hnext.snapshots⟩

theorem Alike.host_eq {next : Executor} (h : Alike next executor) :
    host program next = host program executor := by
  rw [host, h.deployed, host]

theorem run_of_ok {outcome : Outcome} {storage : Storage} (commits : Bool) (counted : Executor)
    (hstorage : counted.storage = executor.storage) (hcounted : Alike counted executor)
    (h : (host program executor).respond invocation executor.storage = .ok (outcome, storage)) :
    ∃ next, (if executor.deployed = some invocation.target then
          run program invocation.target (handlerCall invocation) commits counted
        else (.error (notDeployed invocation.target), executor)) =
        (.ok (frame program invocation.target (handlerCall invocation) outcome
          counted.nextEvent), next) ∧
      next.storage = (if commits then storage else executor.storage) ∧ Alike next executor := by
  rw [Host.respond] at h
  split at h
  · rename_i hdeployed
    rw [if_pos hdeployed, run, hstorage]
    split at h
    · rename_i hcompute
      cases h
      rw [hcompute]
      exact ⟨_, rfl, rfl, hcounted.deployed, hcounted.snapshots⟩
    · cases h
  · cases h

theorem run_of_error {r : Revert} (commits : Bool) (counted : Executor)
    (hstorage : counted.storage = executor.storage) (hcounted : Alike counted executor)
    (h : (host program executor).respond invocation executor.storage = .error r) :
    ∃ next, (if executor.deployed = some invocation.target then
          run program invocation.target (handlerCall invocation) commits counted
        else (.error (notDeployed invocation.target), executor)) =
        (.error (.revert r), next) ∧
      next.storage = executor.storage ∧ Alike next executor := by
  rw [Host.respond] at h
  split at h
  · rename_i hdeployed
    rw [if_pos hdeployed, run, hstorage]
    split at h
    · cases h
    · rename_i hcompute
      cases h
      rw [hcompute]
      exact ⟨_, rfl, hstorage, hcounted.deployed, hcounted.snapshots⟩
  · rename_i hdeployed
    cases h
    rw [if_neg hdeployed]
    exact ⟨_, rfl, rfl, .refl executor⟩

theorem invoke_of_ok {outcome : Outcome} {storage : Storage}
    (h : (host program executor).respond invocation executor.storage = .ok (outcome, storage)) :
    ∃ next, program.client.invoke invocation executor =
        (.ok (frame program invocation.target (handlerCall invocation) outcome
          executor.nextEvent), next) ∧
      next.storage = storage ∧ Alike next executor :=
  run_of_ok true (executor.countInvocation invocation.function) rfl ⟨rfl, rfl⟩ h

theorem invoke_of_error {r : Revert}
    (h : (host program executor).respond invocation executor.storage = .error r) :
    ∃ next, program.client.invoke invocation executor = (.error (.revert r), next) ∧
      next.storage = executor.storage ∧ Alike next executor :=
  run_of_error true (executor.countInvocation invocation.function) rfl ⟨rfl, rfl⟩ h

theorem respond_of_invoke_ok {answered : Frame} {next : Executor}
    (h : program.client.invoke invocation executor = (.ok answered, next)) :
    Alike next executor ∧ ∃ outcome,
      (host program executor).respond invocation executor.storage = .ok (outcome, next.storage) ∧
      answered = frame program invocation.target (handlerCall invocation) outcome
        executor.nextEvent := by
  rcases hrespond : (host program executor).respond invocation executor.storage with
    r | ⟨outcome, storage⟩
  · obtain ⟨other, answer, -, -⟩ := invoke_of_error hrespond
    rw [h] at answer
    cases answer
  · obtain ⟨other, answer, hstorage, halike⟩ := invoke_of_ok hrespond
    rw [h] at answer
    cases answer
    exact ⟨halike, outcome, by rw [hstorage], rfl⟩

theorem respond_of_invoke_error {e : ExecutionError} {next : Executor}
    (h : program.client.invoke invocation executor = (.error e, next)) :
    Alike next executor ∧ next.storage = executor.storage ∧ ∃ r, e = .revert r ∧
      (host program executor).respond invocation executor.storage = .error r := by
  rcases hrespond : (host program executor).respond invocation executor.storage with
    r | ⟨outcome, storage⟩
  · obtain ⟨other, answer, hstorage, halike⟩ := invoke_of_error hrespond
    rw [h] at answer
    cases answer
    exact ⟨halike, hstorage, r, rfl, rfl⟩
  · obtain ⟨other, answer, -, -⟩ := invoke_of_ok hrespond
    rw [h] at answer
    cases answer

theorem query_of_ok {outcome : Outcome} {storage : Storage}
    (h : (host program executor).respond invocation executor.storage = .ok (outcome, storage)) :
    ∃ next, program.client.query invocation executor =
        (.ok (frame program invocation.target (handlerCall invocation) outcome
          executor.nextEvent), next) ∧
      next.storage = executor.storage ∧ Alike next executor :=
  run_of_ok false executor.countQuery rfl ⟨rfl, rfl⟩ h

theorem query_of_error {r : Revert}
    (h : (host program executor).respond invocation executor.storage = .error r) :
    ∃ next, program.client.query invocation executor = (.error (.revert r), next) ∧
      next.storage = executor.storage ∧ Alike next executor :=
  run_of_error false executor.countQuery rfl ⟨rfl, rfl⟩ h

theorem restore_of_some (program : Program) {handle : StateHandle} {storage : Storage}
    (h : executor.snapshots[handle.id]? = some storage) :
    ∃ next, program.client.restore handle executor = (.ok (), next) ∧
      next.storage = storage ∧ Alike next executor := by
  change ∃ next, restore handle executor = _ ∧ _
  rw [restore, h]
  exact ⟨_, rfl, rfl, rfl, rfl⟩

theorem restore_of_none (program : Program) {handle : StateHandle}
    (h : executor.snapshots[handle.id]? = none) :
    program.client.restore handle executor =
      (.error (.client (.unknownHandle handle.id)), executor) := by
  change restore handle executor = _
  rw [restore, h]

end Executor

end ContractFuzz.Sandbox
