import ContractFuzz.Proofs.Sandbox.Response
import Mathlib.Data.List.Basic

/-!
What an executor holds after any operations. Its storage goes back to the one that the handle last
restored has captured, and only calls that went through have changed it since.
-/

namespace ContractFuzz

/-- What is asked of a client. -/
inductive Operation where
  | deploy (artifact : Artifact) (arguments : List Felt)
  | declare (artifact : Artifact)
  | invoke (call : Invocation)
  | query (call : Invocation)
  | snapshot
  | restore (handle : StateHandle)

abbrev Operation.Answer : Operation → Type
  | .deploy _ _ => Frame
  | .declare _ => ClassHash
  | .invoke _ => Frame
  | .query _ => Frame
  | .snapshot => StateHandle
  | .restore _ => Unit

def Client.perform {m : Type → Type} (client : Client m) :
    (operation : Operation) → m (Except ExecutionError operation.Answer)
  | .deploy artifact arguments => client.deploy artifact arguments
  | .declare artifact => client.declare artifact
  | .invoke call => client.invoke call
  | .query call => client.query call
  | .snapshot => client.snapshot
  | .restore handle => client.restore handle

namespace Sandbox

/-- An operation, its answer, and the storage after it. -/
structure Exchange where
  operation : Operation
  answer : Except ExecutionError operation.Answer
  storage : Storage

namespace Program

/-- The storage after calls have been applied in order, or the message of the first that reverts. -/
def apply (program : Program) (calls : List HandlerCall) (storage : Storage) :
    Except String Storage :=
  calls.foldlM (fun storage call => (Executor.compute program storage call).map Prod.snd) storage

def constructorCalls (program : Program) (arguments : List Felt) : List HandlerCall :=
  if (program.handler? Declaration.constructorName).isSome then
    [Executor.constructorCall arguments]
  else []

end Program

namespace Exchange

def restores : Exchange → Bool
  | ⟨.restore _, .ok _, _⟩ => true
  | _ => false

/-- Whether the storage may have changed: a deployment, an invocation or a restoration that
succeeded. -/
def changes : Exchange → Bool
  | ⟨.deploy _ _, .ok _, _⟩ => true
  | ⟨.invoke _, .ok _, _⟩ => true
  | ⟨.restore _, .ok _, _⟩ => true
  | _ => false

/-- The calls that have been committed: the constructor of a deployment or the handler of an
invocation that succeeded. -/
def commits (program : Program) : Exchange → List HandlerCall
  | ⟨.deploy _ arguments, .ok _, _⟩ => program.constructorCalls arguments
  | ⟨.invoke call, .ok _, _⟩ => [Executor.handlerCall call]
  | _ => []

def deploys : Exchange → Bool
  | ⟨.deploy _ _, .ok _, _⟩ => true
  | _ => false

theorem of_not_changes {exchange : Exchange} (h : exchange.changes = false) (program : Program) :
    exchange.restores = false ∧ exchange.commits program = [] ∧ exchange.deploys = false := by
  rcases exchange with ⟨operation, e | answered, storage⟩
  · cases operation <;> exact ⟨rfl, rfl, rfl⟩
  · cases operation with
    | deploy _ _ | invoke _ | restore _ => cases h
    | declare _ | query _ | snapshot => exact ⟨rfl, rfl, rfl⟩

end Exchange

/-- An executor, and what it has been asked and has answered, the oldest first. -/
structure History where
  record : List Exchange
  executor : Executor

namespace Executor

def perform (program : Program) (operation : Operation) (executor : Executor) :
    Exchange × Executor :=
  let (answer, next) := program.client.perform operation executor
  (⟨operation, answer, next.storage⟩, next)

/-- A handle restores a storage. -/
def BringsBack (program : Program) (executor : Executor) (handle : StateHandle)
    (storage : Storage) : Prop :=
  ∃ next, program.client.restore handle executor = (.ok (), next) ∧ next.storage = storage

/-- What one operation can come to. -/
inductive Turn (program : Program) (executor : Executor) : Exchange → Executor → Prop
  | deploys {artifact arguments frame next}
      (applied : program.apply (program.constructorCalls arguments) executor.storage =
        .ok next.storage)
      (deployed : next.deployed = some targetAddress)
      (snapshots : next.snapshots = executor.snapshots) :
      Turn program executor ⟨.deploy artifact arguments, .ok frame, next.storage⟩ next
  | invokes {call frame next}
      (applied : program.apply [handlerCall call] executor.storage = .ok next.storage)
      (alike : Alike next executor) :
      Turn program executor ⟨.invoke call, .ok frame, next.storage⟩ next
  | captures :
      Turn program executor ⟨.snapshot, .ok ⟨executor.snapshots.length⟩, executor.storage⟩
        { executor with snapshots := executor.snapshots ++ [executor.storage] }
  | restores {handle next}
      (captured : executor.snapshots[handle.id]? = some next.storage)
      (alike : Alike next executor) :
      Turn program executor ⟨.restore handle, .ok (), next.storage⟩ next
  | leaves {exchange next}
      (changes : exchange.changes = false)
      (snapshot : exchange.operation ≠ .snapshot)
      (storage : next.storage = executor.storage)
      (alike : Alike next executor) :
      Turn program executor exchange next

section Turn

variable {program : Program} {executor next : Executor} {frame : Frame}

theorem compute_of_respond {call : Invocation} {storage : Storage} {result : Outcome × Storage}
    (h : (host program executor).respond call storage = .ok result) :
    compute program storage (handlerCall call) = .ok result := by
  rw [Host.respond] at h
  split at h
  · split at h
    · cases h
      assumption
    · cases h
  · cases h

theorem apply_of_compute {call : HandlerCall} {storage last : Storage} {outcome : Outcome}
    (h : compute program storage call = .ok (outcome, last)) :
    program.apply [call] storage = .ok last := by
  rw [Program.apply, List.foldlM_cons, h]
  rfl

theorem construct_of_ok {arguments : List Felt}
    (h : construct program arguments executor = (.ok frame, next)) :
    program.apply (program.constructorCalls arguments) executor.storage = .ok next.storage ∧
      next.snapshots = executor.snapshots := by
  rw [construct] at h
  rw [Program.constructorCalls]
  split at h
  · rename_i hconstructor
    rw [if_pos hconstructor]
    rw [run] at h
    split at h
    · cases h
    · rename_i hcompute
      cases h
      exact ⟨apply_of_compute hcompute, rfl⟩
  · rename_i hconstructor
    rw [if_neg hconstructor]
    cases h
    exact ⟨rfl, rfl⟩

theorem construct_of_error {arguments : List Felt} {e : ExecutionError}
    (h : construct program arguments executor = (.error e, next)) :
    next.storage = executor.storage ∧ Alike next executor := by
  rw [construct] at h
  split at h
  · rw [run] at h
    split at h
    · cases h
      exact ⟨rfl, rfl, rfl⟩
    · cases h
  · cases h

theorem perform_eq (operation : Operation) {answer : Except ExecutionError operation.Answer}
    (h : program.client.perform operation executor = (answer, next)) :
    perform program operation executor = (⟨operation, answer, next.storage⟩, next) := by
  rw [perform, h]

theorem deploy_turn (artifact : Artifact) (arguments : List Felt) :
    Turn program executor (perform program (.deploy artifact arguments) executor).1
      (perform program (.deploy artifact arguments) executor).2 := by
  rcases hconstruct : construct program arguments executor with ⟨e | frame, next⟩
  · have hdeploy : deploy program arguments executor = (.error e, next) := by
      rw [deploy, hconstruct]
    obtain ⟨hstorage, halike⟩ := construct_of_error hconstruct
    rw [perform_eq (.deploy artifact arguments) hdeploy]
    exact .leaves rfl nofun hstorage halike
  · have hdeploy : deploy program arguments executor =
        (.ok frame, { next with deployed := some targetAddress }) := by
      rw [deploy, hconstruct]
    obtain ⟨happlied, hsnapshots⟩ := construct_of_ok hconstruct
    rw [perform_eq (.deploy artifact arguments) hdeploy]
    exact .deploys happlied rfl hsnapshots

theorem invoke_turn (call : Invocation) :
    Turn program executor (perform program (.invoke call) executor).1
      (perform program (.invoke call) executor).2 := by
  rcases hinvoke : program.client.invoke call executor with ⟨e | frame, next⟩
  · obtain ⟨halike, hstorage, -⟩ := respond_of_invoke_error hinvoke
    rw [perform_eq (.invoke call) hinvoke]
    exact .leaves rfl nofun hstorage halike
  · obtain ⟨halike, outcome, hrespond, -⟩ := respond_of_invoke_ok hinvoke
    rw [perform_eq (.invoke call) hinvoke]
    exact .invokes (apply_of_compute (compute_of_respond hrespond)) halike

theorem query_turn (call : Invocation) :
    Turn program executor (perform program (.query call) executor).1
      (perform program (.query call) executor).2 := by
  rcases hrespond : (host program executor).respond call executor.storage with
    r | ⟨outcome, storage⟩
  · obtain ⟨next, hquery, hstorage, halike⟩ := query_of_error hrespond
    rw [perform_eq (.query call) hquery]
    exact .leaves rfl nofun hstorage halike
  · obtain ⟨next, hquery, hstorage, halike⟩ := query_of_ok hrespond
    rw [perform_eq (.query call) hquery]
    exact .leaves rfl nofun hstorage halike

theorem restore_turn (handle : StateHandle) :
    Turn program executor (perform program (.restore handle) executor).1
      (perform program (.restore handle) executor).2 := by
  rcases hcaptured : executor.snapshots[handle.id]? with _ | captured
  · rw [perform_eq (.restore handle) (restore_of_none program hcaptured)]
    exact .leaves rfl nofun rfl (.refl executor)
  · obtain ⟨next, hrestore, hstorage, halike⟩ := restore_of_some program hcaptured
    rw [← hstorage] at hcaptured
    rw [perform_eq (.restore handle) hrestore]
    exact .restores hcaptured halike

theorem perform_turn (program : Program) (executor : Executor) (operation : Operation) :
    Turn program executor (perform program operation executor).1
      (perform program operation executor).2 := by
  cases operation with
  | deploy artifact arguments => exact deploy_turn artifact arguments
  | declare artifact => exact .leaves rfl nofun rfl ⟨rfl, rfl⟩
  | invoke call => exact invoke_turn call
  | query call => exact query_turn call
  | snapshot => exact .captures
  | restore handle => exact restore_turn handle

theorem Turn.storage_eq {exchange : Exchange} (h : Turn program executor exchange next)
    (hchanges : exchange.changes = false) : next.storage = executor.storage := by
  cases h with
  | deploys => cases hchanges
  | invokes => cases hchanges
  | captures => rfl
  | restores => cases hchanges
  | leaves _ _ hstorage _ => exact hstorage

theorem bringsBack_iff {handle : StateHandle} {storage : Storage} :
    executor.BringsBack program handle storage ↔ executor.snapshots[handle.id]? = some storage := by
  constructor
  · rintro ⟨next, hrestore, rfl⟩
    rcases hcaptured : executor.snapshots[handle.id]? with _ | captured
    · rw [restore_of_none program hcaptured] at hrestore
      cases hrestore
    · obtain ⟨other, hother, rfl, -⟩ := restore_of_some program hcaptured
      rw [hrestore] at hother
      cases hother
      rfl
  · intro hcaptured
    obtain ⟨next, hrestore, hstorage, -⟩ := restore_of_some program hcaptured
    exact ⟨next, hrestore, hstorage⟩

end Turn

end Executor

namespace History

variable {program : Program} {history : History} {record since : List Exchange}
  {exchange : Exchange} {start : Storage}

def extend (program : Program) (history : History) (operation : Operation) : History :=
  let (exchange, executor) := history.executor.perform program operation
  ⟨history.record ++ [exchange], executor⟩

def after (program : Program) (history : History) (operations : List Operation) : History :=
  operations.foldl (extend program) history

/-- The history of a new executor that carries out operations. -/
def of (program : Program) (operations : List Operation) : History :=
  after program ⟨[], {}⟩ operations

/-- The storage to which a record goes back, and the exchanges since: the storage that the handle
last restored has captured, or the empty storage if none has been restored. -/
def GoesBack (record : List Exchange) (start : Storage) (since : List Exchange) : Prop :=
  (∀ exchange ∈ since, exchange.restores = false) ∧
    (start = .empty ∧ since = record ∨
      ∃ before handle restored,
        record = before ++ ⟨.restore handle, .ok (), restored⟩ :: since ∧
        ⟨.snapshot, .ok handle, start⟩ ∈ before)

/-- The storage is the one to which the record goes back, after the calls committed since. -/
structure Replays (program : Program) (history : History) : Prop where
  goesBack : ∃ start since, GoesBack history.record start since
  storage : ∀ start since, GoesBack history.record start since →
    program.apply (since.flatMap (Exchange.commits program)) start = .ok history.executor.storage

structure Recorded (program : Program) (history : History) : Prop extends
    Replays program history where
  snapshots : ∀ handle captured, history.executor.snapshots[handle.id]? = some captured ↔
    ⟨.snapshot, .ok handle, captured⟩ ∈ history.record
  deployed : history.executor.deployed =
    if history.record.any Exchange.deploys then some targetAddress else none

/-- The executor is a faithful store of snapshots: what fails or only looks leaves its storage as it
is, and a handle brings back what it has captured, now and later. -/
structure Faithful (program : Program) (history : History) : Prop extends
    Replays program history where
  unchanged : ∀ operation, (history.executor.perform program operation).1.changes = false →
    (history.executor.perform program operation).2.storage = history.executor.storage
  undeployed : ∀ call : Invocation,
    call.target ≠ targetAddress ∨ history.record.any Exchange.deploys = false →
    program.client.invoke call history.executor =
        (.error (Executor.notDeployed call.target), history.executor) ∧
      program.client.query call history.executor =
        (.error (Executor.notDeployed call.target), history.executor)
  captured : ∀ handle captured, history.executor.BringsBack program handle captured ↔
    ⟨.snapshot, .ok handle, captured⟩ ∈ history.record
  later : ∀ operations handle captured, history.executor.BringsBack program handle captured →
    (after program history operations).executor.BringsBack program handle captured

theorem GoesBack.concat (h : GoesBack record start since) (hexchange : exchange.restores = false) :
    GoesBack (record ++ [exchange]) start (since ++ [exchange]) := by
  obtain ⟨hsince, horigin⟩ := h
  refine ⟨?_, ?_⟩
  · intro later hlater
    rcases List.mem_append.mp hlater with hlater | hlater
    · exact hsince later hlater
    · rw [List.mem_singleton.mp hlater]
      exact hexchange
  · rcases horigin with ⟨rfl, rfl⟩ | ⟨before, handle, restored, rfl, hcaptured⟩
    · exact .inl ⟨rfl, rfl⟩
    · exact .inr ⟨before, handle, restored, by simp, hcaptured⟩

theorem eq_or_between_of_concat_eq {before : List Exchange} {earlier last : Exchange}
    (h : record ++ [last] = before ++ earlier :: since) :
    (record = before ∧ last = earlier ∧ since = []) ∨
      ∃ between, since = between ++ [last] ∧ record = before ++ earlier :: between := by
  rcases List.eq_nil_or_concat' since with rfl | ⟨between, other, rfl⟩
  · obtain ⟨hrecord, hlast⟩ := List.append_inj' h rfl
    exact .inl ⟨hrecord, List.singleton_inj.mp hlast, rfl⟩
  · rw [← List.cons_append, ← List.append_assoc] at h
    obtain ⟨hrecord, hlast⟩ := List.append_inj' h rfl
    rw [List.singleton_inj.mp hlast]
    exact .inr ⟨between, rfl, hrecord⟩

theorem GoesBack.of_concat (h : GoesBack (record ++ [exchange]) start since)
    (hexchange : exchange.restores = false) :
    ∃ between, since = between ++ [exchange] ∧ GoesBack record start between := by
  obtain ⟨hsince, ⟨rfl, rfl⟩ | ⟨before, handle, restored, hrecord, hcaptured⟩⟩ := h
  · refine ⟨record, rfl, fun earlier hearlier => ?_, .inl ⟨rfl, rfl⟩⟩
    exact hsince earlier (List.mem_append_left _ hearlier)
  · rcases eq_or_between_of_concat_eq hrecord with ⟨-, rfl, -⟩ | ⟨between, rfl, rfl⟩
    · cases hexchange
    · refine ⟨between, rfl, fun earlier hearlier => ?_,
        .inr ⟨before, handle, restored, rfl, hcaptured⟩⟩
      exact hsince earlier (List.mem_append_left _ hearlier)

theorem goesBack_restore_iff {handle : StateHandle} {restored : Storage} :
    GoesBack (record ++ [⟨.restore handle, .ok (), restored⟩]) start since ↔
      since = [] ∧ ⟨.snapshot, .ok handle, start⟩ ∈ record := by
  constructor
  · rintro ⟨hsince, ⟨rfl, rfl⟩ | ⟨before, other, storage, hrecord, hcaptured⟩⟩
    · cases hsince _ (List.mem_append_right _ (List.mem_singleton_self _))
    · rcases eq_or_between_of_concat_eq hrecord with ⟨rfl, hlast, rfl⟩ | ⟨between, rfl, -⟩
      · cases hlast
        exact ⟨rfl, hcaptured⟩
      · cases hsince _ (List.mem_append_right _ (List.mem_singleton_self _))
  · rintro ⟨rfl, hcaptured⟩
    exact ⟨nofun, .inr ⟨record, handle, restored, rfl, hcaptured⟩⟩

theorem apply_append {before after : List HandlerCall} {storage middle : Storage}
    (h : program.apply before storage = .ok middle) :
    program.apply (before ++ after) storage = program.apply after middle := by
  rw [Program.apply] at h
  rw [Program.apply, List.foldlM_append, h]
  rfl

theorem Replays.concat (h : Replays program history) {next : Executor}
    (hexchange : exchange.restores = false)
    (happlied : program.apply (exchange.commits program) history.executor.storage =
      .ok next.storage) :
    Replays program ⟨history.record ++ [exchange], next⟩ := by
  refine ⟨?_, ?_⟩
  · obtain ⟨start, since, hback⟩ := h.goesBack
    exact ⟨start, since ++ [exchange], hback.concat hexchange⟩
  · intro start since hback
    obtain ⟨between, rfl, hbetween⟩ := hback.of_concat hexchange
    rw [List.flatMap_append, List.flatMap_singleton,
      apply_append (h.storage start between hbetween)]
    exact happlied

namespace Recorded

variable {next : Executor}

theorem replays_restore (h : Recorded program history) {handle : StateHandle}
    (hcaptured : history.executor.snapshots[handle.id]? = some next.storage) :
    Replays program ⟨history.record ++ [⟨.restore handle, .ok (), next.storage⟩], next⟩ := by
  refine ⟨?_, ?_⟩
  · have hrecord := (h.snapshots handle next.storage).mp hcaptured
    exact ⟨next.storage, [], goesBack_restore_iff.mpr ⟨rfl, hrecord⟩⟩
  · intro start since hback
    obtain ⟨rfl, hrecord⟩ := goesBack_restore_iff.mp hback
    have hstart := (h.snapshots handle start).mpr hrecord
    rw [hcaptured] at hstart
    cases hstart
    rfl

theorem snapshots_concat (h : Recorded program history) (hexchange : exchange.operation ≠ .snapshot)
    (hsnapshots : next.snapshots = history.executor.snapshots) (handle : StateHandle)
    (captured : Storage) :
    next.snapshots[handle.id]? = some captured ↔
      ⟨.snapshot, .ok handle, captured⟩ ∈ history.record ++ [exchange] := by
  rw [hsnapshots, h.snapshots, List.mem_append, List.mem_singleton]
  constructor
  · exact .inl
  · rintro (hbefore | rfl)
    · exact hbefore
    · exact absurd rfl hexchange

theorem deployed_concat (h : Recorded program history) (hexchange : exchange.deploys = false)
    (hdeployed : next.deployed = history.executor.deployed) :
    next.deployed =
      if (history.record ++ [exchange]).any Exchange.deploys then some targetAddress else none := by
  have hsame : (history.record ++ [exchange]).any Exchange.deploys =
      history.record.any Exchange.deploys := by
    simp [hexchange]
  rw [hdeployed, h.deployed, hsame]

theorem capture (h : Recorded program history) (handle : StateHandle) (captured : Storage) :
    (history.executor.snapshots ++ [history.executor.storage])[handle.id]? = some captured ↔
      ⟨.snapshot, .ok handle, captured⟩ ∈ history.record ++
        [⟨.snapshot, .ok ⟨history.executor.snapshots.length⟩, history.executor.storage⟩] := by
  rw [List.mem_append, List.mem_singleton, ← h.snapshots]
  constructor
  · intro hsaved
    rcases Nat.lt_or_ge handle.id history.executor.snapshots.length with hold | hnew
    · rw [List.getElem?_append_left hold] at hsaved
      exact .inl hsaved
    · rw [List.getElem?_append_right hnew, List.getElem?_singleton] at hsaved
      split at hsaved
      · rename_i hlast
        have hid : handle.id = history.executor.snapshots.length := by omega
        cases hsaved
        rw [← hid]
        exact .inr rfl
      · cases hsaved
  · rintro (hsaved | hlast)
    · obtain ⟨hold, -⟩ := List.getElem?_eq_some_iff.mp hsaved
      rw [List.getElem?_append_left hold]
      exact hsaved
    · cases hlast
      exact List.getElem?_concat_length

theorem concat (h : Recorded program history)
    (hturn : Executor.Turn program history.executor exchange next) :
    Recorded program ⟨history.record ++ [exchange], next⟩ := by
  cases hturn with
  | deploys applied deployed snapshots =>
      refine ⟨h.toReplays.concat rfl applied, h.snapshots_concat nofun snapshots, ?_⟩
      rw [deployed, List.any_append]
      simp [Exchange.deploys]
  | invokes applied alike =>
      exact ⟨h.toReplays.concat rfl applied, h.snapshots_concat nofun alike.snapshots,
        h.deployed_concat rfl alike.deployed⟩
  | captures => exact ⟨h.toReplays.concat rfl rfl, h.capture, h.deployed_concat rfl rfl⟩
  | restores captured alike =>
      exact ⟨h.replays_restore captured, h.snapshots_concat nofun alike.snapshots,
        h.deployed_concat rfl alike.deployed⟩
  | leaves changes snapshot storage alike =>
      obtain ⟨hrestores, hcommits, hdeploys⟩ := exchange.of_not_changes changes program
      refine ⟨h.toReplays.concat hrestores ?_, h.snapshots_concat snapshot alike.snapshots,
        h.deployed_concat hdeploys alike.deployed⟩
      rw [hcommits, storage]
      rfl

end Recorded

theorem Recorded.after (h : Recorded program history) (operations : List Operation) :
    Recorded program (history.after program operations) := by
  induction operations generalizing history with
  | nil => exact h
  | cons operation rest ih =>
      exact ih (h.concat (Executor.perform_turn program history.executor operation))

theorem recorded_of (program : Program) (operations : List Operation) :
    Recorded program (of program operations) := by
  refine Recorded.after ⟨⟨⟨.empty, [], nofun, .inl ⟨rfl, rfl⟩⟩, ?_⟩, ?_, rfl⟩ operations
  · rintro start since ⟨-, ⟨rfl, rfl⟩ | ⟨before, handle, restored, hrecord, -⟩⟩
    · rfl
    · cases (List.append_eq_nil_iff.mp hrecord.symm).2
  · intro handle captured
    exact iff_of_false nofun nofun

theorem record_subset_after (program : Program) (operations : List Operation) (history : History) :
    history.record ⊆ (history.after program operations).record := by
  induction operations generalizing history with
  | nil => exact List.Subset.refl _
  | cons operation rest ih =>
      exact List.Subset.trans (List.subset_append_left _ _) (ih (history.extend program operation))

theorem Recorded.undeployed (h : Recorded program history) {call : Invocation}
    (hcall : call.target ≠ targetAddress ∨ history.record.any Exchange.deploys = false) :
    history.executor.deployed ≠ some call.target := by
  rw [h.deployed]
  rcases hcall with htarget | hrecord
  · split
    · intro hdeployed
      exact htarget (Option.some.inj hdeployed).symm
    · nofun
  · rw [hrecord]
    nofun

/-- The storage of an executor is told by what it has been asked and has answered. -/
theorem faithful_of (program : Program) (operations : List Operation) :
    Faithful program (of program operations) := by
  have hrecorded := recorded_of program operations
  refine ⟨hrecorded.toReplays, ?_, ?_, ?_, ?_⟩
  · intro operation hchanges
    exact (Executor.perform_turn program _ operation).storage_eq hchanges
  · intro call hcall
    have hdeployed := hrecorded.undeployed hcall
    exact ⟨if_neg hdeployed, if_neg hdeployed⟩
  · intro handle captured
    rw [Executor.bringsBack_iff, hrecorded.snapshots]
  · intro more handle captured hnow
    have hlater := hrecorded.after more
    rw [Executor.bringsBack_iff, hrecorded.snapshots] at hnow
    rw [Executor.bringsBack_iff, hlater.snapshots]
    exact record_subset_after program more _ hnow

end History

end Sandbox
end ContractFuzz
