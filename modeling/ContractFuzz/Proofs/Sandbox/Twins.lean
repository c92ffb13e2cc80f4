import ContractFuzz.Campaign.Iteration
import ContractFuzz.Proofs.Coverage
import ContractFuzz.Proofs.Sandbox.Response

/-!
Executors that hold the same storage and the same snapshots answer alike, whatever they have
counted: their frames differ in nothing but the numbers of events.
-/

namespace ContractFuzz

def Event.unnumbered (event : Event) : Event := { event with order := 0 }

def RecordedCall.unnumbered (step : RecordedCall) : RecordedCall :=
  { step with events := step.events.map Event.unnumbered }

def Violation.unnumbered : Violation → Violation
  | .property name events => .property name (events.map Event.unnumbered)
  | .exception template message => .exception template message

@[simp] theorem Violation.obligation_unnumbered (violation : Violation) :
    violation.unnumbered.obligation = violation.obligation := by
  cases violation <;> rfl

theorem Violation.map_obligation_unnumbered (violations : List Violation) :
    (violations.map Violation.unnumbered).map Violation.obligation =
      violations.map Violation.obligation := by
  rw [List.map_map]
  exact List.map_congr_left fun violation _ => violation.obligation_unnumbered

theorem Violation.map_obligation_eq {left right : List Violation}
    (h : left.map Violation.unnumbered = right.map Violation.unnumbered) :
    left.map Violation.obligation = right.map Violation.obligation := by
  rw [← map_obligation_unnumbered left, h, map_obligation_unnumbered]

def Detection.unnumbered (detection : Detection) : Detection :=
  ⟨detection.sequence.map RecordedCall.unnumbered, detection.violations.map Violation.unnumbered⟩

/-- Frames between which a campaign sees no difference but the numbers of events. -/
structure Frame.Resembles (left right : Frame) : Prop where
  returnData : left.returnData = right.returnData
  events : left.sortedEvents.map Event.unnumbered = right.sortedEvents.map Event.unnumbered
  covers : Coverage.Covers left right

inductive ResemblingAnswers : Except ExecutionError Frame → Except ExecutionError Frame → Prop
  | frames {left right} (h : Frame.Resembles left right) : ResemblingAnswers (.ok left) (.ok right)
  | reverts (r : Revert) : ResemblingAnswers (.error (.revert r)) (.error (.revert r))

namespace Sandbox

/-- The event that an emission leads to, but for its number. -/
def Emission.event (emission : Emission) : Event :=
  ⟨0, [Abi.selectorOf emission.name], emission.data⟩

theorem unnumbered_numberEvents (first : Nat) (emissions : List Emission) :
    (numberEvents first emissions).map Event.unnumbered = emissions.map Emission.event := by
  induction emissions generalizing first with
  | nil => rfl
  | cons emission rest ih =>
      rw [numberEvents, List.map_cons, ih, List.map_cons]
      rfl

theorem le_order_of_mem_numberEvents {first : Nat} {emissions : List Emission} {event : Event}
    (h : event ∈ numberEvents first emissions) : first ≤ event.order := by
  induction emissions generalizing first with
  | nil => cases h
  | cons emission rest ih =>
      rcases List.mem_cons.mp h with rfl | h
      · exact Nat.le_refl first
      · exact Nat.le_of_succ_le (ih h)

theorem numberEvents_sorted (first : Nat) (emissions : List Emission) :
    (numberEvents first emissions).Pairwise fun a b => decide (a.order ≤ b.order) = true := by
  induction emissions generalizing first with
  | nil => exact .nil
  | cons emission rest ih =>
      refine .cons (fun event hevent => ?_) (ih (first + 1))
      have hlater := le_order_of_mem_numberEvents hevent
      exact decide_eq_true (Nat.le_of_succ_le hlater)

namespace Executor

variable (program : Program) (target : InstanceId) (call : HandlerCall) (outcome : Outcome)

theorem frames_frame (first : Nat) :
    (frame program target call outcome first).frames =
      [frame program target call outcome first] := rfl

theorem sortedEvents_frame (first : Nat) :
    (frame program target call outcome first).sortedEvents = numberEvents first outcome.events := by
  rw [Frame.sortedEvents_eq, frames_frame, List.flatMap_singleton]
  exact List.mergeSort_of_pairwise (numberEvents_sorted first outcome.events)

theorem unnumbered_sortedEvents_frame (first : Nat) :
    (frame program target call outcome first).sortedEvents.map Event.unnumbered =
      outcome.events.map Emission.event := by
  rw [sortedEvents_frame, unnumbered_numberEvents]

theorem frame_resembles (first other : Nat) :
    Frame.Resembles (frame program target call outcome first)
      (frame program target call outcome other) where
  returnData := rfl
  events := by rw [unnumbered_sortedEvents_frame, unnumbered_sortedEvents_frame]
  covers := by
    rintro holder address ⟨inner, hinner, hholder, hexecuted⟩
    rw [frames_frame, List.mem_singleton] at hinner
    subst hinner
    exact ⟨_, List.mem_singleton_self _, hholder, hexecuted⟩

/-- Executors that agree in all but what they have counted. -/
structure Twins (left right : Executor) : Prop extends Alike left right where
  storage : left.storage = right.storage

theorem Alike.symm {left right : Executor} (h : Alike left right) : Alike right left :=
  ⟨h.deployed.symm, h.snapshots.symm⟩

variable {program} {left right : Executor}

theorem Twins.of_alike {called reached : Executor} (h : Twins left right)
    (hcalled : Alike called left) (hreached : Alike reached right)
    (hstorage : called.storage = reached.storage) : Twins called reached where
  toAlike := (hcalled.trans h.toAlike).trans hreached.symm
  storage := hstorage

/-- A request is answered alike by twins if its answer is the response of the program, and the
storage it leaves is `kept` of those before and after the call. -/
theorem answer_twins {invocation : Invocation}
    {request : Executor → Except ExecutionError Frame × Executor}
    (kept : Storage → Storage → Storage)
    (hok : ∀ {executor : Executor} {outcome : Outcome} {storage : Storage},
      (host program executor).respond invocation executor.storage = .ok (outcome, storage) →
        ∃ next, request executor = (.ok (frame program invocation.target (handlerCall invocation)
            outcome executor.nextEvent), next) ∧
          next.storage = kept executor.storage storage ∧ Alike next executor)
    (herror : ∀ {executor : Executor} {r : Revert},
      (host program executor).respond invocation executor.storage = .error r →
        ∃ next, request executor = (.error (.revert r), next) ∧
          next.storage = executor.storage ∧ Alike next executor)
    (h : Twins left right) :
    ∃ answer called other reached, request left = (answer, called) ∧
      request right = (other, reached) ∧ ResemblingAnswers answer other ∧ Twins called reached := by
  rcases hrespond : (host program left).respond invocation left.storage with
    r | ⟨outcome, storage⟩
  all_goals
    have hother := hrespond
    rw [h.host_eq, h.storage] at hother
  · obtain ⟨called, hanswer, hcalled, halike⟩ := herror hrespond
    obtain ⟨reached, hreply, hreached, hother⟩ := herror hother
    refine ⟨_, called, _, reached, hanswer, hreply, .reverts r, ?_⟩
    exact h.of_alike halike hother (by rw [hcalled, hreached, h.storage])
  · obtain ⟨called, hanswer, hcalled, halike⟩ := hok hrespond
    obtain ⟨reached, hreply, hreached, hother⟩ := hok hother
    refine ⟨_, called, _, reached, hanswer, hreply, .frames (frame_resembles ..), ?_⟩
    exact h.of_alike halike hother (by rw [hcalled, hreached, h.storage])

theorem invoke_twins (program : Program) (h : Twins left right) (invocation : Invocation) :
    ∃ answer called other reached,
      program.client.invoke invocation left = (answer, called) ∧
      program.client.invoke invocation right = (other, reached) ∧
      ResemblingAnswers answer other ∧ Twins called reached :=
  answer_twins (fun _ storage => storage) invoke_of_ok invoke_of_error h

theorem query_twins (program : Program) (h : Twins left right) (invocation : Invocation) :
    ∃ answer called other reached,
      program.client.query invocation left = (answer, called) ∧
      program.client.query invocation right = (other, reached) ∧
      ResemblingAnswers answer other ∧ Twins called reached :=
  answer_twins (fun storage _ => storage) query_of_ok query_of_error h

theorem restore_twins (program : Program) (h : Alike left right) (handle : StateHandle) :
    (∃ fault, program.client.restore handle left = (.error fault, left) ∧
      program.client.restore handle right = (.error fault, right)) ∨
    ∃ called reached, program.client.restore handle left = (.ok (), called) ∧
      program.client.restore handle right = (.ok (), reached) ∧ Twins called reached := by
  cases hsaved : left.snapshots[handle.id]? with
  | none =>
      have hother := hsaved
      rw [h.snapshots] at hother
      exact .inl ⟨_, restore_of_none program hsaved, restore_of_none program hother⟩
  | some storage =>
      have hother := hsaved
      rw [h.snapshots] at hother
      obtain ⟨called, hanswer, hcalled, halike⟩ := restore_of_some program hsaved
      obtain ⟨reached, hreply, hreached, hother⟩ := restore_of_some program hother
      refine .inr ⟨called, reached, hanswer, hreply, ?_⟩
      exact ⟨(halike.trans h).trans hother.symm, by rw [hcalled, hreached]⟩

end Executor

end Sandbox

end ContractFuzz
