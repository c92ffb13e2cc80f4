import ContractFuzz.Proofs.Sandbox.History
import ContractFuzz.Proofs.Sandbox.Twins

namespace ContractFuzz.Sandbox

theorem length_numberEvents (first : Nat) (emissions : List Emission) :
    (numberEvents first emissions).length = emissions.length := by
  induction emissions generalizing first with
  | nil => rfl
  | cons emission rest ih => rw [numberEvents, List.length_cons, ih, List.length_cons]

theorem map_order_numberEvents (first : Nat) (emissions : List Emission) :
    (numberEvents first emissions).map Event.order = List.range' first emissions.length := by
  induction emissions generalizing first with
  | nil => rfl
  | cons emission rest ih =>
      rw [numberEvents, List.map_cons, ih, List.length_cons, List.range'_succ]

theorem numberEvents_append (first : Nat) (emissions more : List Emission) :
    numberEvents first (emissions ++ more) =
      numberEvents first emissions ++ numberEvents (first + emissions.length) more := by
  induction emissions generalizing first with
  | nil => rfl
  | cons emission rest ih =>
      rw [List.cons_append, numberEvents, ih, numberEvents, List.cons_append, List.length_cons,
        Nat.add_right_comm, Nat.add_assoc]

/-- What calls emit if each is made in the same storage. One that reverts emits nothing. -/
def Program.emissions (program : Program) (storage : Storage) (calls : List HandlerCall) :
    List Emission :=
  calls.flatMap fun call =>
    match Executor.compute program storage call with
    | .ok (outcome, _) => outcome.events
    | .error _ => []

theorem Program.emissions_of_compute {program : Program} {storage last : Storage}
    {call : HandlerCall} {outcome : Outcome}
    (h : Executor.compute program storage call = .ok (outcome, last)) :
    program.emissions storage [call] = outcome.events := by
  rw [emissions, List.flatMap_singleton, h]

namespace Exchange

/-- The events that are reported: those of a deployment, an invocation or a query that succeeded. -/
def events : Exchange → List Event
  | ⟨.deploy _ _, .ok frame, _⟩ => frame.events
  | ⟨.invoke _, .ok frame, _⟩ => frame.events
  | ⟨.query _, .ok frame, _⟩ => frame.events
  | _ => []

/-- The calls that went through: the constructor of a deployment, or the handler of an invocation
or a query. -/
def calls (program : Program) : Exchange → List HandlerCall
  | ⟨.deploy _ arguments, .ok _, _⟩ => program.constructorCalls arguments
  | ⟨.invoke call, .ok _, _⟩ => [Executor.handlerCall call]
  | ⟨.query call, .ok _, _⟩ => [Executor.handlerCall call]
  | _ => []

end Exchange

/-- What the calls of a record have emitted, each in the storage that was there before it. -/
def Program.emitted (program : Program) : Storage → List Exchange → List Emission
  | _, [] => []
  | storage, exchange :: rest =>
      program.emissions storage (exchange.calls program) ++ program.emitted exchange.storage rest

namespace Executor

/-- An answer to calls numbers what they emit in a storage from a first number on, and leaves the
number after these to the next event. An error takes no number. -/
inductive Numbers (program : Program) (storage : Storage) (first : Nat) (calls : List HandlerCall) :
    Except ExecutionError Frame × Executor → Prop
  | frame {frame next} (events : frame.events = numberEvents first (program.emissions storage calls))
      (nextEvent : next.nextEvent = first + (program.emissions storage calls).length) :
      Numbers program storage first calls (.ok frame, next)
  | error (e : ExecutionError) {next} (nextEvent : next.nextEvent = first) :
      Numbers program storage first calls (.error e, next)

theorem run_numbers (program : Program) (target : InstanceId) (call : HandlerCall) (commits : Bool)
    (executor : Executor) :
    Numbers program executor.storage executor.nextEvent [call]
      (run program target call commits executor) := by
  rw [run]
  split
  · exact .error _ rfl
  · rename_i hcompute
    have hemissions := Program.emissions_of_compute hcompute
    refine .frame ?_ ?_
    · rw [hemissions]
      rfl
    · rw [hemissions]

theorem invoke_numbers (program : Program) (call : Invocation) (executor : Executor) :
    Numbers program executor.storage executor.nextEvent [handlerCall call]
      (invoke program call executor) := by
  rw [invoke]
  split
  -- Counting an invocation changes neither the storage nor the next number.
  · exact run_numbers program call.target _ true (executor.countInvocation call.function)
  · exact .error _ rfl

theorem query_numbers (program : Program) (call : Invocation) (executor : Executor) :
    Numbers program executor.storage executor.nextEvent [handlerCall call]
      (query program call executor) := by
  rw [query]
  split
  · exact run_numbers program call.target _ false executor.countQuery
  · exact .error _ rfl

theorem deploy_numbers (program : Program) (arguments : List Felt) (executor : Executor) :
    Numbers program executor.storage executor.nextEvent (program.constructorCalls arguments)
      (deploy program arguments executor) := by
  have hconstruct : Numbers program executor.storage executor.nextEvent
      (program.constructorCalls arguments) (construct program arguments executor) := by
    rw [construct, Program.constructorCalls]
    split
    · exact run_numbers program targetAddress _ true executor
    · exact .frame rfl rfl
  rw [deploy]
  generalize construct program arguments executor = constructed at hconstruct
  cases hconstruct with
  | frame events nextEvent => exact .frame events nextEvent
  | error e nextEvent => exact .error e nextEvent

/-- The events of an exchange are what its calls emit in a storage, numbered from a first number on,
and the number after these is left to the next event. -/
def Continues (program : Program) (storage : Storage) (first : Nat) (exchange : Exchange)
    (next : Executor) : Prop :=
  exchange.events = numberEvents first (program.emissions storage (exchange.calls program)) ∧
    next.nextEvent = first + (program.emissions storage (exchange.calls program)).length

variable {program : Program} {storage : Storage} {first : Nat}

theorem continues_of_silent {exchange : Exchange} {next : Executor}
    (hevents : exchange.events = []) (hcalls : exchange.calls program = [])
    (hnext : next.nextEvent = first) : Continues program storage first exchange next := by
  rw [Continues, hevents, hcalls]
  exact ⟨rfl, hnext⟩

theorem Numbers.continues {calls : List HandlerCall}
    {answered : Except ExecutionError Frame × Executor}
    (h : Numbers program storage first calls answered)
    (report : Except ExecutionError Frame → Exchange)
    (hframe : ∀ frame, (report (.ok frame)).events = frame.events ∧
      (report (.ok frame)).calls program = calls)
    (herror : ∀ e, (report (.error e)).events = [] ∧ (report (.error e)).calls program = []) :
    Continues program storage first (report answered.1) answered.2 := by
  cases h with
  | @frame frame _ events nextEvent =>
      obtain ⟨hevents, hcalls⟩ := hframe frame
      rw [Continues, hevents, hcalls]
      exact ⟨events, nextEvent⟩
  | error e nextEvent => exact continues_of_silent (herror e).1 (herror e).2 nextEvent

theorem perform_continues (program : Program) (operation : Operation) (executor : Executor) :
    Continues program executor.storage executor.nextEvent (perform program operation executor).1
      (perform program operation executor).2 := by
  cases operation with
  | deploy artifact arguments =>
      exact (deploy_numbers program arguments executor).continues
        (⟨.deploy artifact arguments, ·, _⟩) (fun _ => ⟨rfl, rfl⟩) (fun _ => ⟨rfl, rfl⟩)
  | invoke call =>
      exact (invoke_numbers program call executor).continues
        (⟨.invoke call, ·, _⟩) (fun _ => ⟨rfl, rfl⟩) (fun _ => ⟨rfl, rfl⟩)
  | query call =>
      exact (query_numbers program call executor).continues
        (⟨.query call, ·, _⟩) (fun _ => ⟨rfl, rfl⟩) (fun _ => ⟨rfl, rfl⟩)
  | declare artifact => exact continues_of_silent rfl rfl rfl
  | snapshot => exact continues_of_silent rfl rfl rfl
  | restore handle =>
      have hnext : (restore handle executor).2.nextEvent = executor.nextEvent := by
        rw [restore]
        split
        · rfl
        · rfl
      exact continues_of_silent rfl rfl hnext

/-- What an executor is asked one after another, and what it answers. -/
def exchanges (program : Program) : Executor → List Operation → List Exchange
  | _, [] => []
  | executor, operation :: rest =>
      let (exchange, next) := executor.perform program operation
      exchange :: next.exchanges program rest

theorem flatMap_events_exchanges (program : Program) (operations : List Operation)
    (executor : Executor) :
    (executor.exchanges program operations).flatMap Exchange.events =
      numberEvents executor.nextEvent
        (program.emitted executor.storage (executor.exchanges program operations)) := by
  induction operations generalizing executor with
  | nil => rfl
  | cons operation rest ih =>
      obtain ⟨hevents, hnext⟩ := perform_continues program operation executor
      -- The storage that an exchange records is the one in which the next operation is carried out.
      rw [exchanges, List.flatMap_cons, Program.emitted, numberEvents_append, hevents, ih, hnext]
      rfl

end Executor

namespace History

theorem record_after (program : Program) (operations : List Operation) (history : History) :
    (history.after program operations).record =
      history.record ++ history.executor.exchanges program operations := by
  induction operations generalizing history with
  | nil => exact (List.append_nil _).symm
  | cons operation rest ih =>
      have hrest := ih (history.extend program operation)
      rw [Executor.exchanges]
      exact hrest.trans (List.append_assoc _ _ _)

/-- Over all that a new executor is asked, the events that it reports are what the calls that went
through have emitted, numbered from zero on. -/
theorem numbers_events (program : Program) (operations : List Operation) :
    let record := (of program operations).record
    let events := record.flatMap Exchange.events
    events.map Event.order = List.range events.length ∧
      events.map Event.unnumbered = (program.emitted .empty record).map Emission.event := by
  intro record events
  have hrecord : record = Executor.exchanges program {} operations := by
    exact record_after program operations ⟨[], {}⟩
  have hevents : events = numberEvents 0 (program.emitted .empty record) := by
    have hexchanges := Executor.flatMap_events_exchanges program operations {}
    rw [← hrecord] at hexchanges
    exact hexchanges
  rw [hevents, map_order_numberEvents, length_numberEvents, unnumbered_numberEvents,
    List.range_eq_range']
  exact ⟨rfl, rfl⟩

/-- A clock that strikes one and two, and then has run down. -/
def clock : Program :=
  [.constructor [] fun storage _ => .ok ({ events := [⟨"Wound", []⟩] }, storage.write "hour" 1),
    .external "strike" [] fun storage _ =>
      if storage.read "hour" = 3 then .error "The clock has run down"
      else .ok ({ events := .replicate (storage.read "hour") ⟨"Struck", []⟩ },
        storage.write "hour" (storage.read "hour" + 1))]

def strike : Invocation := ⟨targetAddress, "strike", [], 0, 0, .external, none⟩

/-- It strikes two thrice, once when only asked and once after it has been set back. -/
example :
    (of clock [.invoke strike, .deploy clock.artifact [], .invoke strike, .snapshot, .query strike,
      .invoke strike, .invoke strike, .restore ⟨0⟩, .restore ⟨1⟩, .invoke strike]).record.map
        (fun exchange => exchange.events.map Event.order) =
      [[], [0], [1], [], [2, 3], [4, 5], [], [], [], [6, 7]] := by decide +kernel

end History

end ContractFuzz.Sandbox
