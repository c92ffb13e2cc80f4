import ContractFuzz.Felt
import ContractFuzz.Sorted.Set

namespace ContractFuzz

/-- The address of a deployed contract. -/
abbrev InstanceId := Felt

/-- The hash of a declared contract class. -/
abbrev ClassHash := Felt

/-- The ways into a contract. -/
inductive EntryPoint where
  | external
  | l1Handler
  | constructor
  deriving DecidableEq, Repr, Inhabited

def EntryPoint.label : EntryPoint → String
  | .external => "external"
  | .l1Handler => "l1_handler"
  | .constructor => "constructor"

/-- An event, with its place in the order of emission of the whole transaction. -/
structure Event where
  order : Nat
  keys : List Felt
  data : List Felt
  deriving DecidableEq, Repr, Inhabited

/-- One executed frame and the calls it made. -/
structure Frame where
  contractAddress : InstanceId
  classHash : Option ClassHash
  entryPoint : EntryPoint
  returnData : List Felt
  events : List Event
  /-- The addresses that this frame executed itself. -/
  executed : SortedSet Nat
  calls : List Frame
  deriving Inhabited

namespace Frame

mutual

/-- All frames of the tree: a frame comes before those it called, a later call before an earlier
one. -/
def frames : Frame → List Frame
  | ⟨address, classHash, entryPoint, returnData, events, executed, calls⟩ =>
      ⟨address, classHash, entryPoint, returnData, events, executed, calls⟩ :: framesOf calls

def framesOf : List Frame → List Frame
  | [] => []
  | call :: rest => framesOf rest ++ call.frames

end

theorem frames_eq (frame : Frame) : frame.frames = frame :: framesOf frame.calls := by
  cases frame
  rw [frames]

theorem framesOf_eq (calls : List Frame) : framesOf calls = calls.reverse.flatMap frames := by
  induction calls with
  | nil => rfl
  | cons call rest ih =>
      rw [framesOf, ih, List.reverse_cons, List.flatMap_append, List.flatMap_singleton]

/-- What is pending when a frame has been visited: the calls that it made, the last one first,
before all others. -/
def pendingAfter (frame : Frame) (pending : List Frame) : List Frame :=
  frame.calls.reverse ++ pending

theorem flatMap_frames_cons (frame : Frame) (pending : List Frame) :
    (frame :: pending).flatMap frames = frame :: (frame.pendingAfter pending).flatMap frames := by
  rw [pendingAfter, List.flatMap_append, ← framesOf_eq, List.flatMap_cons, frames_eq,
    List.cons_append]

/-- Visit pending frames, the first one first, and all frames that they called. -/
def visitAll {σ : Type} (visit : σ → Frame → σ) (state : σ) : List Frame → σ
  | [] => state
  | frame :: pending => visitAll visit (visit state frame) (frame.pendingAfter pending)
termination_by pending => (pending.flatMap frames).length
decreasing_by
  rw [flatMap_frames_cons, List.length_cons]
  exact Nat.lt_succ_self _

/-- The events of pending frames, after those collected so far. -/
def collect : List Event → List Frame → List Event :=
  visitAll fun collected frame => collected ++ frame.events

/-- The events of all frames, in the order of their numbers. -/
def sortedEvents (frame : Frame) : List Event :=
  (collect [] [frame]).mergeSort fun a b => a.order ≤ b.order

end Frame

end ContractFuzz
