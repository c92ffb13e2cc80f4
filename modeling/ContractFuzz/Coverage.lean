import ContractFuzz.Execution.Frame
import ContractFuzz.Sorted.Map

namespace ContractFuzz

structure Coverage where
  addresses : SortedMap InstanceId (SortedSet Nat)
  classes : SortedMap InstanceId ClassHash
  deriving Inhabited

namespace Coverage

def empty : Coverage := ⟨.empty, .empty⟩

instance : EmptyCollection Coverage := ⟨empty⟩

/-- The addresses that an instance has executed. -/
def covered (c : Coverage) (target : InstanceId) : SortedSet Nat :=
  (c.addresses.get? target).getD .empty

/-- The number of pairs of an instance and an address it has executed. -/
def total (c : Coverage) : Nat :=
  c.addresses.values.foldr (fun addresses count => addresses.size + count) 0

/-- Add addresses to those of an instance, and count the new ones. -/
def update (c : Coverage) (target : InstanceId) (executed : List Nat) : Nat × Coverage :=
  let (count, covered) := (c.covered target).insertEach executed
  (count, { c with addresses := c.addresses.insert target covered })

/-- Note the class of an instance. -/
def link (c : Coverage) (target : InstanceId) (classHash : ClassHash) : Coverage :=
  { c with classes := c.classes.insert target classHash }

def classOf? (c : Coverage) (target : InstanceId) : Option ClassHash := c.classes.get? target

/-- Note the class that a constructor frame deployed. -/
def linkDeployed (c : Coverage) (frame : Frame) : Coverage :=
  match frame.entryPoint, frame.classHash with
  | .constructor, some classHash => c.link frame.contractAddress classHash
  | _, _ => c

/-- Add what one frame executed itself, and count the new addresses. -/
def recordFrame (c : Coverage) (frame : Frame) : Nat × Coverage :=
  (c.linkDeployed frame).update frame.contractAddress frame.executed.toList

/-- Record one frame after others, with the new addresses counted so far. -/
def visitFrame (state : Nat × Coverage) (frame : Frame) : Nat × Coverage :=
  let (count, c) := state.2.recordFrame frame
  (state.1 + count, c)

/-- Add what a call executed, each frame to its own instance, and count the new addresses. -/
def record (c : Coverage) (frame : Frame) : Nat × Coverage :=
  Frame.visitAll visitFrame (0, c) [frame]

/-- Coverage after a call. -/
def after (c : Coverage) (frame : Frame) : Coverage := (c.record frame).2

end Coverage

end ContractFuzz
