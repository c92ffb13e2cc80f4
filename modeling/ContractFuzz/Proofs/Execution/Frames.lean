import ContractFuzz.Execution.Frame
import Mathlib.Data.List.Perm.Basic

namespace ContractFuzz.Frame

@[elab_as_elim, induction_eliminator]
theorem induction {motive : Frame → Prop}
    (frame : ∀ frame : Frame, (∀ call ∈ frame.calls, motive call) → motive frame) (root : Frame) :
    motive root :=
  match root with
  | ⟨_, _, _, _, _, _, _⟩ => frame _ fun call _ => induction frame call

/-- A frame that is the root of a tree, or lies in the tree of a call that the root made. -/
inductive LiesIn (inner : Frame) : Frame → Prop
  | root : LiesIn inner inner
  | call {frame call : Frame} (called : call ∈ frame.calls) (deeper : LiesIn inner call) :
      LiesIn inner frame

theorem visitAll_eq_foldl {σ : Type} (visit : σ → Frame → σ) (state : σ) (pending : List Frame) :
    visitAll visit state pending = (pending.flatMap frames).foldl visit state := by
  induction state, pending using visitAll.induct visit with
  | case1 state => rw [visitAll, List.flatMap_nil, List.foldl_nil]
  | case2 state frame pending ih => rw [visitAll, ih, flatMap_frames_cons, List.foldl_cons]

theorem collect_eq (collected : List Event) (pending : List Frame) :
    collect collected pending = collected ++ (pending.flatMap frames).flatMap events := by
  rw [collect, visitAll_eq_foldl]
  induction pending.flatMap frames generalizing collected with
  | nil => exact (List.append_nil collected).symm
  | cons frame rest ih => rw [List.foldl_cons, ih, List.flatMap_cons, List.append_assoc]

theorem sortedEvents_eq (frame : Frame) :
    frame.sortedEvents =
      (frame.frames.flatMap events).mergeSort fun a b => a.order ≤ b.order := by
  rw [sortedEvents, collect_eq, List.flatMap_singleton, List.nil_append]

theorem mem_frames_iff {inner frame : Frame} : inner ∈ frame.frames ↔ inner.LiesIn frame := by
  constructor
  · intro hinner
    induction frame with
    | frame frame ih =>
        rw [frames_eq, List.mem_cons, framesOf_eq, List.mem_flatMap] at hinner
        rcases hinner with rfl | ⟨call, hcall, hinner⟩
        · exact .root
        · have hcalled := List.mem_reverse.mp hcall
          exact .call hcalled (ih call hcalled hinner)
  · intro hlies
    induction hlies with
    | root =>
        rw [frames_eq]
        exact List.mem_cons_self
    | call called _ ih =>
        rw [frames_eq, framesOf_eq]
        refine List.mem_cons_of_mem _ (List.mem_flatMap.mpr ⟨_, ?_, ih⟩)
        exact List.mem_reverse.mpr called

/-- Whether some frame of a tree, at any depth, runs an address of an instance. -/
def Executes (frame : Frame) (holder : InstanceId) (address : Nat) : Prop :=
  ∃ inner : Frame, inner.LiesIn frame ∧ inner.contractAddress = holder ∧ address ∈ inner.executed

/-- Trees that differ in the order of the calls of some of their frames. -/
inductive Rearranged : Frame → Frame → Prop
  | reorder (frame : Frame) {calls : List Frame} (reordered : frame.calls.Perm calls) :
      Rearranged frame { frame with calls }
  | deeper (frame : Frame) {before after : List Frame} {call other : Frame}
      (calls : frame.calls = before ++ call :: after) (inner : Rearranged call other) :
      Rearranged frame { frame with calls := before ++ other :: after }
  | trans {first second third : Frame} (left : Rearranged first second)
      (right : Rearranged second third) : Rearranged first third

/-- A frame without its calls. -/
def alone (frame : Frame) : Frame := { frame with calls := [] }

theorem Rearranged.perm {frame other : Frame} (h : Rearranged frame other) :
    (frame.frames.map alone).Perm (other.frames.map alone) := by
  induction h with
  | reorder frame reordered =>
      rw [frames_eq, frames_eq, framesOf_eq, framesOf_eq]
      have hreversed := (List.reverse_perm _).trans (reordered.trans (List.reverse_perm _).symm)
      exact ((hreversed.flatMap_right frames).map alone).cons frame.alone
  | deeper frame calls _ ih =>
      rw [frames_eq, frames_eq, framesOf_eq, framesOf_eq, calls]
      simp only [List.reverse_append, List.reverse_cons, List.flatMap_append,
        List.flatMap_singleton, List.map_cons, List.map_append]
      exact ((ih.append_left _).append_right _).cons frame.alone
  | trans _ _ ihleft ihright => exact ihleft.trans ihright

theorem Rearranged.executes {frame other : Frame} (h : Rearranged frame other)
    {holder : InstanceId} {address : Nat} :
    frame.Executes holder address ↔ other.Executes holder address := by
  have hmoves {left right : Frame} (hperm : (left.frames.map alone).Perm (right.frames.map alone)) :
      left.Executes holder address → right.Executes holder address := by
    rintro ⟨inner, hinner, hholder, hexecuted⟩
    have hmem : inner.alone ∈ right.frames.map alone :=
      hperm.subset (List.mem_map_of_mem (mem_frames_iff.mpr hinner))
    obtain ⟨found, hfound, hsame⟩ := List.mem_map.mp hmem
    obtain ⟨haddress, -, -, -, -, hset, -⟩ := mk.inj hsame
    exact ⟨found, mem_frames_iff.mp hfound, haddress.trans hholder, hset ▸ hexecuted⟩
  exact ⟨hmoves h.perm, hmoves h.perm.symm⟩

end ContractFuzz.Frame
