import ContractFuzz.Proofs.Execution.Frames
import Mathlib.Algebra.BigOperators.Group.Multiset.Basic
import Mathlib.Data.List.Permutation

namespace ContractFuzz

theorem Event.eq_of_perm_of_pairwise {events others : List Event} (hperm : events.Perm others)
    (hdistinct : (events.map Event.order).Nodup)
    (hevents : events.Pairwise fun a b => a.order ≤ b.order)
    (hothers : others.Pairwise fun a b => a.order ≤ b.order) : events = others := by
  refine hperm.eq_of_pairwise ?_ hevents hothers
  intro a b ha hb hab hba
  exact List.inj_on_of_nodup_map hdistinct ha (hperm.mem_iff.mpr hb) (Nat.le_antisymm hab hba)

namespace Frame

/-- The events of all frames of a tree, each as often as it was emitted. -/
def emitted : Frame → Multiset Event
  | ⟨_, _, _, _, events, _, calls⟩ => events + (calls.map emitted).sum

theorem emitted_eq (frame : Frame) :
    frame.emitted = frame.events + (frame.calls.map emitted).sum := by
  cases frame
  rw [emitted]

theorem sum_emitted_cons (frame : Frame) (pending : List Frame) :
    ((frame :: pending).map emitted).sum =
      frame.events + ((frame.pendingAfter pending).map emitted).sum := by
  have hcalls : (frame.calls.reverse.map emitted).sum = (frame.calls.map emitted).sum :=
    ((List.reverse_perm frame.calls).map emitted).sum_eq
  rw [pendingAfter, List.map_append, List.sum_append, hcalls, List.map_cons, List.sum_cons,
    emitted_eq, add_assoc]

theorem coe_collect (collected : List Event) (pending : List Frame) :
    (collect collected pending : Multiset Event) = collected + (pending.map emitted).sum := by
  -- No visit changes what is collected and what is pending taken together.
  rw [collect]
  induction collected, pending using
      visitAll.induct fun (collected : List Event) (frame : Frame) => collected ++ frame.events with
  | case1 collected => rw [visitAll, List.map_nil, List.sum_nil, add_zero]
  | case2 collected frame pending ih =>
      rw [visitAll, ih, sum_emitted_cons, ← Multiset.coe_add, add_assoc]

theorem coe_sortedEvents (frame : Frame) :
    (frame.sortedEvents : Multiset Event) = frame.emitted := by
  have hsorted : (frame.sortedEvents : Multiset Event) = collect [] [frame] :=
    Multiset.coe_eq_coe.mpr (List.mergeSort_perm _ _)
  rw [hsorted, coe_collect, List.map_singleton, List.sum_singleton, Multiset.coe_nil, zero_add]

theorem pairwise_sortedEvents (frame : Frame) :
    frame.sortedEvents.Pairwise fun a b => a.order ≤ b.order := by
  have hsorted : frame.sortedEvents.Pairwise fun a b => decide (a.order ≤ b.order) = true := by
    refine List.pairwise_mergeSort ?_ ?_ _
    · intro a b c hab hbc
      exact decide_eq_true (Nat.le_trans (of_decide_eq_true hab) (of_decide_eq_true hbc))
    · intro a b
      simpa using Nat.le_total a.order b.order
  exact hsorted.imp of_decide_eq_true

theorem Rearranged.emitted_eq {frame other : Frame} (h : Rearranged frame other) :
    other.emitted = frame.emitted := by
  induction h with
  | reorder frame reordered =>
      rw [Frame.emitted_eq, Frame.emitted_eq frame, (reordered.map emitted).sum_eq]
  | deeper frame calls _ ih =>
      rw [Frame.emitted_eq, Frame.emitted_eq frame, calls]
      simp only [List.map_append, List.map_cons, ih]
  | trans _ _ ihleft ihright => exact ihright.trans ihleft

/-- The events of a call are those of all frames of its tree in the order of their numbers, and if
these are distinct, trees that differ in the order of calls have the same. -/
theorem sortedEvents_collects (frame : Frame) :
    (frame.sortedEvents : Multiset Event) = frame.emitted ∧
      (frame.sortedEvents.Pairwise fun a b => a.order ≤ b.order) ∧
      ((frame.emitted.map Event.order).Nodup →
        ∀ other, frame.Rearranged other → other.sortedEvents = frame.sortedEvents) := by
  refine ⟨coe_sortedEvents frame, pairwise_sortedEvents frame, ?_⟩
  intro hdistinct other hother
  have hperm : frame.sortedEvents.Perm other.sortedEvents := by
    rw [← Multiset.coe_eq_coe, coe_sortedEvents, coe_sortedEvents, hother.emitted_eq]
  rw [← coe_sortedEvents, Multiset.map_coe, Multiset.coe_nodup] at hdistinct
  exact (Event.eq_of_perm_of_pairwise hperm hdistinct (pairwise_sortedEvents frame)
    (pairwise_sortedEvents other)).symm

/-- A swap of which each frame emits something. -/
def swapCall (calls : List Frame) : Frame :=
  ⟨10, none, .external, [], [⟨4, [7], [100, 3]⟩], .empty, calls⟩

def routerCall (calls : List Frame) : Frame :=
  ⟨20, none, .external, [], [⟨0, [8], []⟩, ⟨3, [8], [1]⟩], .empty, calls⟩

def paymentCall : Frame := ⟨30, none, .external, [], [⟨1, [9], [100]⟩], .empty, []⟩

def receiptCall : Frame := ⟨40, none, .external, [], [⟨2, [9], [3]⟩], .empty, []⟩

def feeCall : Frame := ⟨50, none, .external, [], [⟨5, [6], [1]⟩, ⟨6, [6], [1]⟩], .empty, []⟩

theorem sortedEvents_collects_swap :
    let frame := swapCall [routerCall [paymentCall, receiptCall], feeCall]
    let other := swapCall [feeCall, routerCall [receiptCall, paymentCall]]
    (frame.emitted.map Event.order).Nodup ∧ frame.Rearranged other ∧
      frame.sortedEvents.map Event.order = [0, 1, 2, 3, 4, 5, 6] ∧
      other.sortedEvents = frame.sortedEvents := by
  intro frame other
  have horders : frame.sortedEvents.map Event.order = [0, 1, 2, 3, 4, 5, 6] := by cbv
  have hdistinct : (frame.emitted.map Event.order).Nodup := by
    rw [← coe_sortedEvents, Multiset.map_coe, horders, Multiset.coe_nodup]
    decide
  have hinner : (routerCall [paymentCall, receiptCall]).Rearranged
      (routerCall [receiptCall, paymentCall]) := .reorder _ (.swap _ _ [])
  have hcalls : frame.calls = [] ++ routerCall [paymentCall, receiptCall] :: [feeCall] := rfl
  have hother : frame.Rearranged other :=
    .trans (.deeper frame hcalls hinner) (.reorder _ (.swap _ _ []))
  exact ⟨hdistinct, hother, horders, (sortedEvents_collects frame).2.2 hdistinct other hother⟩

end Frame

end ContractFuzz
