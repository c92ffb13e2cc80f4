import ContractFuzz.Proofs.Coverage
import Mathlib.Algebra.GroupWithZero.Nat
import Mathlib.Data.List.Forall2

namespace ContractFuzz

namespace SortedMap

variable {α β : Type} [Ord α]

theorem sum_alterList (key : α) (change : Option β → β) (weight : β → Nat)
    (entries : List (α × β)) :
    ((alterList key change entries).map (weight ·.2)).sum +
        (findList key entries).elim 0 weight =
      (entries.map (weight ·.2)).sum + weight (change (findList key entries)) := by
  induction entries with
  | nil => simp [alterList, findList]
  | cons entry rest ih =>
      rw [alterList, findList]
      split
      · simp only [List.map_cons, List.sum_cons, Option.elim_none]
        omega
      · simp only [List.map_cons, List.sum_cons, Option.elim_some]
        omega
      · simp only [List.map_cons, List.sum_cons]
        omega

theorem sum_insert [Std.TransOrd α] [Std.LawfulEqOrd α] (m : SortedMap α β) (key : α) (value : β)
    (weight : β → Nat) :
    ((m.insert key value).entries.map (weight ·.2)).sum + (m.get? key).elim 0 weight =
      (m.entries.map (weight ·.2)).sum + weight value :=
  sum_alterList key (fun _ => value) weight m.entries

end SortedMap

namespace Coverage

variable {c d : Coverage} {target holder : InstanceId} {address : Nat}

theorem mem_covered_after_iff {frame : Frame} :
    address ∈ (c.after frame).covered holder ↔
      address ∈ c.covered holder ∨ frame.Executes holder address := by
  simp only [mem_covered_after, Frame.mem_frames_iff, Frame.Executes]

theorem mem_covered_foldl_after {frames : List Frame} :
    address ∈ (frames.foldl after c).covered holder ↔
      address ∈ c.covered holder ∨ ∃ frame ∈ frames, frame.Executes holder address := by
  induction frames generalizing c with
  | nil => simp
  | cons frame rest ih =>
      rw [List.foldl_cons, ih, mem_covered_after_iff, or_assoc, List.exists_mem_cons_iff]

theorem total_eq_sum (c : Coverage) : c.total = (c.addresses.entries.map (·.2.size)).sum := by
  rw [total, SortedMap.values]
  induction c.addresses.entries with
  | nil => rfl
  | cons entry rest ih =>
      rw [List.map_cons, List.foldr_cons, ih, List.map_cons, List.sum_cons]

theorem total_eq_sum_covered (c : Coverage) :
    c.total = (c.addresses.keys.map fun holder => (c.covered holder).size).sum := by
  rw [total_eq_sum, SortedMap.keys, List.map_map]
  refine congrArg List.sum (List.map_congr_left fun entry hentry => ?_)
  have hget := SortedMap.get?_eq_some_iff.mpr hentry
  rw [Function.comp_apply, covered, hget]
  rfl

theorem total_update (executed : List Nat) :
    (c.update target executed).2.total = c.total + (c.update target executed).1 := by
  -- The set of one instance is exchanged for one that is larger by what was counted.
  have hsum := c.addresses.sum_insert target ((c.covered target).insertEach executed).2
    SortedSet.size
  have hbefore : (c.addresses.get? target).elim 0 SortedSet.size = (c.covered target).size := by
    rw [covered]
    cases c.addresses.get? target <;> rfl
  rw [hbefore, SortedSet.size_insertEach] at hsum
  simp only [total_eq_sum, update]
  omega

theorem total_linkDeployed (frame : Frame) : (c.linkDeployed frame).total = c.total := by
  rw [linkDeployed]
  split <;> rfl

theorem total_recordFrame (frame : Frame) :
    (c.recordFrame frame).2.total = c.total + (c.recordFrame frame).1 := by
  rw [recordFrame, total_update, total_linkDeployed]

theorem total_foldl_visitFrame (frames : List Frame) (state : Nat × Coverage) :
    (frames.foldl visitFrame state).2.total + state.1 =
      state.2.total + (frames.foldl visitFrame state).1 := by
  -- Each visit adds the same to the total as to what has been counted.
  induction frames generalizing state with
  | nil => rfl
  | cons frame rest ih =>
      have hrest := ih (visitFrame state frame)
      simp only [visitFrame, total_recordFrame] at hrest
      simp only [List.foldl_cons, visitFrame]
      omega

theorem total_record (call : Frame) : (c.record call).2.total = c.total + (c.record call).1 := by
  rw [record_eq_foldl]
  exact total_foldl_visitFrame call.frames (0, c)

/-- What can be done to coverage. -/
inductive Operation where
  | update (target : InstanceId) (executed : List Nat)
  | link (target : InstanceId) (classHash : ClassHash)
  | record (call : Frame)

namespace Operation

/-- The number of new addresses, of which a link has none, and the coverage after an operation. -/
def perform (c : Coverage) : Operation → Nat × Coverage
  | update target executed => c.update target executed
  | link target classHash => (0, c.link target classHash)
  | record call => c.record call

/-- Whether an operation says that an instance has executed an address. -/
def Attributes (holder : InstanceId) (address : Nat) : Operation → Prop
  | update target executed => target = holder ∧ address ∈ executed
  | link _ _ => False
  | record call => call.Executes holder address

theorem mem_covered_perform {operation : Operation} :
    address ∈ (operation.perform c).2.covered holder ↔
      address ∈ c.covered holder ∨ operation.Attributes holder address := by
  cases operation with
  | update target executed => exact mem_covered_update
  | link target classHash => exact (or_iff_left id).symm
  | record call => exact mem_covered_after_iff

theorem total_perform (operation : Operation) :
    (operation.perform c).2.total = c.total + (operation.perform c).1 := by
  cases operation with
  | update target executed => exact total_update executed
  | link target classHash => rfl
  | record call => exact total_record call

/-- Operations that are the same up to the order of the calls in the frames that they record. -/
inductive Rearranged : Operation → Operation → Prop
  | update (target : InstanceId) (executed : List Nat) :
      Rearranged (.update target executed) (.update target executed)
  | link (target : InstanceId) (classHash : ClassHash) :
      Rearranged (.link target classHash) (.link target classHash)
  | record {call other : Frame} (calls : call.Rearranged other) :
      Rearranged (.record call) (.record other)

theorem Rearranged.attributes {operation other : Operation} (h : Rearranged operation other) :
    operation.Attributes holder address ↔ other.Attributes holder address := by
  cases h with
  | update | link => exact Iff.rfl
  | record calls => exact calls.executes

end Operation

/-- The numbers of new addresses that operations return one after another, and the coverage after
them. -/
def performAll (c : Coverage) : List Operation → List Nat × Coverage
  | [] => ([], c)
  | operation :: rest =>
      let (count, c) := operation.perform c
      let (counts, c) := c.performAll rest
      (count :: counts, c)

theorem mem_covered_performAll {operations : List Operation} :
    address ∈ (c.performAll operations).2.covered holder ↔
      address ∈ c.covered holder ∨
        ∃ operation ∈ operations, operation.Attributes holder address := by
  induction operations generalizing c with
  | nil => simp [performAll]
  | cons operation rest ih =>
      simp only [performAll, ih, Operation.mem_covered_perform, or_assoc,
        List.exists_mem_cons_iff]

theorem total_performAll (operations : List Operation) :
    (c.performAll operations).2.total = c.total + (c.performAll operations).1.sum := by
  induction operations generalizing c with
  | nil => rfl
  | cons operation rest ih =>
      simp only [performAll, ih, Operation.total_perform, List.sum_cons]
      omega

/-- Operations in another order, with the calls of their frames in another order. -/
def Reordered (operations others : List Operation) : Prop :=
  ∃ shuffled, operations.Perm shuffled ∧ List.Forall₂ Operation.Rearranged shuffled others

theorem Reordered.attributed {operations others : List Operation}
    (h : Reordered operations others) :
    (∃ operation ∈ operations, operation.Attributes holder address) ↔
      ∃ other ∈ others, other.Attributes holder address := by
  obtain ⟨shuffled, hperm, hrearranged⟩ := h
  have hshuffled : (∃ operation ∈ operations, operation.Attributes holder address) ↔
      ∃ operation ∈ shuffled, operation.Attributes holder address := by
    simp only [hperm.mem_iff]
  rw [hshuffled]
  clear hperm hshuffled
  induction hrearranged with
  | nil => simp
  | cons first _ ih => simp only [List.exists_mem_cons_iff, first.attributes, ih]

theorem total_congr (h : ∀ holder, c.covered holder = d.covered holder) : c.total = d.total := by
  have hleft : Within c d := fun holder _ hcovered => h holder ▸ hcovered
  have hright : Within d c := fun holder _ hcovered => h holder ▸ hcovered
  exact Nat.le_antisymm hleft.total_le hright.total_le

/-- From nothing covered, each instance comes to have covered the union of what was attributed to
it, and the counts that the operations return add up to the total. Neither depends on the order of
the operations, or on that of the calls in any frame. -/
theorem performAll_unites (operations : List Operation) :
    (∀ holder address, address ∈ (performAll .empty operations).2.covered holder ↔
        ∃ operation ∈ operations, operation.Attributes holder address) ∧
      (performAll .empty operations).1.sum = (performAll .empty operations).2.total ∧
      ∀ others, Reordered operations others →
        (∀ holder, (performAll .empty others).2.covered holder =
          (performAll .empty operations).2.covered holder) ∧
        (performAll .empty others).2.total = (performAll .empty operations).2.total := by
  have hnothing (holder : InstanceId) (address : Nat) :
      ¬address ∈ Coverage.empty.covered holder := List.not_mem_nil
  have hunion (operations : List Operation) (holder : InstanceId) (address : Nat) :
      address ∈ (performAll .empty operations).2.covered holder ↔
        ∃ operation ∈ operations, operation.Attributes holder address := by
    rw [mem_covered_performAll, or_iff_right (hnothing holder address)]
  refine ⟨hunion operations, ?_, ?_⟩
  · rw [total_performAll]
    exact (Nat.zero_add _).symm
  · intro others hreordered
    have hsame (holder : InstanceId) : (performAll .empty others).2.covered holder =
        (performAll .empty operations).2.covered holder := by
      refine SortedSet.ext fun address => ?_
      rw [hunion, hunion, hreordered.attributed]
    exact ⟨hsame, total_congr hsame⟩

/-- A market that calls a token and an account, and with it the token again. -/
def marketCall (calls : List Frame) : Frame := ⟨10, none, .external, [], [], .ofList [1, 2], calls⟩

def tokenCall : Frame := ⟨20, some 7, .constructor, [], [], .ofList [4, 8], []⟩

def accountCall : Frame := ⟨30, none, .external, [], [], .ofList [1], [tokenCall]⟩

theorem marketCall_rearranged :
    (marketCall [tokenCall, accountCall]).Rearranged (marketCall [accountCall, tokenCall]) :=
  .reorder _ (.swap _ _ [])

theorem performAll_unites_market :
    let operations : List Operation := [.update 10 [2, 3], .link 30 9, .update 20 [8],
      .record (marketCall [tokenCall, accountCall])]
    let others : List Operation := [.link 30 9, .update 10 [2, 3], .update 20 [8],
      .record (marketCall [accountCall, tokenCall])]
    Reordered operations others ∧
      (performAll .empty operations).1 = [2, 0, 1, 3] ∧
      ((performAll .empty operations).2.covered 10).toList = [1, 2, 3] ∧
      ((performAll .empty others).2.covered 10).toList = [1, 2, 3] ∧
      (performAll .empty operations).1.sum = (performAll .empty operations).2.total ∧
      (performAll .empty others).2.total = (performAll .empty operations).2.total := by
  intro operations others
  have hreordered : Reordered operations others :=
    ⟨_, .swap _ _ _, .cons (.link 30 9) (.cons (.update 10 [2, 3]) (.cons (.update 20 [8])
      (.cons (.record marketCall_rearranged) .nil)))⟩
  obtain ⟨-, hsum, hothers⟩ := performAll_unites operations
  obtain ⟨hcovered, htotal⟩ := hothers others hreordered
  have hten : ((performAll .empty operations).2.covered 10).toList = [1, 2, 3] := by
    decide +kernel
  exact ⟨hreordered, by decide +kernel, hten, hcovered 10 ▸ hten, hsum, htotal⟩

end Coverage

end ContractFuzz
