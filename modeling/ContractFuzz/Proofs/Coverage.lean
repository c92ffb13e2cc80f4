import ContractFuzz.Coverage
import ContractFuzz.Proofs.Execution.Frames
import Mathlib.Data.List.Nodup
import Mathlib.Data.List.Perm.Subperm

namespace ContractFuzz.Coverage

variable {c d : Coverage} {target holder : InstanceId} {address : Nat}

theorem mem_covered_update {executed : List Nat} :
    address ∈ (c.update target executed).2.covered holder ↔
      address ∈ c.covered holder ∨ target = holder ∧ address ∈ executed := by
  simp only [covered, update, SortedMap.get?_insert]
  split
  · rename_i hholder
    rw [Option.getD_some, SortedSet.mem_insertEach, hholder]
    simp
  · rename_i hholder
    simp [Ne.symm hholder]

theorem covered_linkDeployed {frame : Frame} :
    (c.linkDeployed frame).covered holder = c.covered holder := by
  rw [linkDeployed]
  split <;> rfl

theorem mem_covered_recordFrame {frame : Frame} :
    address ∈ (c.recordFrame frame).2.covered holder ↔
      address ∈ c.covered holder ∨
        frame.contractAddress = holder ∧ address ∈ frame.executed := by
  rw [recordFrame, mem_covered_update, covered_linkDeployed, SortedSet.mem_toList]

theorem mem_covered_foldl_visitFrame {frames : List Frame} {state : Nat × Coverage} :
    address ∈ (frames.foldl visitFrame state).2.covered holder ↔
      address ∈ state.2.covered holder ∨
        ∃ frame ∈ frames, frame.contractAddress = holder ∧ address ∈ frame.executed := by
  induction frames generalizing state with
  | nil => simp
  | cons frame rest ih =>
      simp only [List.foldl_cons, ih, visitFrame, mem_covered_recordFrame, or_assoc,
        List.exists_mem_cons_iff]

theorem record_eq_foldl (c : Coverage) (frame : Frame) :
    c.record frame = frame.frames.foldl visitFrame (0, c) := by
  rw [record, Frame.visitAll_eq_foldl, List.flatMap_singleton]

theorem mem_covered_after {frame : Frame} :
    address ∈ (c.after frame).covered holder ↔
      address ∈ c.covered holder ∨
        ∃ inner ∈ frame.frames, inner.contractAddress = holder ∧ address ∈ inner.executed := by
  rw [after, record_eq_foldl, mem_covered_foldl_visitFrame]

/-- Whatever is covered in the one is covered in the other. -/
def Within (c d : Coverage) : Prop :=
  ∀ target address, address ∈ c.covered target → address ∈ d.covered target

theorem Within.refl (c : Coverage) : Within c c := fun _ _ h => h

theorem Within.trans {e : Coverage} (h : Within c d) (h' : Within d e) : Within c e :=
  fun target address hcovered => h' target address (h target address hcovered)

theorem within_after (c : Coverage) (frame : Frame) : Within c (c.after frame) :=
  fun _ _ hcovered => mem_covered_after.mpr (.inl hcovered)

/-- Frames that run the same code of the same instances. -/
def Covers (frame other : Frame) : Prop :=
  ∀ target address,
    (∃ inner ∈ frame.frames, inner.contractAddress = target ∧ address ∈ inner.executed) →
      ∃ inner ∈ other.frames, inner.contractAddress = target ∧ address ∈ inner.executed

theorem Within.after (h : Within c d) {frame other : Frame} (hframes : Covers frame other) :
    Within (c.after frame) (d.after other) := by
  intro target address hcovered
  rcases mem_covered_after.mp hcovered with hcovered | hexecuted
  · exact mem_covered_after.mpr (.inl (h target address hcovered))
  · exact mem_covered_after.mpr (.inr (hframes target address hexecuted))

/-- The pairs of an instance and an address it has executed. -/
def pairs (c : Coverage) : List (InstanceId × Nat) :=
  c.addresses.entries.flatMap fun entry => entry.2.toList.map (entry.1, ·)

theorem mem_pairs : (target, address) ∈ c.pairs ↔ address ∈ c.covered target := by
  simp only [pairs, List.mem_flatMap, List.mem_map, Prod.mk.injEq]
  constructor
  · rintro ⟨⟨key, executed⟩, hentry, found, hfound, rfl, rfl⟩
    rw [covered, SortedMap.get?_eq_some_iff.mpr hentry]
    exact hfound
  · intro hcovered
    rw [covered] at hcovered
    cases hget : c.addresses.get? target with
    | none =>
        rw [hget] at hcovered
        cases hcovered
    | some executed =>
        rw [hget] at hcovered
        exact ⟨(target, executed), SortedMap.get?_eq_some_iff.mp hget, address, hcovered, rfl, rfl⟩

theorem length_pairs : c.pairs.length = c.total := by
  rw [total, SortedMap.values, pairs]
  induction c.addresses.entries with
  | nil => rfl
  | cons entry rest ih =>
      rw [List.flatMap_cons, List.length_append, List.length_map, ih]
      rfl

theorem nodup_pairs (c : Coverage) : c.pairs.Nodup := by
  have hirrefl (a : Nat) : compare a a ≠ .lt := by simp [Std.ReflCmp.compare_self]
  refine List.nodup_flatMap.mpr ⟨fun entry _ => ?_, c.addresses.ascending.imp ?_⟩
  · have hnodup : entry.2.toList.Nodup := by
      refine entry.2.ascending.imp ?_
      rintro address _ hlt rfl
      exact hirrefl address hlt
    exact hnodup.map fun _ _ heq => (Prod.mk.inj heq).2
  · intro entry other hlt pair hpair hother
    obtain ⟨_, -, rfl⟩ := List.mem_map.mp hpair
    obtain ⟨_, -, heq⟩ := List.mem_map.mp hother
    rw [(Prod.mk.inj heq).1] at hlt
    exact hirrefl _ hlt

theorem Within.total_le (h : Within c d) : c.total ≤ d.total := by
  have hsubset : c.pairs ⊆ d.pairs := fun _ hpair => mem_pairs.mpr (h _ _ (mem_pairs.mp hpair))
  have hlength := (List.subperm_of_subset c.nodup_pairs hsubset).length_le
  rwa [length_pairs, length_pairs] at hlength

end ContractFuzz.Coverage
