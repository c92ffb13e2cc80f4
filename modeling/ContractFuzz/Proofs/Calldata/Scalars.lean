import ContractFuzz.Proofs.Calldata.Encoding

namespace ContractFuzz.Calldata

open ContractFuzz.Random

/-- Some source whose draws all lie in range leads a random choice to a value. -/
def CanDraw {α : Type} (choice : {ρ : Type} → Source ρ → ρ → α × ρ) (x : α) : Prop :=
  ∃ (ρ : Type) (source : Source ρ) (state : ρ), source.InRange ∧ (choice source state).1 = x

theorem canDraw_of_tape {α : Type} {choice : {ρ : Type} → Source ρ → ρ → α × ρ} {x : α}
    (tape : List Nat) (h : (choice tapeSource tape).1 = x) : CanDraw choice x :=
  ⟨List Nat, tapeSource, tape, tapeSource_inRange, h⟩

/-- A difference, unless it is below zero. -/
def difference? (x y : Nat) : Option Nat := if y ≤ x then some (x - y) else none

theorem difference?_of_le {x y : Nat} (h : y ≤ x) : difference? x y = some (x - y) := if_pos h

/-- A number from `low` on that is below `high`, unless there is none. -/
def drawFrom? {ρ : Type} (draw : Nat → ρ → Nat × ρ) (low high : Nat) (state : ρ) :
    Option (Nat × ρ) :=
  if low < high then
    let (offset, state) := draw (high - low) state
    some (low + offset, state)
  else none

theorem drawFrom?_of_lt {ρ : Type} {draw : Nat → ρ → Nat × ρ} {low high : Nat} (h : low < high)
    (state : ρ) : drawFrom? draw low high state =
      some (low + (draw (high - low) state).1, (draw (high - low) state).2) := if_pos h

theorem canDraw_feltBetween_iff {low high x : Nat} :
    CanDraw (fun source => feltBetween source low high) x ↔
      if low ≤ high then low ≤ x ∧ x ≤ high else x = low := by
  constructor
  · rintro ⟨ρ, source, state, hsource, rfl⟩
    obtain ⟨hlow, hhigh⟩ :=
      feltBetween_mem hsource (Prod.eta (feltBetween source low high state)).symm
    split
    · rename_i hle
      rw [Nat.max_eq_right hle] at hhigh
      exact ⟨hlow, hhigh⟩
    · rename_i hgt
      rw [Nat.max_eq_left (Nat.le_of_not_le hgt)] at hhigh
      exact Nat.le_antisymm hhigh hlow
  · intro h
    by_cases hempty : high ≤ low
    · have hx : x = low := by
        split at h
        · omega
        · exact h
      refine canDraw_of_tape [] ?_
      rw [feltBetween, if_pos hempty, hx]
    · rw [if_pos (by omega)] at h
      refine canDraw_of_tape [x - low] ?_
      have hdraw : tapeSource.below (high + 1 - low) [x - low] = (x - low, []) :=
        readTape_cons (by omega) []
      rw [feltBetween, if_neg hempty, hdraw]
      exact Nat.add_sub_of_le h.1

namespace Generator

variable {g : Generator}

section Exact

variable {ρ : Type} (source : Source ρ) (g : Generator)

/-- One scalar, unless a range that it is drawn from is empty or a difference is below zero. -/
def felt? (state : ρ) : Option (Felt × ρ) :=
  let (tier, state) := source.fraction state
  if tier < edgeTier then do
    let (bucket, state) ← drawFrom? source.index 0 3 state
    let (offset, state) ← drawFrom? source.index 0 3 state
    let edge ← match bucket with
      | 0 => some 0
      | 1 => difference? (1 <<< 128) 1
      | _ => difference? g.modulus 3
    return (edge + offset, state)
  else if tier < smallTier then drawFrom? source.below 0 (1 <<< 128) state
  else if tier < middleTier then drawFrom? source.below (1 <<< 128) (g.modulus / 2) state
  else drawFrom? source.below (g.modulus / 2) g.modulus state

theorem felt?_eq_some (state : ρ) : g.felt? source state = some (g.felt source state) := by
  obtain ⟨fraction, index, length, below⟩ := source
  have hmodulus := g.modulus_gt
  simp only [modulusFloor] at hmodulus
  simp only [felt?, felt]
  generalize fraction state = tier
  split
  · simp only [drawFrom?_of_lt (show 0 < 3 by decide), Nat.sub_zero, Nat.zero_add,
      difference?_of_le (show 1 ≤ 1 <<< 128 by decide),
      difference?_of_le (show 3 ≤ g.modulus by omega), Option.bind_eq_bind, Option.bind_some]
    generalize index 3 tier.2 = bucket
    rcases bucket with ⟨_ | _ | bucket, state⟩
    · rfl
    · rfl
    · rfl
  split
  · rw [drawFrom?_of_lt (by decide), Nat.zero_add, Nat.sub_zero]
  split
  · rw [drawFrom?_of_lt (by omega)]
  · rw [drawFrom?_of_lt (by omega)]

end Exact

theorem canDraw_felt_iff {x : Nat} : CanDraw (fun source => g.felt source) x ↔ x < g.modulus := by
  constructor
  · rintro ⟨ρ, source, state, hsource, rfl⟩
    exact felt_lt hsource (Prod.eta (g.felt source state)).symm
  · intro hx
    obtain ⟨tape, htape⟩ := exists_tape_felt hx
    exact canDraw_of_tape _ (congrArg Prod.fst (htape []))

/-- Whatever modulus a generator is made for, drawing a scalar asks for no number of an empty range
and takes no difference below zero, and the scalars that it can come to are just the elements of the
field. Between two bounds it can come to just the numbers from the one to the other. -/
theorem make_covers {modulus limit : Nat} (h : make modulus limit = .ok g) :
    (∀ {ρ : Type} (source : Source ρ) (state : ρ),
      g.felt? source state = some (g.felt source state)) ∧
    (∀ x : Nat, CanDraw (fun source => g.felt source) x ↔ x < modulus) ∧
    ∀ low high x : Nat, CanDraw (fun source => feltBetween source low high) x ↔
      if low ≤ high then low ≤ x ∧ x ≤ high else x = low := by
  refine ⟨fun source state => felt?_eq_some source g state, fun x => ?_, fun low high x => ?_⟩
  · rw [← (make_eq_ok h).1]
    exact canDraw_felt_iff
  · exact canDraw_feltBetween_iff

theorem make_covers_least : ∃ g, make (modulusFloor + 1) 1 = .ok g ∧
    (g.felt? tapeSource [smallTier, 0]).map Prod.fst = some (1 <<< 128) ∧
    CanDraw (fun source => g.felt source) modulusFloor ∧
    ¬CanDraw (fun source => g.felt source) (modulusFloor + 1) ∧
    ∀ x : Nat, CanDraw (fun source => feltBetween source 5 6) x → x = 5 ∨ x = 6 := by
  have hmake : make (modulusFloor + 1) 1 = .ok ⟨modulusFloor + 1, 1, by omega, by omega⟩ := rfl
  obtain ⟨hexact, hfelt, hbetween⟩ := make_covers hmake
  refine ⟨_, hmake, ?_, ?_, ?_, ?_⟩
  · rw [hexact]
    rfl
  · exact (hfelt _).mpr (Nat.lt_succ_self _)
  · exact fun hdraw => Nat.lt_irrefl _ ((hfelt _).mp hdraw)
  · intro x hdraw
    obtain ⟨hlow, hhigh⟩ := (if_pos (by decide)).mp ((hbetween 5 6 x).mp hdraw)
    omega

end Generator

end ContractFuzz.Calldata
