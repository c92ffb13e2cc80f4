import ContractFuzz.Calldata.Generator
import ContractFuzz.Schema
import Mathlib.Data.List.Forall2

namespace ContractFuzz.Calldata

open ContractFuzz.Random

/-- The numbers that encode a value of a shape, of which so many levels may still be entered. -/
def Encodes (modulus maximalLength : Nat) (structs : StructTable) :
    Nat → Shape → List Felt → Prop
  | 0, _, _ => False
  | _ + 1, .felt, numbers => ∃ x < modulus, numbers = [x]
  | levels + 1, .pointer pointee, numbers =>
      ∃ elements : List (List Felt), 1 ≤ elements.length ∧ elements.length ≤ maximalLength ∧
        (∀ element ∈ elements, Encodes modulus maximalLength structs levels pointee element) ∧
        numbers = elements.length :: elements.flatten
  | levels + 1, .tuple members, numbers =>
      ∃ parts, List.Forall₂ (Encodes modulus maximalLength structs levels) members parts ∧
        numbers = parts.flatten
  | levels + 1, .struct name, numbers =>
      ∃ members parts, structs.get? name = some members ∧
        List.Forall₂ (Encodes modulus maximalLength structs levels) members parts ∧
        numbers = parts.flatten

/-- The numbers that encode arguments of some shapes, one after another. -/
def EncodesAll (modulus maximalLength : Nat) (structs : StructTable) (shapes : List Shape)
    (numbers : List Felt) : Prop :=
  ∃ parts, List.Forall₂ (Encodes modulus maximalLength structs (maximalNesting + 1)) shapes parts ∧
    numbers = parts.flatten

section Soundness

variable {ρ : Type} {source : Source ρ}

theorem drawEach_forall₂ {α : Type} {step : α → Draw ρ (List Felt)} {encodes : α → List Felt → Prop}
    (hstep : ∀ item state numbers next, step item state = (.ok numbers, next) →
      encodes item numbers)
    {items : List α} {state next : ρ} {numbers : List Felt}
    (h : drawEach step items state = (.ok numbers, next)) :
    ∃ parts, List.Forall₂ encodes items parts ∧ numbers = parts.flatten := by
  induction items generalizing state numbers with
  | nil =>
      cases h
      exact ⟨[], .nil, rfl⟩
  | cons item rest ih =>
      rw [drawEach] at h
      rcases hfront : step item state with ⟨e | front, middle⟩
      · rw [hfront] at h
        cases h
      rcases hback : drawEach step rest middle with ⟨e | back, last⟩
      · simp only [hfront, hback] at h
        cases h
      · simp only [hfront, hback] at h
        cases h
        obtain ⟨parts, hparts, rfl⟩ := ih hback
        exact ⟨front :: parts, .cons (hstep _ _ _ _ hfront) hparts, rfl⟩

theorem drawTimes_forall {step : Draw ρ (List Felt)} {encodes : List Felt → Prop}
    (hstep : ∀ state numbers next, step state = (.ok numbers, next) → encodes numbers)
    {count : Nat} {state next : ρ} {numbers : List Felt}
    (h : drawTimes step count state = (.ok numbers, next)) :
    ∃ parts : List (List Felt), parts.length = count ∧ (∀ part ∈ parts, encodes part) ∧
      numbers = parts.flatten := by
  induction count generalizing state numbers with
  | zero =>
      cases h
      exact ⟨[], rfl, by simp, rfl⟩
  | succ count ih =>
      rw [drawTimes_succ] at h
      rcases hfront : step state with ⟨e | front, middle⟩
      · rw [hfront] at h
        cases h
      rcases hback : drawTimes step count middle with ⟨e | back, last⟩
      · simp only [hfront, hback] at h
        cases h
      · simp only [hfront, hback] at h
        cases h
        obtain ⟨parts, hlength, hparts, rfl⟩ := ih hback
        refine ⟨front :: parts, by rw [List.length_cons, hlength], ?_, rfl⟩
        exact List.forall_mem_cons.mpr ⟨hstep _ _ _ hfront, hparts⟩

theorem feltBetween_mem (hsource : source.InRange) {low high x : Nat} {state next : ρ}
    (h : feltBetween source low high state = (x, next)) : low ≤ x ∧ x ≤ max low high := by
  rw [feltBetween] at h
  split at h
  · cases h
    exact ⟨Nat.le_refl low, Nat.le_max_left low high⟩
  · have hbelow := hsource.below_lt (high + 1 - low) state (by omega)
    rcases hdraw : source.below (high + 1 - low) state with ⟨offset, drawn⟩
    rw [hdraw] at h hbelow
    cases h
    omega

namespace Generator

variable {g : Generator} {structs : StructTable}

theorem make_eq_ok {modulus limit : Nat} (h : make modulus limit = .ok g) :
    g.modulus = modulus ∧ g.maximalLength = max limit 1 := by
  rw [make] at h
  split at h
  · cases h
    exact ⟨rfl, rfl⟩
  · cases h

theorem felt_lt (hsource : source.InRange) {x : Nat} {state next : ρ}
    (h : g.felt source state = (x, next)) : x < g.modulus := by
  obtain ⟨fraction, index, length, below⟩ := source
  obtain ⟨-, hindex, -, hbelow⟩ := hsource
  have hmodulus := g.modulus_gt
  simp only [modulusFloor] at hmodulus
  simp only [felt] at h hindex hbelow
  split at h
  · have hoffset := hindex 3 (index 3 (fraction state).2).2 (by omega)
    cases h
    split <;> omega
  split at h
  · have hsmall := hbelow (1 <<< 128) (fraction state).2 (by omega)
    rw [h] at hsmall
    omega
  split at h
  · have hmiddle := hbelow (g.modulus / 2 - 1 <<< 128) (fraction state).2 (by omega)
    cases h
    omega
  · have hlarge := hbelow (g.modulus - g.modulus / 2) (fraction state).2 (by omega)
    cases h
    omega

theorem calldataWithin_encodes (hsource : source.InRange) {levels : Nat} {shape : Shape}
    {state next : ρ} {numbers : List Felt}
    (h : g.calldataWithin source structs levels shape state = (.ok numbers, next)) :
    Encodes g.modulus g.maximalLength structs levels shape numbers := by
  -- The members of a struct are no part of its shape, so the induction is on the levels.
  induction levels generalizing shape state next numbers with
  | zero => cases h
  | succ levels ih =>
      have hmember (item : Shape) (state : ρ) (numbers : List Felt) (next : ρ)
          (h : g.calldataWithin source structs levels item state = (.ok numbers, next)) :
          Encodes g.modulus g.maximalLength structs levels item numbers := ih h
      cases shape with
      | felt =>
          rcases hfelt : g.felt source state with ⟨x, drawn⟩
          rw [calldataWithin, hfelt] at h
          cases h
          exact ⟨x, felt_lt hsource hfelt, rfl⟩
      | pointer pointee =>
          have hlength := hsource.length_lt g.maximalLength state g.maximalLength_pos
          rw [calldataWithin] at h
          rcases hdraw : source.length g.maximalLength state with ⟨offset, middle⟩
          rw [hdraw] at h hlength
          dsimp only at h hlength
          split at h
          · cases h
          · rename_i hdrawn
            cases h
            obtain ⟨elements, hcount, helements, rfl⟩ := drawTimes_forall (hmember pointee) hdrawn
            exact ⟨elements, by omega, by omega, helements, by rw [hcount]⟩
      | tuple members =>
          rw [calldataWithin] at h
          exact drawEach_forall₂ hmember h
      | struct name =>
          rw [calldataWithin] at h
          split at h
          · rename_i members hmembers
            obtain ⟨parts, hparts, rfl⟩ := drawEach_forall₂ hmember h
            exact ⟨members, parts, hmembers, hparts, rfl⟩
          · cases h

theorem calldata_encodes (hsource : source.InRange) {shapes : List Shape} {state next : ρ}
    {numbers : List Felt} (h : g.calldata source structs shapes state = (.ok numbers, next)) :
    EncodesAll g.modulus g.maximalLength structs shapes numbers := by
  have hshape (shape : Shape) (state : ρ) (numbers : List Felt) (next : ρ)
      (hdrawn : g.calldataWithin source structs (maximalNesting + 1) shape state =
        (.ok numbers, next)) :
      Encodes g.modulus g.maximalLength structs (maximalNesting + 1) shape numbers :=
    calldataWithin_encodes hsource hdrawn
  exact drawEach_forall₂ hshape h

end Generator

end Soundness

section Completeness

/-- The next draw off a tape. What is not below the bound counts as zero, and so does what is not
there. -/
def readTape (bound : Nat) : List Nat → Nat × List Nat
  | [] => (0, [])
  | x :: rest => (if x < bound then x else 0, rest)

/-- A source of which all draws are written down. -/
def tapeSource : Source (List Nat) := ⟨readTape (1 <<< 53), readTape, readTape, readTape⟩

theorem readTape_cons {bound x : Nat} (h : x < bound) (rest : List Nat) :
    readTape bound (x :: rest) = (x, rest) := by
  rw [readTape, if_pos h]

theorem readTape_lt {bound : Nat} (hbound : 0 < bound) (tape : List Nat) :
    (readTape bound tape).1 < bound := by
  cases tape with
  | nil => exact hbound
  | cons x rest =>
      rw [readTape]
      split
      · assumption
      · exact hbound

theorem tapeSource_inRange : tapeSource.InRange where
  fraction_lt := readTape_lt (by decide)
  index_lt _ state hbound := readTape_lt hbound state
  length_lt _ state hbound := readTape_lt hbound state
  below_lt _ state hbound := readTape_lt hbound state

/-- A step that yields a result on a tape, and leaves what comes after it. -/
def Scripted {α : Type} (step : Draw (List Nat) α) (result : α) : Prop :=
  ∃ tape, ∀ rest, step (tape ++ rest) = (.ok result, rest)

theorem scripted_drawEach {α : Type} {step : α → Draw (List Nat) (List Felt)} {items : List α}
    {parts : List (List Felt)}
    (h : List.Forall₂ (fun item part => Scripted (step item) part) items parts) :
    Scripted (drawEach step items) parts.flatten := by
  induction h with
  | nil => exact ⟨[], fun _ => rfl⟩
  | cons hfront _ ih =>
      obtain ⟨tape, hfront⟩ := hfront
      obtain ⟨others, hback⟩ := ih
      refine ⟨tape ++ others, fun rest => ?_⟩
      simp only [List.append_assoc, drawEach, hfront, hback, List.flatten_cons]

theorem scripted_drawTimes {step : Draw (List Nat) (List Felt)} {parts : List (List Felt)}
    (h : ∀ part ∈ parts, Scripted step part) :
    Scripted (drawTimes step parts.length) parts.flatten := by
  induction parts with
  | nil => exact ⟨[], fun _ => rfl⟩
  | cons front parts ih =>
      obtain ⟨⟨tape, hfront⟩, hparts⟩ := List.forall_mem_cons.mp h
      obtain ⟨others, hback⟩ := ih hparts
      refine ⟨tape ++ others, fun rest => ?_⟩
      simp only [List.append_assoc, List.length_cons, drawTimes_succ, hfront, hback,
        List.flatten_cons]

namespace Generator

variable {g : Generator} {structs : StructTable}

theorem exists_tape_felt {x : Nat} (hx : x < g.modulus) :
    ∃ tape, ∀ rest, g.felt tapeSource (tape ++ rest) = (x, rest) := by
  -- The tiers leave no gap below the modulus.
  have htier (tier : Nat) (htier : tier < 1 <<< 53) (offset : Nat) (rest : List Nat) :
      tapeSource.fraction (tier :: offset :: rest) = (tier, offset :: rest) :=
    readTape_cons htier _
  have hbelow (bound offset : Nat) (hoffset : offset < bound) (rest : List Nat) :
      tapeSource.below bound (offset :: rest) = (offset, rest) := readTape_cons hoffset rest
  by_cases hsmall : x < 1 <<< 128
  · refine ⟨[edgeTier, x], fun rest => ?_⟩
    rw [List.cons_append, List.cons_append, felt, htier edgeTier (by decide)]
    exact hbelow _ x hsmall rest
  by_cases hmiddle : x < g.modulus / 2
  · refine ⟨[smallTier, x - 1 <<< 128], fun rest => ?_⟩
    rw [List.cons_append, List.cons_append, felt, htier smallTier (by decide)]
    change (match tapeSource.below _ _ with | (offset, state) => (1 <<< 128 + offset, state)) = _
    rw [hbelow _ _ (by omega)]
    exact congrArg (Prod.mk · rest) (Nat.add_sub_of_le (by omega))
  · refine ⟨[middleTier, x - g.modulus / 2], fun rest => ?_⟩
    rw [List.cons_append, List.cons_append, felt, htier middleTier (by decide)]
    change (match tapeSource.below _ _ with | (offset, state) => (g.modulus / 2 + offset, state)) = _
    rw [hbelow _ _ (by omega)]
    exact congrArg (Prod.mk · rest) (Nat.add_sub_of_le (by omega))

theorem scripted_calldataWithin {levels : Nat} {shape : Shape} {numbers : List Felt}
    (h : Encodes g.modulus g.maximalLength structs levels shape numbers) :
    Scripted (g.calldataWithin tapeSource structs levels shape) numbers := by
  induction levels generalizing shape numbers with
  | zero => cases h
  | succ levels ih =>
      have hmembers {members : List Shape} {parts : List (List Felt)}
          (h : List.Forall₂ (Encodes g.modulus g.maximalLength structs levels) members parts) :
          Scripted (drawEach (g.calldataWithin tapeSource structs levels) members) parts.flatten :=
        scripted_drawEach (h.imp fun _ _ => ih)
      cases shape with
      | felt =>
          obtain ⟨x, hx, rfl⟩ := h
          obtain ⟨tape, htape⟩ := exists_tape_felt hx
          refine ⟨tape, fun rest => ?_⟩
          rw [calldataWithin, htape]
      | pointer pointee =>
          obtain ⟨elements, hpos, hlimit, helements, rfl⟩ := h
          obtain ⟨tape, htape⟩ := scripted_drawTimes fun element helement =>
            ih (helements element helement)
          refine ⟨(elements.length - 1) :: tape, fun rest => ?_⟩
          have hdraw : tapeSource.length g.maximalLength ((elements.length - 1) :: (tape ++ rest)) =
              (elements.length - 1, tape ++ rest) := readTape_cons (by omega) _
          rw [List.cons_append, calldataWithin, hdraw]
          simp only [Nat.sub_add_cancel hpos, htape]
      | tuple members =>
          obtain ⟨parts, hparts, rfl⟩ := h
          exact hmembers hparts
      | struct name =>
          obtain ⟨members, parts, hname, hparts, rfl⟩ := h
          obtain ⟨tape, htape⟩ := hmembers hparts
          refine ⟨tape, fun rest => ?_⟩
          rw [calldataWithin, hname]
          exact htape rest

/-- The generator can return just the encodings, on some source of draws in range. -/
theorem encodesAll_iff_drawn (g : Generator) (structs : StructTable) (shapes : List Shape)
    (numbers : List Felt) :
    EncodesAll g.modulus g.maximalLength structs shapes numbers ↔
      ∃ (ρ : Type) (source : Source ρ), source.InRange ∧
        ∃ state next, g.calldata source structs shapes state = (.ok numbers, next) := by
  constructor
  · rintro ⟨parts, hparts, rfl⟩
    obtain ⟨tape, htape⟩ := scripted_drawEach (hparts.imp fun _ _ => scripted_calldataWithin)
    exact ⟨List Nat, tapeSource, tapeSource_inRange, tape ++ [], [], htape []⟩
  · rintro ⟨ρ, source, hsource, state, next, hdrawn⟩
    exact calldata_encodes hsource hdrawn

end Generator

end Completeness

end ContractFuzz.Calldata
