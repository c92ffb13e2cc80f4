import ContractFuzz.Calldata.Shape
import ContractFuzz.Felt
import ContractFuzz.Random.Source
import ContractFuzz.Sorted.Map

/-!
Random calldata. Half of all scalars are edge cases: next to zero, to `2 ^ 128` and to the modulus.
The others lie below `2 ^ 128`, from there to half the modulus, and above that, one fifth, one tenth
and one fifth of the time.
-/

namespace ContractFuzz.Calldata

open ContractFuzz.Random

inductive GenerationError where
  | unknownStruct (name : String)
  | modulusTooSmall (modulus : Nat)
  | tooDeep (shape : String)
  | emptySenderPool
  | emptyFunctionList
  deriving DecidableEq, Repr

/-- How deep a type may nest, structs unfolded, before it counts as referring to itself. -/
def maximalNesting : Nat := 32

def GenerationError.message : GenerationError → String
  | .unknownStruct name => s!"unknown struct type '{name}'"
  | .modulusTooSmall modulus => s!"modulus {modulus} is too small, must exceed 2^129 + 2"
  | .tooDeep shape => s!"type '{shape}' nests deeper than {maximalNesting} levels"
  | .emptySenderPool => "cannot pick from empty sender pool"
  | .emptyFunctionList => "cannot pick from empty function list"

/-- The largest modulus that leaves no room between the edge cases. -/
def modulusFloor : Nat := 1 <<< 129 + 2

/-- What scalars and arrays may be. -/
structure Generator where
  modulus : Nat
  maximalLength : Nat
  modulus_gt : modulusFloor < modulus
  maximalLength_pos : 0 < maximalLength

/-- A generator for a modulus and a limit on array lengths. Arrays have at least one element, so a
limit of zero counts as one. -/
def Generator.make (modulus maximalLength : Nat) : Except GenerationError Generator :=
  if h : modulusFloor < modulus then
    .ok ⟨modulus, max maximalLength 1, h, by omega⟩
  else .error (.modulusTooSmall modulus)

namespace Generator

variable {ρ : Type} (source : Source ρ) (g : Generator)

/-- `2 ^ 53` times one half, seven tenths and eight tenths, rounded to doubles. -/
def edgeTier : Nat := 4503599627370496

@[inherit_doc edgeTier]
def smallTier : Nat := 6305039478318694

@[inherit_doc edgeTier]
def middleTier : Nat := 7205759403792794

/-- One scalar below the modulus. -/
def felt (state : ρ) : Felt × ρ :=
  let (tier, state) := source.fraction state
  if tier < edgeTier then
    let (bucket, state) := source.index 3 state
    let (offset, state) := source.index 3 state
    (match bucket with
      | 0 => offset
      | 1 => 1 <<< 128 - 1 + offset
      | _ => g.modulus - 3 + offset, state)
  else if tier < smallTier then source.below (1 <<< 128) state
  else if tier < middleTier then
    let (offset, state) := source.below (g.modulus / 2 - 1 <<< 128) state
    (1 <<< 128 + offset, state)
  else
    let (offset, state) := source.below (g.modulus - g.modulus / 2) state
    (g.modulus / 2 + offset, state)

end Generator

/-- A number from `low` to `high`, both included; only `low` when `high` is not above it. -/
def feltBetween {ρ : Type} (source : Source ρ) (low high : Nat) (state : ρ) : Felt × ρ :=
  if high ≤ low then (low, state)
  else
    let (offset, state) := source.below (high + 1 - low) state
    (low + offset, state)

/-- The outcome of a generation step, with the state of the source after it, also after a
failure. -/
abbrev Draw (ρ α : Type) := ρ → Except GenerationError α × ρ

/-- Generate for one item after another and put the results together. -/
def drawEach {ρ α : Type} (step : α → Draw ρ (List Felt)) : List α → Draw ρ (List Felt)
  | [], state => (.ok [], state)
  | item :: rest, state =>
      match step item state with
      | (.error e, state) => (.error e, state)
      | (.ok front, state) =>
          match drawEach step rest state with
          | (.error e, state) => (.error e, state)
          | (.ok back, state) => (.ok (front ++ back), state)

/-- Generate so many times, and put the results in front of what has been drawn, the last number
first. An array may be long, so nothing is left to do after the last step. -/
def drawOnto {ρ : Type} (step : Draw ρ (List Felt)) : Nat → List Felt → Draw ρ (List Felt)
  | 0, drawn, state => (.ok drawn, state)
  | count + 1, drawn, state =>
      match step state with
      | (.error e, state) => (.error e, state)
      | (.ok numbers, state) => drawOnto step count (numbers.reverse ++ drawn) state

/-- Generate so many times and put the results together. -/
def drawTimes {ρ : Type} (step : Draw ρ (List Felt)) (count : Nat) : Draw ρ (List Felt) :=
  fun state =>
    match drawOnto step count [] state with
    | (.error e, state) => (.error e, state)
    | (.ok drawn, state) => (.ok drawn.reverse, state)

theorem drawOnto_eq {ρ : Type} (step : Draw ρ (List Felt)) (count : Nat) (drawn : List Felt)
    (state : ρ) :
    drawOnto step count drawn state =
      ((drawTimes step count state).1.map (fun numbers => numbers.reverse ++ drawn),
        (drawTimes step count state).2) := by
  induction count generalizing drawn state with
  | zero => simp [drawOnto, drawTimes, Except.map]
  | succ count ih =>
      simp only [drawOnto, drawTimes, List.append_nil]
      rcases step state with ⟨result, next⟩
      cases result with
      | error e => rfl
      | ok numbers =>
          simp only [ih]
          rcases drawTimes step count next with ⟨rest, last⟩
          cases rest <;> simp [Except.map]

@[simp] theorem drawTimes_zero {ρ : Type} (step : Draw ρ (List Felt)) (state : ρ) :
    drawTimes step 0 state = (.ok [], state) := rfl

theorem drawTimes_succ {ρ : Type} (step : Draw ρ (List Felt)) (count : Nat) (state : ρ) :
    drawTimes step (count + 1) state =
      match step state with
      | (.error e, state) => (.error e, state)
      | (.ok front, state) =>
          match drawTimes step count state with
          | (.error e, state) => (.error e, state)
          | (.ok back, state) => (.ok (front ++ back), state) := by
  rw [drawTimes, drawOnto]
  rcases step state with ⟨result, next⟩
  cases result with
  | error e => rfl
  | ok numbers =>
      simp only [drawOnto_eq]
      rcases drawTimes step count next with ⟨rest, last⟩
      cases rest <;> simp [Except.map]

namespace Generator

variable {ρ : Type} (source : Source ρ) (g : Generator)

/-- Calldata of one shape, of which so many levels may still be entered. -/
def calldataWithin (structs : SortedMap String (List Shape)) :
    Nat → Shape → Draw ρ (List Felt)
  | 0, shape, state => (.error (.tooDeep shape.render), state)
  | _ + 1, .felt, state =>
      let (x, state) := g.felt source state
      (.ok [x], state)
  | levels + 1, .pointer pointee, state =>
      let (offset, state) := source.length g.maximalLength state
      let length := offset + 1
      match drawTimes (calldataWithin structs levels pointee) length state with
      | (.error e, state) => (.error e, state)
      | (.ok elements, state) => (.ok (length :: elements), state)
  | levels + 1, .tuple members, state => drawEach (calldataWithin structs levels) members state
  | levels + 1, .struct name, state =>
      match structs.get? name with
      | some members => drawEach (calldataWithin structs levels) members state
      | none => (.error (.unknownStruct name), state)

/-- Calldata of several shapes, one after another. -/
def calldata (structs : SortedMap String (List Shape)) (shapes : List Shape) :
    Draw ρ (List Felt) :=
  drawEach (g.calldataWithin source structs (maximalNesting + 1)) shapes

end Generator

end ContractFuzz.Calldata
