import ContractFuzz.Calldata.Generator
import ContractFuzz.Schema
import Mathlib.Data.List.Lex

/-!
Shapes for which no calldata can be generated. What is wrong with them can be told without drawing
anything: some place below them, structs unfolded, is too deep or names a struct that is not known,
and generation fails for the first such place from the left.
-/

namespace ContractFuzz.Calldata

open ContractFuzz.Random

/-- The shapes directly below a shape, structs unfolded. -/
def Shape.children (structs : StructTable) : Shape → List Shape
  | .felt => []
  | .pointer pointee => [pointee]
  | .tuple members => members
  | .struct name => (structs.get? name).getD []

/-- A node lies below a shape, at the place that says which way to go down on every level. -/
inductive LiesAt (structs : StructTable) : Shape → List Nat → Shape → Prop
  | here {shape} : LiesAt structs shape [] shape
  | down {shape child node index place} (hchild : (shape.children structs)[index]? = some child)
      (h : LiesAt structs child place node) : LiesAt structs shape (index :: place) node

/-- What is wrong at a place below a shape of which so many levels may be entered. -/
inductive Offends (structs : StructTable) (levels : Nat) (shape : Shape) :
    List Nat → GenerationError → Prop
  | tooDeep {place node} (h : LiesAt structs shape place node) (hdeep : levels ≤ place.length) :
      Offends structs levels shape place (.tooDeep node.render)
  | unknownStruct {place name} (h : LiesAt structs shape place (.struct name))
      (hlevel : place.length < levels) (hname : structs.get? name = none) :
      Offends structs levels shape place (.unknownStruct name)

/-- What is wrong at a place below one of several items, where the place says first which. -/
inductive Among {α : Type} (offends : α → List Nat → GenerationError → Prop) (items : List α) :
    List Nat → GenerationError → Prop
  | item {index item place e} (hitem : items[index]? = some item) (h : offends item place e) :
      Among offends items (index :: place) e

/-- The error of the first place where something is wrong. Places come in the order of a traversal
that takes every node before those below it, and these from left to right. -/
def IsFirst (offends : List Nat → GenerationError → Prop) (e : GenerationError) : Prop :=
  ∃ place, offends place e ∧
    ∀ other fault, offends other fault → ¬List.Lex (· < ·) other place

/-- An outcome tells what is wrong: nothing if there is a result, and else what comes first. -/
def Tells {α : Type} (offends : List Nat → GenerationError → Prop) :
    Except GenerationError α → Prop
  | .ok _ => ∀ place e, ¬offends place e
  | .error e => IsFirst offends e

section Places

variable {structs : StructTable} {levels : Nat} {shape : Shape}

theorem offends_succ (hknown : ∀ name, shape = .struct name → structs.get? name ≠ none) :
    Offends structs (levels + 1) shape = Among (Offends structs levels) (shape.children structs) := by
  funext place e
  apply propext
  constructor
  · intro h
    cases h with
    | tooDeep h hdeep =>
        cases h with
        | here => exact absurd hdeep (Nat.not_succ_le_zero _)
        | down hchild h => exact .item hchild (.tooDeep h (Nat.le_of_succ_le_succ hdeep))
    | unknownStruct h hlevel hname =>
        cases h with
        | here => exact absurd hname (hknown _ rfl)
        | down hchild h =>
            exact .item hchild (.unknownStruct h (Nat.lt_of_succ_lt_succ hlevel) hname)
  · intro h
    cases h with
    | item hchild h =>
        cases h with
        | tooDeep h hdeep => exact .tooDeep (.down hchild h) (Nat.succ_le_succ hdeep)
        | unknownStruct h hlevel hname =>
            exact .unknownStruct (.down hchild h) (Nat.succ_lt_succ hlevel) hname

theorem LiesAt.unique {place : List Nat} {node other : Shape} (h : LiesAt structs shape place node)
    (hother : LiesAt structs shape place other) : node = other := by
  induction h with
  | here =>
      cases hother
      rfl
  | down hchild _ ih =>
      cases hother with
      | down hsame hother =>
          rw [hchild] at hsame
          cases hsame
          exact ih hother

theorem Offends.unique {place : List Nat} {e fault : GenerationError}
    (h : Offends structs levels shape place e) (hfault : Offends structs levels shape place fault) :
    e = fault := by
  cases h with
  | tooDeep h hdeep =>
      cases hfault with
      | tooDeep hother => rw [h.unique hother]
      | unknownStruct _ hlevel => omega
  | unknownStruct h hlevel =>
      cases hfault with
      | tooDeep _ hdeep => omega
      | unknownStruct hother => cases h.unique hother; rfl

end Places

section Firsts

variable {α : Type} {offends : α → List Nat → GenerationError → Prop} {first : α} {rest : List α}
  {e fault : GenerationError}

theorem isFirst_root {offends : List Nat → GenerationError → Prop} (h : offends [] e) :
    IsFirst offends e := by
  refine ⟨[], h, ?_⟩
  intro other fault _ hlex
  cases hlex

theorem Among.unique {items : List α} {place : List Nat} (h : Among offends items place e)
    (hfault : Among offends items place fault)
    (hitem : ∀ item place e fault, offends item place e → offends item place fault → e = fault) :
    e = fault := by
  cases h with
  | item hindex h =>
      cases hfault with
      | item hsame hother =>
          rw [hindex] at hsame
          cases hsame
          exact hitem _ _ _ _ h hother

theorem IsFirst.unique {offends : List Nat → GenerationError → Prop}
    (hplace : ∀ place e fault, offends place e → offends place fault → e = fault)
    (h : IsFirst offends e) (hfault : IsFirst offends fault) : e = fault := by
  obtain ⟨place, hoffends, hfirst⟩ := h
  obtain ⟨other, hother, hotherFirst⟩ := hfault
  obtain rfl : place = other := by
    have hbefore := hotherFirst place e hoffends
    have hafter := hfirst other fault hother
    exact Std.Trichotomous.trichotomous place other hbefore hafter
  exact hplace place e fault hoffends hother

theorem isFirst_head (h : IsFirst (offends first) e) : IsFirst (Among offends (first :: rest)) e := by
  obtain ⟨place, hoffends, hfirst⟩ := h
  refine ⟨0 :: place, .item rfl hoffends, ?_⟩
  intro other fault hother hlex
  cases hother with
  | item hitem hother =>
      cases hlex with
      | rel hlt => exact absurd hlt (Nat.not_lt_zero _)
      | cons hlex =>
          cases hitem
          exact hfirst _ _ hother hlex

theorem isFirst_tail (hnone : ∀ place e, ¬offends first place e)
    (h : IsFirst (Among offends rest) e) : IsFirst (Among offends (first :: rest)) e := by
  obtain ⟨_, hoffends, hfirst⟩ := h
  cases hoffends with
  | @item index item place _ hitem hoffends =>
      refine ⟨(index + 1) :: place, .item hitem hoffends, ?_⟩
      intro other fault hother hlex
      cases hother with
      | @item otherIndex _ _ _ hotherItem hother =>
          cases otherIndex with
          | zero =>
              cases hotherItem
              exact hnone _ _ hother
          | succ otherIndex =>
              refine hfirst _ _ (.item hotherItem hother) ?_
              cases hlex with
              | rel hlt => exact .rel (Nat.lt_of_succ_lt_succ hlt)
              | cons hlex => exact .cons hlex

theorem not_among_cons (hfirst : ∀ place e, ¬offends first place e)
    (hrest : ∀ place e, ¬Among offends rest place e) (place : List Nat) (e : GenerationError) :
    ¬Among offends (first :: rest) place e := by
  intro h
  cases h with
  | @item index _ _ _ hitem h =>
      cases index with
      | zero =>
          cases hitem
          exact hfirst _ _ h
      | succ index => exact hrest _ _ (.item hitem h)

theorem not_among_nil (place : List Nat) (e : GenerationError) : ¬Among offends [] place e := by
  intro h
  cases h with
  | item hitem => cases hitem

end Firsts

section Draws

variable {ρ α : Type}

theorem tells_drawEach {step : α → Draw ρ (List Felt)}
    {offends : α → List Nat → GenerationError → Prop}
    (hstep : ∀ item state, Tells (offends item) (step item state).1) (items : List α) (state : ρ) :
    Tells (Among offends items) (drawEach step items state).1 := by
  induction items generalizing state with
  | nil => exact not_among_nil
  | cons item rest ih =>
      have hitem := hstep item state
      rw [drawEach]
      rcases hfront : step item state with ⟨e | front, middle⟩
      · rw [hfront] at hitem
        exact isFirst_head hitem
      · rw [hfront] at hitem
        have hrest := ih middle
        rcases hback : drawEach step rest middle with ⟨e | back, last⟩
        · rw [hback] at hrest
          simp only [hback]
          exact isFirst_tail hitem hrest
        · rw [hback] at hrest
          simp only [hback]
          exact not_among_cons hitem hrest

variable {step : Draw ρ (List Felt)} {offends : List Nat → GenerationError → Prop}

theorem drawTimes_of_none (hstep : ∀ state, Tells offends (step state).1)
    (hnone : ∀ place e, ¬offends place e) (count : Nat) (state : ρ) :
    ∃ numbers, (drawTimes step count state).1 = .ok numbers := by
  induction count generalizing state with
  | zero => exact ⟨[], rfl⟩
  | succ count ih =>
      have hstate := hstep state
      rw [drawTimes_succ]
      rcases hfront : step state with ⟨e | front, middle⟩
      · rw [hfront] at hstate
        obtain ⟨place, hoffends, -⟩ := hstate
        exact absurd hoffends (hnone place e)
      · obtain ⟨back, hback⟩ := ih middle
        rcases hrest : drawTimes step count middle with ⟨e | rest, last⟩
        · rw [hrest] at hback
          cases hback
        · simp only [hrest]
          exact ⟨_, rfl⟩

theorem tells_drawTimes (hstep : ∀ state, Tells offends (step state).1) (count : Nat) (state : ρ) :
    Tells offends (drawTimes step (count + 1) state).1 := by
  have hstate := hstep state
  rcases hfront : step state with ⟨e | front, middle⟩
  · rw [hfront] at hstate
    rw [drawTimes_succ, hfront]
    exact hstate
  · rw [hfront] at hstate
    obtain ⟨numbers, hnumbers⟩ := drawTimes_of_none hstep hstate (count + 1) state
    rw [hnumbers]
    exact hstate

end Draws

namespace Generator

variable {ρ : Type} {source : Source ρ} {g : Generator} {structs : StructTable}

theorem tells_calldataWithin (levels : Nat) (shape : Shape) (state : ρ) :
    Tells (Offends structs levels shape) (g.calldataWithin source structs levels shape state).1 := by
  induction levels generalizing shape state with
  | zero =>
      rw [calldataWithin]
      exact isFirst_root (.tooDeep .here (Nat.zero_le _))
  | succ levels ih =>
      cases shape with
      | felt =>
          rw [offends_succ (by simp)]
          exact not_among_nil
      | pointer pointee =>
          rw [offends_succ (by simp), calldataWithin]
          rcases source.length g.maximalLength state with ⟨offset, middle⟩
          have helements := tells_drawTimes (ih pointee) offset middle
          dsimp only
          rcases hdrawn : drawTimes (g.calldataWithin source structs levels pointee) (offset + 1)
            middle with ⟨e | elements, last⟩
          · rw [hdrawn] at helements
            exact isFirst_head helements
          · rw [hdrawn] at helements
            exact not_among_cons helements not_among_nil
      | tuple members =>
          rw [offends_succ (by simp)]
          exact tells_drawEach ih members state
      | struct name =>
          rw [calldataWithin]
          split
          · rename_i members hmembers
            have hknown : (Shape.struct name).children structs = members := by
              rw [Shape.children, hmembers, Option.getD_some]
            rw [offends_succ ?_, hknown]
            · exact tells_drawEach ih members state
            · rintro _ ⟨⟩
              rw [hmembers]
              exact Option.some_ne_none members
          · rename_i hname
            exact isFirst_root (.unknownStruct .here (Nat.succ_pos levels) hname)

theorem tells_calldata (source : Source ρ) (g : Generator) (structs : StructTable)
    (shapes : List Shape) (state : ρ) :
    Tells (Among (Offends structs (maximalNesting + 1)) shapes)
      (g.calldata source structs shapes state).1 :=
  tells_drawEach (tells_calldataWithin (maximalNesting + 1)) shapes state

end Generator

theorem Tells.eq_error_iff {α : Type} {offends : List Nat → GenerationError → Prop}
    (hplace : ∀ place e fault, offends place e → offends place fault → e = fault)
    {outcome : Except GenerationError α} (h : Tells offends outcome) (e : GenerationError) :
    outcome = .error e ↔ IsFirst offends e := by
  cases outcome with
  | ok value =>
      constructor
      · intro hok
        cases hok
      · rintro ⟨place, hoffends, -⟩
        exact absurd hoffends (h place e)
  | error fault =>
      constructor
      · rintro ⟨⟩
        exact h
      · intro hfirst
        rw [IsFirst.unique hplace h hfirst]

theorem Tells.eq_ok_iff {α : Type} {offends : List Nat → GenerationError → Prop}
    {outcome : Except GenerationError α} (h : Tells offends outcome) :
    (∃ value, outcome = .ok value) ↔ ∀ place e, ¬offends place e := by
  cases outcome with
  | ok value => exact ⟨fun _ => h, fun _ => ⟨value, rfl⟩⟩
  | error e =>
      obtain ⟨place, hoffends, -⟩ := h
      constructor
      · rintro ⟨value, hvalue⟩
        cases hvalue
      · intro hnone
        exact absurd hoffends (hnone place e)

theorem not_among_offends_iff {structs : StructTable} {levels : Nat} {shapes : List Shape} :
    (∀ place e, ¬Among (Offends structs (levels + 1)) shapes place e) ↔
      ∀ shape ∈ shapes, ∀ place node, LiesAt structs shape place node →
        place.length ≤ levels ∧ ∀ name, node = .struct name → structs.get? name ≠ none := by
  constructor
  · intro hnone shape hshape place node h
    obtain ⟨index, hindex⟩ := List.mem_iff_getElem?.mp hshape
    have hlevel : place.length ≤ levels := by
      by_contra hdeep
      exact hnone _ _ (.item hindex (.tooDeep h (by omega)))
    refine ⟨hlevel, ?_⟩
    rintro name rfl hname
    exact hnone _ _ (.item hindex (.unknownStruct h (by omega) hname))
  · rintro hall _ _ ⟨hitem, hoffends⟩
    have hshape := hall _ (List.mem_of_getElem? hitem)
    cases hoffends with
    | tooDeep h hdeep =>
        have hlevel := (hshape _ _ h).1
        omega
    | unknownStruct h _ hname => exact (hshape _ _ h).2 _ rfl hname

/-- Whether there is calldata for some shapes is not left to chance. There is if no place below
them is too deep and every struct is known, and otherwise any generator fails with the error of the
first place of which this does not hold. -/
theorem calldata_fails_alike {ρ σ : Type} (source : Source ρ) (other : Source σ)
    (g h : Generator) (structs : StructTable) (shapes : List Shape) (state : ρ) (start : σ) :
    ((∃ numbers, (g.calldata source structs shapes state).1 = .ok numbers) ↔
      ∀ shape ∈ shapes, ∀ place node, LiesAt structs shape place node →
        place.length ≤ maximalNesting ∧
          ∀ name, node = .struct name → structs.get? name ≠ none) ∧
    ∀ e, ((g.calldata source structs shapes state).1 = .error e ↔
        IsFirst (Among (Offends structs (maximalNesting + 1)) shapes) e) ∧
      ((g.calldata source structs shapes state).1 = .error e ↔
        (h.calldata other structs shapes start).1 = .error e) := by
  have hplace (place : List Nat) (e fault : GenerationError)
      (he : Among (Offends structs (maximalNesting + 1)) shapes place e)
      (hfault : Among (Offends structs (maximalNesting + 1)) shapes place fault) : e = fault :=
    he.unique hfault fun _ _ _ _ => Offends.unique
  have htells := Generator.tells_calldata source g structs shapes state
  have hother := Generator.tells_calldata other h structs shapes start
  refine ⟨htells.eq_ok_iff.trans not_among_offends_iff, ?_⟩
  intro e
  refine ⟨htells.eq_error_iff hplace e, ?_⟩
  rw [htells.eq_error_iff hplace e, hother.eq_error_iff hplace e]

/-- A list as a struct of its head and its tail, without an end. -/
def endless : StructTable := .ofList [("Node", [.felt, .struct "Node"])]

def zeros : Source Unit :=
  ⟨fun _ => (0, ()), fun _ _ => (0, ()), fun _ _ => (0, ()), fun _ _ => (0, ())⟩

-- The heads down to the thirty-second level are drawn before the next one is found to be too deep.
example : (Generator.calldata zeros ⟨Felt.prime, 1, by decide, by decide⟩ endless
    [.struct "Node", .struct "Tree"] ()).1 = .error (.tooDeep "felt") := by rfl

end ContractFuzz.Calldata
