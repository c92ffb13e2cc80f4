import ContractFuzz.Calldata.Arguments
import Mathlib.Data.List.Forall2
import Mathlib.Data.List.Induction

namespace ContractFuzz

open Calldata (Shape)

/-- Whether the type of an input reads as a pointer. -/
def Abi.Member.isArray (input : Abi.Member) : Bool :=
  match Shape.parse input.typeText with
  | .ok shape => shape.isPointer
  | .error _ => false

/-- An input is the length that an array needs: it is named after the array, and its type reads as
one felt. -/
structure Abi.Member.MeasuresArray (length array : Abi.Member) : Prop where
  name : length.name = array.name ++ "_len"
  felt : Shape.parse length.typeText = .ok .felt

namespace Calldata

/-- Inputs whose types all read, with its length right in front of every array. -/
structure Lowerable (inputs : List Abi.Member) : Prop where
  reads : ∀ input ∈ inputs, ∃ shape, Shape.parse input.typeText = .ok shape
  measured : ∀ before input after, inputs = before ++ input :: after → input.isArray = true →
    ∃ earlier length, before = earlier ++ [length] ∧ length.MeasuresArray input

/-- The inputs that no array comes right after. -/
def notBeforeArrays : List Abi.Member → List Abi.Member
  | [] => []
  | input :: rest =>
      if rest.head?.any Abi.Member.isArray then notBeforeArrays rest
      else input :: notBeforeArrays rest

/-- An input has been read as it stands in the interface. -/
structure Reads (input : Abi.Member) (typed : TypedInput) : Prop where
  name : typed.name = input.name
  shape : Shape.parse input.typeText = .ok typed.shape

/-- What lowering holds after some inputs, the last of them first. -/
structure Lowers (inputs : List Abi.Member) (lowered : List TypedInput) : Prop where
  lowerable : Lowerable inputs
  reads : List.Forall₂ Reads (notBeforeArrays inputs).reverse lowered
  length : lowered.length + inputs.countP Abi.Member.isArray = inputs.length

variable {inputs : List Abi.Member} {input : Abi.Member} {shape : Shape}
  {lowered : List TypedInput}

theorem isArray_of_parse (h : Shape.parse input.typeText = .ok shape) :
    input.isArray = shape.isPointer := by
  rw [Abi.Member.isArray, h]

theorem Shape.eq_felt_of_isFelt (h : shape.isFelt = true) : shape = .felt := by
  cases shape with
  | felt => rfl
  | pointer | tuple | struct => cases h

theorem Reads.isLengthOf_iff {length : Abi.Member} {typed : TypedInput} (h : Reads length typed)
    (array : Abi.Member) : typed.isLengthOf array = true ↔ length.MeasuresArray array := by
  rw [TypedInput.isLengthOf, Bool.and_eq_true, beq_iff_eq, h.name]
  constructor
  · rintro ⟨hname, hfelt⟩
    refine ⟨hname, ?_⟩
    rw [h.shape, Shape.eq_felt_of_isFelt hfelt]
  · rintro ⟨hname, hfelt⟩
    rw [h.shape] at hfelt
    rw [Except.ok.inj hfelt]
    exact ⟨hname, rfl⟩

theorem lowerable_nil : Lowerable [] where
  reads _ h := absurd h List.not_mem_nil
  measured before _ _ h := by simp at h

theorem lowerable_concat_iff : Lowerable (inputs ++ [input]) ↔
    Lowerable inputs ∧ (∃ shape, Shape.parse input.typeText = .ok shape) ∧
      (input.isArray = true →
        ∃ earlier length, inputs = earlier ++ [length] ∧ length.MeasuresArray input) := by
  constructor
  · rintro ⟨hreads, hmeasured⟩
    refine ⟨⟨?_, ?_⟩, hreads input (by simp), hmeasured inputs input [] rfl⟩
    · intro other hother
      exact hreads other (List.mem_append_left _ hother)
    · intro before other after hinputs
      exact hmeasured before other (after ++ [input]) (by simp [hinputs])
  · rintro ⟨⟨hreads, hmeasured⟩, hlast, hlength⟩
    refine ⟨?_, ?_⟩
    · intro other hother
      rcases List.mem_append.mp hother with hother | hother
      · exact hreads other hother
      · rwa [List.mem_singleton.mp hother]
    · intro before other after hinputs harray
      rcases List.eq_nil_or_concat' after with rfl | ⟨between, last, rfl⟩
      · obtain ⟨rfl, hsame⟩ := List.append_inj' hinputs rfl
        obtain rfl := List.singleton_inj.mp hsame
        exact hlength harray
      · rw [← List.cons_append, ← List.append_assoc] at hinputs
        obtain ⟨hinputs, -⟩ := List.append_inj' hinputs rfl
        exact hmeasured before other between hinputs harray

theorem notBeforeArrays_ne_nil (h : inputs ≠ []) : notBeforeArrays inputs ≠ [] := by
  induction inputs with
  | nil => exact absurd rfl h
  | cons first rest ih =>
      rw [notBeforeArrays]
      split
      · rename_i harray
        apply ih
        rintro rfl
        cases harray
      · exact List.cons_ne_nil _ _

theorem notBeforeArrays_concat (inputs : List Abi.Member) (input : Abi.Member) :
    notBeforeArrays (inputs ++ [input]) =
      (if input.isArray then (notBeforeArrays inputs).dropLast else notBeforeArrays inputs) ++
        [input] := by
  induction inputs with
  | nil => simp [notBeforeArrays]
  | cons first rest ih =>
      rw [List.cons_append, notBeforeArrays, ih, notBeforeArrays]
      cases rest with
      | nil => cases harray : input.isArray <;> simp [notBeforeArrays, harray]
      | cons second others =>
          have hkept := notBeforeArrays_ne_nil (List.cons_ne_nil second others)
          rw [List.cons_append, List.head?_cons, List.head?_cons]
          split
          · rfl
          · split
            · rw [List.dropLast_cons_of_ne_nil hkept]
              rfl
            · rfl

theorem lowers_nil : Lowers [] [] := ⟨lowerable_nil, .nil, rfl⟩

theorem Lowers.eq_cons {earlier : List Abi.Member} {last : Abi.Member}
    (h : Lowers (earlier ++ [last]) lowered) :
    ∃ typed before, lowered = typed :: before ∧ Reads last typed ∧
      List.Forall₂ Reads (notBeforeArrays (earlier ++ [last])).dropLast.reverse before := by
  have hreads := h.reads
  rw [notBeforeArrays_concat, List.reverse_concat] at hreads
  obtain ⟨typed, before, htyped, hbefore, rfl⟩ := List.forall₂_cons_left_iff.mp hreads
  refine ⟨typed, before, rfl, htyped, ?_⟩
  rwa [notBeforeArrays_concat, List.dropLast_concat]

/-- An outcome of lowering settles whether the inputs are lowerable. -/
def Settles (inputs : List Abi.Member) : Except TypeError (List TypedInput) → Prop
  | .ok lowered => Lowers inputs lowered
  | .error _ => ¬Lowerable inputs

theorem Lowers.push (h : Lowers inputs lowered) (hread : Shape.parse input.typeText = .ok shape)
    (hplain : input.isArray = false) :
    Lowers (inputs ++ [input]) (⟨input.name, shape⟩ :: lowered) where
  lowerable := by
    refine lowerable_concat_iff.mpr ⟨h.lowerable, ⟨shape, hread⟩, ?_⟩
    rw [hplain]
    exact fun harray => absurd harray Bool.false_ne_true
  reads := by
    rw [notBeforeArrays_concat, hplain, if_neg Bool.false_ne_true, List.reverse_concat]
    exact .cons ⟨rfl, hread⟩ h.reads
  length := by
    have hlength := h.length
    rw [List.length_cons, List.countP_append, List.countP_singleton, hplain,
      if_neg Bool.false_ne_true, List.length_append, List.length_singleton]
    omega

theorem Lowers.absorb {earlier : List Abi.Member} {length : Abi.Member} {typed : TypedInput}
    {before : List TypedInput} (h : Lowers (earlier ++ [length]) (typed :: before))
    (hread : Shape.parse input.typeText = .ok shape) (harray : input.isArray = true)
    (hmeasures : length.MeasuresArray input) :
    Lowers (earlier ++ [length] ++ [input]) (⟨input.name, shape⟩ :: before) where
  lowerable := lowerable_concat_iff.mpr
    ⟨h.lowerable, ⟨shape, hread⟩, fun _ => ⟨earlier, length, rfl, hmeasures⟩⟩
  reads := by
    obtain ⟨_, _, hsame, -, hbefore⟩ := h.eq_cons
    obtain ⟨rfl, rfl⟩ := List.cons.inj hsame
    rw [notBeforeArrays_concat, if_pos harray, List.reverse_concat]
    exact .cons ⟨rfl, hread⟩ hbefore
  length := by
    have hlength := h.length
    rw [List.length_cons] at hlength
    rw [List.length_cons, List.countP_append, List.countP_singleton, if_pos harray,
      List.length_append, List.length_singleton]
    omega

theorem settles_lowerInput (h : Lowers inputs lowered) (input : Abi.Member) :
    Settles (inputs ++ [input]) (lowerInput lowered input) := by
  rw [lowerInput]
  rcases hread : Shape.parse input.typeText with e | shape
  · intro hlowerable
    obtain ⟨-, ⟨shape, hshape⟩, -⟩ := lowerable_concat_iff.mp hlowerable
    rw [hread] at hshape
    cases hshape
  have harray := isArray_of_parse hread
  dsimp only
  split
  · rename_i hpointer
    rw [hpointer] at harray
    rcases List.eq_nil_or_concat' inputs with rfl | ⟨earlier, last, rfl⟩
    · obtain ⟨_, hreads, _⟩ := h
      cases hreads
      intro hlowerable
      obtain ⟨earlier, length, hnil, -⟩ := (lowerable_concat_iff.mp hlowerable).2.2 harray
      simp at hnil
    · obtain ⟨typed, before, rfl, htyped, -⟩ := h.eq_cons
      dsimp only
      split
      · rename_i hlength
        exact h.absorb hread harray ((htyped.isLengthOf_iff input).mp hlength)
      · rename_i hlength
        intro hlowerable
        obtain ⟨_, length, hlast, hmeasures⟩ := (lowerable_concat_iff.mp hlowerable).2.2 harray
        obtain ⟨-, hsame⟩ := List.append_inj' hlast rfl
        obtain rfl := List.singleton_inj.mp hsame
        exact hlength ((htyped.isLengthOf_iff input).mpr hmeasures)
  · rename_i hpointer
    rw [eq_false_of_ne_true hpointer] at harray
    exact h.push hread harray

theorem lowerInputs_append (lowered : List TypedInput) (earlier later : List Abi.Member) :
    lowerInputs lowered (earlier ++ later) =
      (lowerInputs lowered earlier).bind (lowerInputs · later) := by
  induction earlier generalizing lowered with
  | nil => rfl
  | cons input rest ih =>
      rw [List.cons_append, lowerInputs, lowerInputs]
      split
      · exact ih _
      · rfl

theorem settles_lowerInputs (inputs : List Abi.Member) :
    Settles inputs (lowerInputs [] inputs) := by
  induction inputs using List.reverseRecOn with
  | nil => exact lowers_nil
  | append_singleton inputs input ih =>
      rw [lowerInputs_append]
      rcases hbefore : lowerInputs [] inputs with e | lowered
      · rw [hbefore] at ih
        exact fun hlowerable => ih (lowerable_concat_iff.mp hlowerable).1
      · rw [hbefore] at ih
        have hinput := settles_lowerInput ih input
        change Settles _ (lowerInputs lowered [input])
        rw [lowerInputs]
        rcases hnext : lowerInput lowered input with e | next
        · rw [hnext] at hinput
          exact hinput
        · rw [hnext] at hinput
          exact hinput

/-- Lowering succeeds for just the inputs whose types all read and that have, right in front of
every array, its length. What it makes of them are the types of the inputs that no array comes right
after, in order, so that there is one argument less than there are inputs for every array. -/
theorem parseArguments_lowers (inputs : List Abi.Member) :
    ((∃ arguments, parseArguments inputs = .ok arguments) ↔ Lowerable inputs) ∧
      ∀ arguments, parseArguments inputs = .ok arguments →
        List.Forall₂ (fun input argument => Shape.parse input.typeText = .ok argument)
            (notBeforeArrays inputs) arguments ∧
          arguments.length + inputs.countP Abi.Member.isArray = inputs.length := by
  have hsettles := settles_lowerInputs inputs
  rw [parseArguments]
  rcases hlowered : lowerInputs [] inputs with e | lowered
  all_goals rw [hlowered] at hsettles
  · refine ⟨⟨?_, fun hlowerable => absurd hlowerable hsettles⟩, ?_⟩
    · rintro ⟨arguments, harguments⟩
      cases harguments
    · intro arguments harguments
      cases harguments
  · obtain ⟨hlowerable, hreads, hlength⟩ := hsettles
    refine ⟨⟨fun _ => hlowerable, fun _ => ⟨_, rfl⟩⟩, ?_⟩
    rintro _ ⟨⟩
    rw [← List.forall₂_reverse_iff, List.reverse_reverse] at hreads
    refine ⟨List.forall₂_map_right_iff.mpr (hreads.imp fun _ _ hread => hread.shape), ?_⟩
    rwa [List.length_map, List.length_reverse]

-- A length may have a name that makes it look like an array with a length of its own.
example : parseArguments [⟨"a_len_len", "felt", none⟩, ⟨"a_len", "felt", none⟩,
    ⟨"a", "felt*", none⟩] = .ok [.felt, .pointer .felt] := by rfl

end Calldata

end ContractFuzz
