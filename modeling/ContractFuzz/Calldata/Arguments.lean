import ContractFuzz.Calldata.Parser

namespace ContractFuzz.Calldata

/-- An input whose type has been read. -/
structure TypedInput where
  name : String
  shape : Shape
  deriving Inhabited

/-- Whether an input is the length that an array input needs in front of it. -/
def TypedInput.isLengthOf (candidate : TypedInput) (array : Abi.Member) : Bool :=
  candidate.name == array.name ++ "_len" && candidate.shape.isFelt

/-- Add an input to the inputs lowered before it, the last of them first. A pointer takes the
place of the length in front of it. -/
def lowerInput (lowered : List TypedInput) (input : Abi.Member) :
    Except TypeError (List TypedInput) :=
  match Shape.parse input.typeText with
  | .error e => .error e
  | .ok shape =>
      if shape.isPointer then
        match lowered with
        | length :: before =>
            if length.isLengthOf input then .ok (⟨input.name, shape⟩ :: before)
            else .error ⟨input.typeText, .lengthMissing input.name⟩
        | [] => .error ⟨input.typeText, .lengthMissing input.name⟩
      else .ok (⟨input.name, shape⟩ :: lowered)

/-- Lower inputs one after another. -/
def lowerInputs (lowered : List TypedInput) : List Abi.Member → Except TypeError (List TypedInput)
  | [] => .ok lowered
  | input :: rest =>
      match lowerInput lowered input with
      | .ok lowered => lowerInputs lowered rest
      | .error e => .error e

/-- The argument shapes of a function with these inputs. -/
def parseArguments (inputs : List Abi.Member) : Except TypeError (List Shape) :=
  match lowerInputs [] inputs with
  | .ok lowered => .ok (lowered.reverse.map TypedInput.shape)
  | .error e => .error e

end ContractFuzz.Calldata
