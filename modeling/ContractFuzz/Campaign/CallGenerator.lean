import ContractFuzz.Calldata.Generator
import ContractFuzz.Campaign.Finding

namespace ContractFuzz

open ContractFuzz.Calldata
open ContractFuzz.Random

structure CallGenerator (ρ : Type) where
  source : Source ρ
  values : Generator
  senders : List Felt
  /-- The lowest and the highest nonce. -/
  nonceRange : Nat × Nat
  senders_ne_nil : senders ≠ []

/-- The default range of nonces. -/
def defaultNonceRange : Nat × Nat := (1 <<< 128, 1 <<< 250)

namespace CallGenerator

variable {ρ : Type}

def make (source : Source ρ) (values : Generator) (senders : List Felt) (nonceRange : Nat × Nat) :
    Except GenerationError (CallGenerator ρ) :=
  if h : senders ≠ [] then .ok ⟨source, values, senders, nonceRange, h⟩
  else .error .emptySenderPool

/-- One element of a list, each with the same chance. -/
def pick {α : Type} (source : Source ρ) (failure : GenerationError) (xs : List α) : Draw ρ α :=
  fun state =>
    if xs.isEmpty then (.error failure, state)
    else
      let (i, state) := source.index xs.length state
      match xs[i]? with
      | some x => (.ok x, state)
      | none => (.error failure, state)

/-- The nonce of a call through an entry point. -/
def nonce (g : CallGenerator ρ) (entryPoint : EntryPoint) (state : ρ) : Option Felt × ρ :=
  match entryPoint with
  | .l1Handler =>
      let (nonce, state) := feltBetween g.source g.nonceRange.1 g.nonceRange.2 state
      (some nonce, state)
  | _ => (none, state)

/-- A call of one of the functions. -/
def call (g : CallGenerator ρ) (functions : List Callable) (structs : StructTable) : Draw ρ Call :=
  fun state =>
    match pick g.source .emptySenderPool g.senders state with
    | (.error e, state) => (.error e, state)
    | (.ok sender, state) =>
        match pick g.source .emptyFunctionList functions state with
        | (.error e, state) => (.error e, state)
        | (.ok function, state) =>
            match g.values.calldata g.source structs function.arguments state with
            | (.error e, state) => (.error e, state)
            | (.ok arguments, state) =>
                let (nonce, state) := g.nonce function.entryPoint state
                (.ok ⟨sender, function.name, arguments, function.entryPoint, nonce⟩, state)

end CallGenerator

end ContractFuzz
