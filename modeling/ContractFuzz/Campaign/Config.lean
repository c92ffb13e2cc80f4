import ContractFuzz.Campaign.CallGenerator
import ContractFuzz.Campaign.Oracle

namespace ContractFuzz

structure Config where
  /-- Calls in each sequence. -/
  sequenceLength : Nat := 10
  /-- Senders of calls, each with the same chance. -/
  senders : List Felt := [0, 1, 2]
  /-- The sender of property queries. -/
  propertySender : Felt := 1
  /-- Functions never called, beside those that never are. -/
  blacklist : SortedSet String := .empty
  /-- Shorten violating sequences before they are reported. -/
  shrink : Bool := true
  mode : OracleMode := .property
  seed : Nat := 0
  /-- Stop after so many iterations, even if obligations remain. -/
  maxIterations : Option Nat := none
  propertyPrefix : String := "tayt_"
  modulus : Nat := Felt.prime
  maxArrayLength : Nat := 10
  nonceRange : Nat × Nat := defaultNonceRange

namespace Config

/-- All functions that are never called. -/
def effectiveBlacklist (config : Config) : SortedSet String :=
  alwaysBlacklisted.foldl SortedSet.insert config.blacklist

def schemaOptions (config : Config) : SchemaOptions :=
  ⟨config.propertyPrefix, config.effectiveBlacklist⟩

end Config

end ContractFuzz
