import ContractFuzz.Felt
import ContractFuzz.Keccak

namespace ContractFuzz.Abi

/-- The number of octets, most significant first. -/
def bigEndian (octets : List UInt8) : Nat :=
  octets.foldl (fun n octet => n * 256 + octet.toNat) 0

/-- The low 250 bits of the Keccak-256 digest of a name. -/
def selectorOf (name : String) : Felt :=
  bigEndian (Keccak.hash256 name.toUTF8.toList) % (1 <<< 250)

theorem selectorOf_lt (name : String) : selectorOf name < 1 <<< 250 :=
  Nat.mod_lt _ (by decide)

end ContractFuzz.Abi
