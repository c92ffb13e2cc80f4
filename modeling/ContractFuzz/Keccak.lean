/-!
The hash Keccak-256: a sponge over the permutation Keccak-f[1600], with a rate of 136 octets and
the padding that starts with a one bit alone.
-/

namespace ContractFuzz.Keccak

abbrev Lane := UInt64

/-- Five lanes that share a row index. -/
structure Plane where
  l0 : Lane
  l1 : Lane
  l2 : Lane
  l3 : Lane
  l4 : Lane
  deriving Inhabited

/-- The 25 lanes of the permutation, as five planes. -/
structure State where
  p0 : Plane
  p1 : Plane
  p2 : Plane
  p3 : Plane
  p4 : Plane
  deriving Inhabited

def rotate (x : Lane) (n : UInt64) : Lane := (x <<< n) ||| (x >>> (64 - n))

namespace Plane

def zero : Plane := ⟨0, 0, 0, 0, 0⟩

def xor (a b : Plane) : Plane :=
  ⟨a.l0 ^^^ b.l0, a.l1 ^^^ b.l1, a.l2 ^^^ b.l2, a.l3 ^^^ b.l3, a.l4 ^^^ b.l4⟩

/-- The nonlinear step on one row of lanes. -/
def chi (a : Plane) : Plane :=
  ⟨a.l0 ^^^ (~~~a.l1 &&& a.l2), a.l1 ^^^ (~~~a.l2 &&& a.l3), a.l2 ^^^ (~~~a.l3 &&& a.l4),
    a.l3 ^^^ (~~~a.l4 &&& a.l0), a.l4 ^^^ (~~~a.l0 &&& a.l1)⟩

end Plane

namespace State

def zero : State := ⟨.zero, .zero, .zero, .zero, .zero⟩

/-- Add to every lane the parities of the two columns next to its own. -/
def theta (s : State) : State :=
  let c := s.p0.xor (s.p1.xor (s.p2.xor (s.p3.xor s.p4)))
  let d : Plane := ⟨c.l4 ^^^ rotate c.l1 1, c.l0 ^^^ rotate c.l2 1, c.l1 ^^^ rotate c.l3 1,
    c.l2 ^^^ rotate c.l4 1, c.l3 ^^^ rotate c.l0 1⟩
  ⟨s.p0.xor d, s.p1.xor d, s.p2.xor d, s.p3.xor d, s.p4.xor d⟩

/-- Rotate the lanes by their offsets and move them to their places. -/
def rhoPi (s : State) : State :=
  ⟨⟨s.p0.l0, rotate s.p1.l1 44, rotate s.p2.l2 43, rotate s.p3.l3 21, rotate s.p4.l4 14⟩,
    ⟨rotate s.p0.l3 28, rotate s.p1.l4 20, rotate s.p2.l0 3, rotate s.p3.l1 45,
      rotate s.p4.l2 61⟩,
    ⟨rotate s.p0.l1 1, rotate s.p1.l2 6, rotate s.p2.l3 25, rotate s.p3.l4 8,
      rotate s.p4.l0 18⟩,
    ⟨rotate s.p0.l4 27, rotate s.p1.l0 36, rotate s.p2.l1 10, rotate s.p3.l2 15,
      rotate s.p4.l3 56⟩,
    ⟨rotate s.p0.l2 62, rotate s.p1.l3 55, rotate s.p2.l4 39, rotate s.p3.l0 41,
      rotate s.p4.l1 2⟩⟩

def chi (s : State) : State := ⟨s.p0.chi, s.p1.chi, s.p2.chi, s.p3.chi, s.p4.chi⟩

/-- Add a round constant to the first lane. -/
def iota (constant : Lane) (s : State) : State :=
  { s with p0 := { s.p0 with l0 := s.p0.l0 ^^^ constant } }

def round (s : State) (constant : Lane) : State := s.theta.rhoPi.chi.iota constant

def roundConstants : List Lane :=
  [0x0000000000000001, 0x0000000000008082, 0x800000000000808A, 0x8000000080008000,
    0x000000000000808B, 0x0000000080000001, 0x8000000080008081, 0x8000000000008009,
    0x000000000000008A, 0x0000000000000088, 0x0000000080008009, 0x000000008000000A,
    0x000000008000808B, 0x800000000000008B, 0x8000000000008089, 0x8000000000008003,
    0x8000000000008002, 0x8000000000000080, 0x000000000000800A, 0x800000008000000A,
    0x8000000080008081, 0x8000000000008080, 0x0000000080000001, 0x8000000080008008]

/-- The permutation Keccak-f[1600]. -/
def permute (s : State) : State := roundConstants.foldl round s

end State

/-- The number of octets that one block feeds into the sponge. -/
def rate : Nat := 136

/-- A message with its padding: a one bit, zeros, and a one bit at the end of the last block. -/
def pad (message : List UInt8) : List UInt8 :=
  let missing := rate - message.length % rate
  if missing = 1 then message ++ [0x81]
  else message ++ 0x01 :: (List.replicate (missing - 2) 0x00 ++ [0x80])

/-- The lane of octets, least significant first. -/
def laneOf (octets : List UInt8) : Lane :=
  octets.foldr (fun octet lane => (lane <<< 8) ||| octet.toUInt64) 0

/-- The lanes of a block, in order; lanes beyond the block are zero. -/
def laneAt (block : List UInt8) (index : Nat) : Lane := laneOf ((block.drop (8 * index)).take 8)

/-- The state that a block is added to. -/
def ofBlock (block : List UInt8) : State :=
  let lane := laneAt block
  ⟨⟨lane 0, lane 1, lane 2, lane 3, lane 4⟩, ⟨lane 5, lane 6, lane 7, lane 8, lane 9⟩,
    ⟨lane 10, lane 11, lane 12, lane 13, lane 14⟩, ⟨lane 15, lane 16, 0, 0, 0⟩, .zero⟩

def absorb (s : State) (block : List UInt8) : State :=
  let b := ofBlock block
  State.permute
    ⟨s.p0.xor b.p0, s.p1.xor b.p1, s.p2.xor b.p2, s.p3.xor b.p3, s.p4.xor b.p4⟩

/-- Absorb the blocks of a padded message, of which there are `count`. -/
def absorbBlocks (s : State) (count : Nat) (octets : List UInt8) : State :=
  match count with
  | 0 => s
  | count + 1 => absorbBlocks (absorb s (octets.take rate)) count (octets.drop rate)

/-- The octets of a lane, least significant first. -/
def octetsOf (lane : Lane) : List UInt8 :=
  (List.range 8).map fun i => (lane >>> (8 * i).toUInt64).toUInt8

/-- The digest of a message: the first 32 octets of the sponge. -/
def hash256 (message : List UInt8) : List UInt8 :=
  let padded := pad message
  let p := (absorbBlocks .zero (padded.length / rate) padded).p0
  octetsOf p.l0 ++ octetsOf p.l1 ++ octetsOf p.l2 ++ octetsOf p.l3

end ContractFuzz.Keccak
