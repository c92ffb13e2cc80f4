/-!
UTF-8 octet sequences that need not be well formed. Every maximal run of octets that starts a
character but does not complete it is read as one replacement character.
-/

namespace ContractFuzz.Text

/-- U+FFFD, which stands for octets that encode no character. -/
def replacement : Char := '\uFFFD'

/-- How many octets follow a lead octet, and the range of the first of them. An octet that
leads no character of several octets has none. -/
def continuation? (lead : UInt8) : Option (Nat × UInt8 × UInt8) :=
  if 0xC2 ≤ lead ∧ lead ≤ 0xDF then some (1, 0x80, 0xBF)
  else if lead = 0xE0 then some (2, 0xA0, 0xBF)
  else if lead = 0xED then some (2, 0x80, 0x9F)
  else if 0xE1 ≤ lead ∧ lead ≤ 0xEF then some (2, 0x80, 0xBF)
  else if lead = 0xF0 then some (3, 0x90, 0xBF)
  else if 0xF1 ≤ lead ∧ lead ≤ 0xF3 then some (3, 0x80, 0xBF)
  else if lead = 0xF4 then some (3, 0x80, 0x8F)
  else none

/-- The bits of a lead octet that belong to the character, when `count` octets follow. -/
def leadBits (lead : UInt8) (count : Nat) : Nat :=
  match count with
  | 1 => lead.toNat % 32
  | 2 => lead.toNat % 16
  | _ => lead.toNat % 8

/-- The state between two octets: what a started character has so far, how many octets it
still needs, and the range the next one must lie in. -/
inductive Decoding where
  | between
  | within (value : Nat) (owed : Nat) (low high : UInt8)

/-- Start a character with an octet. -/
def startCharacter (octet : UInt8) : List Char × Decoding :=
  if octet < 0x80 then ([Char.ofNat octet.toNat], .between)
  else
    match continuation? octet with
    | some (count, low, high) => ([], .within (leadBits octet count) count low high)
    | none => ([replacement], .between)

/-- Read one octet: the characters it settles, and the state after it. -/
def Decoding.next (octet : UInt8) : Decoding → List Char × Decoding
  | .between => startCharacter octet
  | .within value owed low high =>
      if low ≤ octet ∧ octet ≤ high then
        let value' := value * 64 + octet.toNat % 64
        if owed ≤ 1 then ([Char.ofNat value'], .between)
        else ([], .within value' (owed - 1) 0x80 0xBF)
      else
        let (chars, state) := startCharacter octet
        (replacement :: chars, state)

/-- Read octets from a state to their end. -/
def decodeFrom : Decoding → List UInt8 → List Char
  | .between, [] => []
  | .within .., [] => [replacement]
  | state, octet :: rest =>
      let (chars, state') := state.next octet
      chars ++ decodeFrom state' rest

/-- The text of an octet sequence, with replacement characters where it is ill formed. -/
def decodeLossy (octets : ByteArray) : String :=
  String.ofList (decodeFrom .between octets.toList)

end ContractFuzz.Text
