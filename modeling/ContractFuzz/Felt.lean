import ContractFuzz.Text.Blank
import ContractFuzz.Text.Numeral

/-!
Field elements: the scalars of calldata, return data and events.

A felt is an unsigned integer that is read modulo the prime of the field. The type does not
reduce; whoever makes a felt decides whether it lies below the prime.
-/

namespace ContractFuzz

abbrev Felt := Nat

/-- A text that spells no felt, without the blanks around it. -/
structure FeltSyntaxError where
  literal : String
  deriving DecidableEq, Repr

namespace FeltSyntaxError

def message (e : FeltSyntaxError) : String := s!"invalid felt literal '{e.literal}'"

end FeltSyntaxError

namespace Felt

/-- The prime of the field, `2^251 + 17 * 2^192 + 1`. -/
def prime : Nat := 1 <<< 251 + 17 <<< 192 + 1

/-- The form used on the wire: `0x` and lowercase digits. -/
def toHex (x : Felt) : String := String.ofList ('0' :: 'x' :: Text.hexDigits x)

/-- The form used for readers: decimal digits. -/
def toDecimal (x : Felt) : String := String.ofList (Text.decimalDigits x)

/-- The number spelled by a text without blanks around it: hexadecimal after `0x`, otherwise
decimal. -/
def ofDigits? : List Char → Option Felt
  | '0' :: 'x' :: digits => Text.numeral? 16 digits
  | '0' :: 'X' :: digits => Text.numeral? 16 digits
  | digits => Text.numeral? 10 digits

/-- Read a felt literal, ignoring blanks at both ends. -/
def parse (s : String) : Except FeltSyntaxError Felt :=
  let literal := Text.trim s
  match ofDigits? literal.toList with
  | some x => .ok x
  | none => .error ⟨literal⟩

/-- `[a, b, c]` in decimal. -/
def formatList (xs : List Felt) : String :=
  let items := ", ".intercalate (xs.map toDecimal)
  s!"[{items}]"

end Felt

end ContractFuzz
