namespace ContractFuzz.Text

/-- The value of a digit of radix at most 36, letters in either case. -/
def digitValue? (c : Char) : Option Nat :=
  if '0' ≤ c ∧ c ≤ '9' then some (c.toNat - '0'.toNat)
  else if 'a' ≤ c ∧ c ≤ 'z' then some (c.toNat - 'a'.toNat + 10)
  else if 'A' ≤ c ∧ c ≤ 'Z' then some (c.toNat - 'A'.toNat + 10)
  else none

/-- Continue a number with the digits that follow, leaving underscores out. -/
def continueNumeral? (radix : Nat) : Nat → List Char → Option Nat
  | value, [] => some value
  | value, '_' :: rest => continueNumeral? radix value rest
  | value, c :: rest =>
      match digitValue? c with
      | some digit =>
          if digit < radix then continueNumeral? radix (value * radix + digit) rest else none
      | none => none

/-- Drop one leading `+`, unless another follows it. -/
def dropPlus : List Char → List Char
  | '+' :: '+' :: rest => '+' :: '+' :: rest
  | '+' :: rest => rest
  | s => s

/-- The number a text spells in a radix. A numeral has a first character, and it is not an
underscore. -/
def numeral? (radix : Nat) (s : List Char) : Option Nat :=
  match dropPlus s with
  | [] => none
  | '_' :: _ => none
  | digits => continueNumeral? radix 0 digits

/-- Lowercase hexadecimal digits without leading zeros. -/
def hexDigits (n : Nat) : List Char := Nat.toDigits 16 n

/-- Decimal digits without leading zeros. -/
def decimalDigits (n : Nat) : List Char := Nat.toDigits 10 n

/-- One past the largest number a machine word of 64 bits holds. -/
def wordBound : Nat := 1 <<< 64

/-- A decimal number of a machine word: digits after at most one `+`. -/
def word? (s : List Char) : Option Nat :=
  let digits := match s with
    | '+' :: rest => rest
    | _ => s
  if digits.isEmpty || digits.any (fun c => !c.isDigit) then none
  else
    match continueNumeral? 10 0 digits with
    | some n => if n < wordBound then some n else none
    | none => none

end ContractFuzz.Text
