namespace ContractFuzz

/-- The number `digits * 10 ^ exponent`, with a sign that zero can have too. -/
structure Decimal where
  negative : Bool
  digits : Nat
  exponent : Int
  deriving DecidableEq, Repr, Inhabited

namespace Decimal

/-- The distance of the doubles around a natural number: they have 53 binary digits. -/
def spacing (n : Nat) : Nat := Nat.pow 2 (n.log2 - 52)

/-- The double nearest to a natural number, of two the one whose last binary digit is even. The
size of a double has no bound here. -/
def nearest (n : Nat) : Nat :=
  let unit := spacing n
  let below := n / unit
  let excess := 2 * (n % unit)
  if excess < unit || (excess = unit && below % 2 = 0) then below * unit else (below + 1) * unit

/-- The least number that rounds to no double of bounded size: half a unit above the largest. -/
def overflow : Nat := 1 <<< 1024 - 1 <<< 970

/-- The largest power of ten that is multiplied in one step. -/
def maximalExponent : Nat := 308

/-- Whether there is a double for the number. It is the product of two doubles, the one nearest to
the digits and the one nearest to the power of ten, so that a number close to the bound may be
refused although it lies below. -/
def isFinite (d : Decimal) : Bool :=
  d.digits = 0 || d.exponent < 0 ||
    (d.exponent ≤ maximalExponent &&
      nearest d.digits * nearest (Nat.pow 10 d.exponent.toNat) < overflow)

end Decimal

end ContractFuzz
