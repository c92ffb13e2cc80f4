import ContractFuzz.Text.Numeral

namespace ContractFuzz.Text

/-- The control characters of ASCII that a terminal takes as orders: bell, backspace, form feed,
escape and delete. -/
def terminalOrders : List Nat := [0x07, 0x08, 0x0C, 0x1B, 0x7F]

/-- Whether a character is one of the control characters beyond ASCII. -/
def isHighControl (c : Char) : Bool := 0x80 ≤ c.toNat && c.toNat ≤ 0x9F

/-- A character as it is shown: an order with two digits after `\x`, a control character beyond
ASCII with its digits in braces after `\u`. -/
def shownChar (c : Char) : List Char :=
  if terminalOrders.contains c.toNat then
    let digits := hexDigits c.toNat
    '\\' :: 'x' :: (List.replicate (2 - digits.length) '0' ++ digits)
  else if isHighControl c then '\\' :: 'u' :: '\x7b' :: (hexDigits c.toNat ++ ['\x7d'])
  else [c]

/-- A text as it is shown. -/
def shown (s : String) : String := String.ofList (s.toList.flatMap shownChar)

end ContractFuzz.Text
