namespace ContractFuzz.Text

/-- The code points of the Unicode property White_Space, as closed ranges. -/
def blankRanges : List (Nat × Nat) :=
  [(0x9, 0xD), (0x20, 0x20), (0x85, 0x85), (0xA0, 0xA0), (0x1680, 0x1680), (0x2000, 0x200A),
    (0x2028, 0x2029), (0x202F, 0x202F), (0x205F, 0x205F), (0x3000, 0x3000)]

def isBlank (c : Char) : Bool :=
  blankRanges.any fun range => range.1 ≤ c.toNat && c.toNat ≤ range.2

theorem isBlank_of_isWhitespace {c : Char} (h : c.isWhitespace = true) : isBlank c = true := by
  simp only [Char.isWhitespace, Bool.or_eq_true, decide_eq_true_eq] at h
  rcases h with ((rfl | rfl) | rfl) | rfl <;> decide

/-- Drop the blank characters at the front. -/
def skipBlank : List Char → List Char := List.dropWhile isBlank

/-- Drop the blank characters at the end. -/
def trimRight (s : String) : String :=
  String.ofList (skipBlank s.toList.reverse).reverse

/-- Drop the blank characters at both ends. -/
def trim (s : String) : String :=
  String.ofList (skipBlank (skipBlank s.toList).reverse).reverse

end ContractFuzz.Text
