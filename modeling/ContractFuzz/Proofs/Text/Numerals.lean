import ContractFuzz.Felt

namespace ContractFuzz

namespace Text

variable {radix n : Nat} {c : Char}

/-- The characters that numbers are written with. -/
def IsDigitOf (radix : Nat) (c : Char) : Prop := ∃ digit < radix, c = digit.digitChar

theorem isDigitOf_of_mem (hradix : 1 < radix) (hc : c ∈ Nat.toDigits radix n) :
    IsDigitOf radix c := by
  induction n using Nat.strongRecOn with
  | ind n ih =>
      by_cases hsmall : n < radix
      · rw [Nat.toDigits_of_lt_base hsmall] at hc
        exact ⟨n, hsmall, List.mem_singleton.mp hc⟩
      · rw [Nat.toDigits_of_base_le hradix (Nat.not_lt.mp hsmall), List.mem_append] at hc
        rcases hc with hc | hc
        · exact ih (n / radix) (Nat.div_lt_self (by omega) hradix) hc
        · exact ⟨n % radix, Nat.mod_lt n (by omega), List.mem_singleton.mp hc⟩

theorem IsDigitOf.plain (hradix : radix ≤ 16) (h : IsDigitOf radix c) :
    c ≠ '+' ∧ c ≠ '_' ∧ isBlank c = false := by
  obtain ⟨digit, hdigit, rfl⟩ := h
  have hplain : ∀ digit < 16, Nat.digitChar digit ≠ '+' ∧ Nat.digitChar digit ≠ '_' ∧
      isBlank (Nat.digitChar digit) = false := by decide
  exact hplain digit (by omega)

theorem continueNumeral?_digit {digit value : Nat} (hradix : radix ≤ 16) (hdigit : digit < radix)
    (rest : List Char) :
    continueNumeral? radix value (digit.digitChar :: rest) =
      continueNumeral? radix (value * radix + digit) rest := by
  obtain ⟨-, hunderscore, -⟩ := IsDigitOf.plain hradix ⟨digit, hdigit, rfl⟩
  have hvalue : ∀ digit < 16, digitValue? (Nat.digitChar digit) = some digit := by decide
  rw [continueNumeral?.eq_3 _ _ _ _ hunderscore, hvalue digit (by omega)]
  exact if_pos hdigit

theorem continueNumeral?_toDigits (hradix : 1 < radix) (hsixteen : radix ≤ 16) (n : Nat)
    (rest : List Char) :
    continueNumeral? radix 0 (Nat.toDigits radix n ++ rest) = continueNumeral? radix n rest := by
  induction n using Nat.strongRecOn generalizing rest with
  | ind n ih =>
      by_cases hsmall : n < radix
      · rw [Nat.toDigits_of_lt_base hsmall, List.singleton_append,
          continueNumeral?_digit hsixteen hsmall, Nat.zero_mul, Nat.zero_add]
      · have hdigit : n % radix < radix := Nat.mod_lt n (by omega)
        rw [Nat.toDigits_of_base_le hradix (Nat.not_lt.mp hsmall), List.append_assoc,
          ih (n / radix) (Nat.div_lt_self (by omega) hradix), List.singleton_append,
          continueNumeral?_digit hsixteen hdigit, Nat.div_add_mod']

theorem continueNumeral?_toDigits_self (hradix : 1 < radix) (hsixteen : radix ≤ 16) (n : Nat) :
    continueNumeral? radix 0 (Nat.toDigits radix n) = some n := by
  have hread := continueNumeral?_toDigits hradix hsixteen n []
  rwa [List.append_nil] at hread

theorem toDigits_eq_cons (hradix : 1 < radix) (n : Nat) :
    ∃ digit rest, Nat.toDigits radix n = digit.digitChar :: rest ∧ digit < radix ∧
      (0 < n → 0 < digit) := by
  induction n using Nat.strongRecOn with
  | ind n ih =>
      by_cases hsmall : n < radix
      · exact ⟨n, [], Nat.toDigits_of_lt_base hsmall, hsmall, id⟩
      · have hradix_le : radix ≤ n := Nat.not_lt.mp hsmall
        obtain ⟨digit, rest, hdigits, hlt, hpos⟩ :=
          ih (n / radix) (Nat.div_lt_self (by omega) hradix)
        refine ⟨digit, rest ++ [(n % radix).digitChar], ?_, hlt, fun _ => hpos ?_⟩
        · rw [Nat.toDigits_of_base_le hradix hradix_le, hdigits, List.cons_append]
        · exact Nat.div_pos hradix_le (by omega)

theorem numeral?_toDigits (hradix : 1 < radix) (hsixteen : radix ≤ 16) (n : Nat) :
    numeral? radix (Nat.toDigits radix n) = some n := by
  have hread := continueNumeral?_toDigits_self hradix hsixteen n
  obtain ⟨digit, rest, hdigits, hlt, -⟩ := toDigits_eq_cons hradix n
  obtain ⟨hplus, hunderscore, -⟩ := IsDigitOf.plain hsixteen ⟨digit, hlt, rfl⟩
  rw [hdigits] at hread
  have hunsigned : dropPlus (digit.digitChar :: rest) = digit.digitChar :: rest :=
    dropPlus.eq_3 _ (fun _ hsign => hplus (List.cons.inj hsign).1)
      fun _ hsign => hplus (List.cons.inj hsign).1
  rw [hdigits, numeral?, hunsigned]
  split
  · contradiction
  · rename_i hfirst
    exact absurd (List.cons.inj hfirst).1 hunderscore
  · exact hread

theorem trim_of_not_blank {s : List Char} (h : ∀ c ∈ s, isBlank c = false) :
    trim (String.ofList s) = String.ofList s := by
  have hkept {t : List Char} (ht : ∀ c ∈ t, isBlank c = false) : skipBlank t = t := by
    cases t with
    | nil => rfl
    | cons c rest => exact List.dropWhile_cons_of_neg (by simp [ht c List.mem_cons_self])
  rw [trim, String.toList_ofList, hkept h, hkept fun c hc => h c (List.mem_reverse.mp hc),
    List.reverse_reverse]

theorem word?_decimalDigits (h : n < wordBound) : word? (decimalDigits n) = some n := by
  have hten : 1 < 10 := by decide
  have hread := continueNumeral?_toDigits_self hten (by decide) n
  have hdigits : ∀ c ∈ decimalDigits n, c.isDigit = true :=
    fun c hc => Nat.isDigit_of_mem_toDigits (by decide) (by decide) hc
  obtain ⟨digit, rest, hcons, hlt, -⟩ := toDigits_eq_cons hten n
  obtain ⟨hplus, -, -⟩ := IsDigitOf.plain (by decide) ⟨digit, hlt, rfl⟩
  change continueNumeral? 10 0 (decimalDigits n) = some n at hread
  change decimalDigits n = digit.digitChar :: rest at hcons
  rw [hcons] at hread hdigits ⊢
  rw [word?, if_neg (by simpa using hdigits), hread]
  · exact if_pos h
  · rintro _ hsign
    exact hplus (List.cons.inj hsign).1

end Text

namespace Felt

theorem ofDigits?_toHex (x : Felt) : ofDigits? x.toHex.toList = some x := by
  rw [toHex, String.toList_ofList]
  exact Text.numeral?_toDigits (by decide) (by decide) x

/-- A felt of any size is read back from its hexadecimal form. -/
theorem parse_toHex (x : Felt) : parse x.toHex = .ok x := by
  have hplain : ∀ c ∈ '0' :: 'x' :: Text.hexDigits x, Text.isBlank c = false := by
    refine List.forall_mem_cons.mpr ⟨by decide, List.forall_mem_cons.mpr ⟨by decide, ?_⟩⟩
    intro c hc
    exact ((Text.isDigitOf_of_mem (by decide) hc).plain (by decide)).2.2
  have htrim : Text.trim x.toHex = x.toHex := Text.trim_of_not_blank hplain
  rw [parse, htrim, ofDigits?_toHex]

end Felt

end ContractFuzz
