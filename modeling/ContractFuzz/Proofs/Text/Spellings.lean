import ContractFuzz.Proofs.Text.Numerals
import Mathlib.Data.List.Induction
import Mathlib.Data.List.TakeWhile

namespace ContractFuzz

namespace Text

variable {radix n value : Nat} {c : Char} {s t digits rest : List Char}

section Characters

theorem lt_or_toLower_eq (c : Char) : c.toNat < 128 ∨ c.toLower = c ∧ digitValue? c = none := by
  by_cases hascii : c.toNat < 128
  · exact .inl hascii
  have habove {last : Char} (hlast : last.toNat < 128) : ¬c ≤ last := by
    intro hle
    exact hascii (Nat.lt_of_le_of_lt hle hlast)
  refine .inr ⟨?_, ?_⟩
  · refine dif_neg ?_
    rintro ⟨-, hlast⟩
    exact habove (by decide : 'Z'.toNat < 128) hlast
  · rw [digitValue?, if_neg fun h => habove (by decide) h.2,
      if_neg fun h => habove (by decide) h.2, if_neg fun h => habove (by decide) h.2]

theorem of_ascii {holds : Char → Prop} (h : ∀ n < 128, holds (Char.ofNat n)) (hc : c.toNat < 128) :
    holds c :=
  Char.ofNat_toNat c ▸ h c.toNat hc

theorem toLower_toLower (c : Char) : c.toLower.toLower = c.toLower := by
  rcases lt_or_toLower_eq c with hascii | ⟨hlower, -⟩
  · exact @of_ascii c (fun c => c.toLower.toLower = c.toLower) (by decide +kernel) hascii
  · rw [hlower, hlower]

theorem digitValue?_toLower (c : Char) : digitValue? c.toLower = digitValue? c := by
  rcases lt_or_toLower_eq c with hascii | ⟨hlower, -⟩
  · exact @of_ascii c (fun c => digitValue? c.toLower = digitValue? c) (by decide +kernel) hascii
  · rw [hlower]

theorem toLower_eq_underscore (c : Char) : c.toLower = '_' ↔ c = '_' := by
  rcases lt_or_toLower_eq c with hascii | ⟨hlower, -⟩
  · exact @of_ascii c (fun c => c.toLower = '_' ↔ c = '_') (by decide +kernel) hascii
  · rw [hlower]

theorem eq_digitChar_of_digitValue? {digit : Nat} (hdigit : digit < 16)
    (h : digitValue? c = some digit) : c.toLower = digit.digitChar ∧ isBlank c = false := by
  rcases lt_or_toLower_eq c with hascii | ⟨-, hnone⟩
  · exact @of_ascii c (fun c => ∀ digit < 16, digitValue? c = some digit →
      c.toLower = digit.digitChar ∧ isBlank c = false) (by decide +kernel) hascii digit hdigit h
  · rw [hnone] at h
    cases h

end Characters

section Reading

theorem continueNumeral?_cons (hc : c ≠ '_') :
    continueNumeral? radix value (c :: rest) =
      (((digitValue? c).filter (· < radix)).bind fun digit =>
        continueNumeral? radix (value * radix + digit) rest) := by
  rw [continueNumeral?.eq_3 _ _ _ _ hc]
  cases digitValue? c with
  | none => rfl
  | some digit => by_cases hdigit : digit < radix <;> simp [hdigit, Option.filter]

theorem continueNumeral?_append :
    continueNumeral? radix value (s ++ t) =
      (continueNumeral? radix value s).bind fun reached => continueNumeral? radix reached t := by
  induction s generalizing value with
  | nil => rfl
  | cons c rest ih =>
      by_cases hc : c = '_'
      · subst hc
        exact ih
      · rw [List.cons_append, continueNumeral?_cons hc, continueNumeral?_cons hc, Option.bind_assoc]
        congr 1
        funext digit
        exact ih

/-- Digits in lower case, without the underscores between them. -/
def plain (digits : List Char) : List Char := (digits.filter (· ≠ '_')).map Char.toLower

theorem continueNumeral?_plain :
    continueNumeral? radix value (plain digits) = continueNumeral? radix value digits := by
  induction digits generalizing value with
  | nil => rfl
  | cons c rest ih =>
      by_cases hc : c = '_'
      · subst hc
        exact ih
      · have hplain : plain (c :: rest) = c.toLower :: plain rest := by simp [plain, hc]
        have hlower : c.toLower ≠ '_' := mt (toLower_eq_underscore c).mp hc
        rw [hplain, continueNumeral?_cons hlower, continueNumeral?_cons hc, digitValue?_toLower]
        congr 1
        funext digit
        exact ih

theorem continueNumeral?_zeros (hradix : 0 < radix) (zeros : Nat) :
    continueNumeral? radix 0 (List.replicate zeros '0' ++ rest) =
      continueNumeral? radix 0 rest := by
  induction zeros with
  | zero => rfl
  | succ zeros ih =>
      have hzero : (digitValue? '0').filter (· < radix) = some 0 := by
        rw [show digitValue? '0' = some 0 from rfl]
        simpa using hradix
      rw [List.replicate_succ, List.cons_append, continueNumeral?_cons (by decide), hzero]
      simpa using ih

theorem continueNumeral?_concat (hc : c ≠ '_')
    (h : continueNumeral? radix value (s ++ [c]) = some n) :
    ∃ reached digit, continueNumeral? radix value s = some reached ∧ digit < radix ∧
      digitValue? c = some digit ∧ n = reached * radix + digit := by
  rw [continueNumeral?_append] at h
  obtain ⟨reached, hreached, hlast⟩ := Option.bind_eq_some_iff.mp h
  rw [continueNumeral?_cons hc] at hlast
  obtain ⟨digit, hdigit, hn⟩ := Option.bind_eq_some_iff.mp hlast
  obtain ⟨hvalue, hlt⟩ := Option.filter_eq_some_iff.mp hdigit
  exact ⟨reached, digit, hreached, of_decide_eq_true hlt, hvalue, (Option.some.inj hn).symm⟩

theorem zeros_of_continueNumeral? (hradix : 1 < radix) (hsixteen : radix ≤ 16)
    (hplain : ∀ c ∈ s, c ≠ '_' ∧ c.toLower = c) (hs : s ≠ [])
    (h : continueNumeral? radix 0 s = some n) :
    ∃ zeros, s = List.replicate zeros '0' ++ Nat.toDigits radix n := by
  induction s using List.reverseRecOn generalizing n with
  | nil => exact absurd rfl hs
  | append_singleton front c ih =>
      obtain ⟨hfront, hlast⟩ := List.forall_mem_append.mp hplain
      obtain ⟨hc, hlower⟩ := List.forall_mem_singleton.mp hlast
      obtain ⟨reached, digit, hreached, hdigit, hvalue, rfl⟩ := continueNumeral?_concat hc h
      obtain ⟨hchar, -⟩ := eq_digitChar_of_digitValue? (by omega) hvalue
      rw [hlower] at hchar
      subst hchar
      by_cases hempty : front = []
      · subst hempty
        cases hreached
        rw [Nat.zero_mul, Nat.zero_add, Nat.toDigits_of_lt_base hdigit]
        exact ⟨0, rfl⟩
      obtain ⟨zeros, hzeros⟩ := ih hfront hempty hreached
      -- Zeros that write nothing but the number zero are zeros in front of the next digit.
      by_cases hzero : reached = 0
      · subst hzero
        rw [hzeros, Nat.zero_mul, Nat.zero_add, Nat.toDigits_of_lt_base hdigit,
          Nat.toDigits_of_lt_base (by omega)]
        exact ⟨zeros + 1, by rw [List.replicate_succ']; rfl⟩
      · have hdigits := Nat.toDigits_append_toDigits hradix (Nat.pos_of_ne_zero hzero) hdigit
        rw [Nat.toDigits_of_lt_base hdigit] at hdigits
        refine ⟨zeros, ?_⟩
        rw [Nat.mul_comm, ← hdigits, hzeros, List.append_assoc]

/-- Digits of a number: with zeros in front, in either case, and with underscores behind the
first. -/
structure Writes (radix n : Nat) (digits : List Char) : Prop where
  first : digits.head? ≠ some '_'
  written : ∃ zeros, plain digits = List.replicate zeros '0' ++ Nat.toDigits radix n

theorem writes_iff (hradix : 1 < radix) (hsixteen : radix ≤ 16) :
    Writes radix n digits ↔
      digits ≠ [] ∧ digits.head? ≠ some '_' ∧ continueNumeral? radix 0 digits = some n := by
  constructor
  · rintro ⟨hfirst, zeros, hwritten⟩
    refine ⟨?_, hfirst, ?_⟩
    · rintro rfl
      have hnil := (List.append_eq_nil_iff.mp hwritten.symm).2
      exact Nat.toDigits_ne_nil hnil
    · rw [← continueNumeral?_plain, hwritten, continueNumeral?_zeros (by omega)]
      exact continueNumeral?_toDigits_self hradix hsixteen n
  · rintro ⟨hdigits, hfirst, hread⟩
    refine ⟨hfirst, ?_⟩
    rw [← continueNumeral?_plain] at hread
    refine zeros_of_continueNumeral? hradix hsixteen ?_ ?_ hread
    · intro c hc
      obtain ⟨other, hother, rfl⟩ := List.mem_map.mp hc
      have hkept : other ≠ '_' := by simpa using (List.mem_filter.mp hother).2
      exact ⟨mt (toLower_eq_underscore other).mp hkept, toLower_toLower other⟩
    · cases digits with
      | nil => contradiction
      | cons c rest =>
          have hc : c ≠ '_' := fun hc => hfirst (congrArg some hc)
          simp [plain, hc]

theorem writes_toDigits (hradix : 1 < radix) (hsixteen : radix ≤ 16) (n : Nat) :
    Writes radix n (Nat.toDigits radix n) := by
  have hread := continueNumeral?_toDigits_self hradix hsixteen n
  obtain ⟨digit, rest, hdigits, hlt, -⟩ := toDigits_eq_cons hradix n
  obtain ⟨-, hunderscore, -⟩ := IsDigitOf.plain hsixteen ⟨digit, hlt, rfl⟩
  refine (writes_iff hradix hsixteen).mpr ⟨Nat.toDigits_ne_nil, ?_, hread⟩
  rw [hdigits]
  exact fun hfirst => hunderscore (Option.some.inj hfirst)

end Reading

section Numerals

/-- At most one sign. -/
def IsSign (sign : List Char) : Prop := sign = [] ∨ sign = ['+']

theorem dropPlus_sign (s : List Char) : ∃ sign, IsSign sign ∧ s = sign ++ dropPlus s := by
  unfold dropPlus
  split
  · exact ⟨[], .inl rfl, rfl⟩
  · exact ⟨['+'], .inr rfl, rfl⟩
  · exact ⟨[], .inl rfl, rfl⟩

theorem dropPlus_sign_append {sign : List Char} (hsign : IsSign sign)
    (hfirst : digits.head? ≠ some '+') : dropPlus (sign ++ digits) = digits := by
  rcases hsign with rfl | rfl
  · exact dropPlus.eq_3 _ (fun _ h => hfirst (congrArg List.head? h))
      fun _ h => hfirst (congrArg List.head? h)
  · exact dropPlus.eq_2 _ fun _ h => hfirst (congrArg List.head? h)

theorem numeral?_iff_writes (hradix : 1 < radix) (hsixteen : radix ≤ 16) :
    numeral? radix s = some n ↔ Writes radix n (dropPlus s) := by
  rw [writes_iff hradix hsixteen, numeral?]
  split
  · rename_i hdrop
    simp [hdrop]
  · rename_i hdrop
    simp [hdrop]
  · rename_i hnil hunderscore
    have hfirst : (dropPlus s).head? ≠ some '_' := by
      intro hfirst
      obtain ⟨rest, hrest⟩ := List.head?_eq_some_iff.mp hfirst
      exact hunderscore rest hrest
    exact ⟨fun h => ⟨hnil, hfirst, h⟩, fun h => h.2.2⟩

theorem Writes.head?_ne_plus (hradix : 1 < radix) (hsixteen : radix ≤ 16)
    (h : Writes radix n digits) : digits.head? ≠ some '+' := by
  intro hfirst
  obtain ⟨rest, rfl⟩ := List.head?_eq_some_iff.mp hfirst
  obtain ⟨-, -, hread⟩ := (writes_iff hradix hsixteen).mp h
  rw [continueNumeral?_cons (by decide), show digitValue? '+' = none from rfl] at hread
  cases hread

theorem numeral?_eq_some_iff (hradix : 1 < radix) (hsixteen : radix ≤ 16) :
    numeral? radix s = some n ↔
      ∃ sign digits, IsSign sign ∧ s = sign ++ digits ∧ Writes radix n digits := by
  rw [numeral?_iff_writes hradix hsixteen]
  constructor
  · intro h
    obtain ⟨sign, hsign, hs⟩ := dropPlus_sign s
    exact ⟨sign, dropPlus s, hsign, hs, h⟩
  · rintro ⟨sign, digits, hsign, rfl, h⟩
    rwa [dropPlus_sign_append hsign (h.head?_ne_plus hradix hsixteen)]

theorem isBlank_of_continueNumeral? (hsixteen : radix ≤ 16)
    (h : continueNumeral? radix value s = some n) : ∀ c ∈ s, isBlank c = false := by
  induction s generalizing value with
  | nil => nofun
  | cons c rest ih =>
      by_cases hc : c = '_'
      · subst hc
        exact List.forall_mem_cons.mpr ⟨by decide, ih h⟩
      · rw [continueNumeral?_cons hc] at h
        obtain ⟨digit, hdigit, hrest⟩ := Option.bind_eq_some_iff.mp h
        obtain ⟨hvalue, hlt⟩ := Option.filter_eq_some_iff.mp hdigit
        have hlt : digit < radix := of_decide_eq_true hlt
        have hplain := (eq_digitChar_of_digitValue? (by omega) hvalue).2
        exact List.forall_mem_cons.mpr ⟨hplain, ih hrest⟩

end Numerals

section Trimming

/-- A text without the blanks around it. -/
structure Trims (s t : List Char) : Prop where
  around : ∃ before after, s = before ++ t ++ after ∧ (∀ c ∈ before, isBlank c = true) ∧
    ∀ c ∈ after, isBlank c = true
  first : ∀ c ∈ t.head?, isBlank c = false
  last : ∀ c ∈ t.getLast?, isBlank c = false

theorem skipBlank_append {before : List Char} (hbefore : ∀ c ∈ before, isBlank c = true)
    (hfirst : ∀ c ∈ t.head?, isBlank c = false) : skipBlank (before ++ t) = t := by
  rw [skipBlank, List.dropWhile_append_of_pos hbefore]
  cases t with
  | nil => rfl
  | cons c rest => exact List.dropWhile_cons_of_neg (by simp [hfirst c rfl])

theorem skipBlank_spec (s : List Char) :
    ∃ before, s = before ++ skipBlank s ∧ (∀ c ∈ before, isBlank c = true) ∧
      ∀ c ∈ (skipBlank s).head?, isBlank c = false := by
  refine ⟨s.takeWhile isBlank, List.takeWhile_append_dropWhile.symm,
    fun c hc => List.mem_takeWhile_imp hc, fun c hc => ?_⟩
  have hnot := List.head?_dropWhile_not isBlank s
  rw [show (s.dropWhile isBlank).head? = some c from hc] at hnot
  exact hnot

theorem trims_trim (s : String) : Trims s.toList (trim s).toList := by
  obtain ⟨before, hbefore, hblank, hfirst⟩ := skipBlank_spec s.toList
  obtain ⟨after, hafter, hblanks, hlast⟩ := skipBlank_spec (skipBlank s.toList).reverse
  have hkept : skipBlank s.toList = (trim s).toList ++ after.reverse := by
    rw [trim, String.toList_ofList, ← List.reverse_append, ← hafter, List.reverse_reverse]
  refine ⟨⟨before, after.reverse, ?_, hblank, fun c hc => hblanks c (List.mem_reverse.mp hc)⟩,
    fun c hc => ?_, fun c hc => ?_⟩
  · rw [List.append_assoc, ← hkept]
    exact hbefore
  · apply hfirst
    rw [hkept, List.head?_append, show (trim s).toList.head? = some c from hc]
    rfl
  · apply hlast
    rwa [trim, String.toList_ofList, List.getLast?_reverse] at hc

theorem Trims.eq_trim {s t : String} (h : Trims s.toList t.toList) : t = trim s := by
  obtain ⟨before, after, hs, hbefore, hafter⟩ := h.around
  have hkept : (skipBlank (skipBlank s.toList).reverse).reverse = t.toList := by
    by_cases hempty : t.toList = []
    · have hblank : ∀ c ∈ before ++ after, isBlank c = true :=
        List.forall_mem_append.mpr ⟨hbefore, hafter⟩
      have hskip := skipBlank_append (t := []) hblank nofun
      rw [List.append_nil] at hskip
      rw [hs, hempty, List.append_nil, hskip]
      rfl
    · have hfirst : (t.toList ++ after).head? = t.toList.head? := by
        obtain ⟨c, rest, ht⟩ := List.exists_cons_of_ne_nil hempty
        rw [ht]
        rfl
      rw [hs, List.append_assoc, skipBlank_append hbefore (hfirst ▸ h.first), List.reverse_append,
        skipBlank_append (fun c hc => hafter c (List.mem_reverse.mp hc)) ?_, List.reverse_reverse]
      rw [List.head?_reverse]
      exact h.last
  rw [trim, hkept, String.ofList_toList]

end Trimming

end Text

namespace Felt

open Text

variable {x : Felt} {literal : List Char}

/-- The radixes of literals, and the prefixes that tell them. -/
inductive Marks : Nat → List Char → Prop
  | decimal : Marks 10 []
  | hex : Marks 16 ['0', 'x']
  | upperHex : Marks 16 ['0', 'X']

/-- A literal of a number: digits behind a prefix, if it is not decimal, and behind at most one
sign. -/
def Literal (x : Felt) (literal : List Char) : Prop :=
  ∃ radix marker sign digits, Marks radix marker ∧ IsSign sign ∧
    literal = marker ++ (sign ++ digits) ∧ Writes radix x digits

/-- A text that spells a number: a literal of it with blanks around. -/
def Spells (x : Felt) (s : String) : Prop :=
  ∃ before literal after, s.toList = before ++ literal ++ after ∧
    (∀ c ∈ before, isBlank c = true) ∧ (∀ c ∈ after, isBlank c = true) ∧ Literal x literal

theorem Marks.radix {radix : Nat} {marker : List Char} (h : Marks radix marker) :
    1 < radix ∧ radix ≤ 16 := by
  cases h <;> decide

theorem ofDigits?_eq_some_iff : ofDigits? literal = some x ↔ Literal x literal := by
  constructor
  · intro h
    obtain ⟨radix, marker, rest, hmarks, hliteral, hread⟩ : ∃ radix marker rest,
        Marks radix marker ∧ literal = marker ++ rest ∧ numeral? radix rest = some x := by
      unfold ofDigits? at h
      split at h
      · exact ⟨16, _, _, .hex, rfl, h⟩
      · exact ⟨16, _, _, .upperHex, rfl, h⟩
      · exact ⟨10, _, _, .decimal, rfl, h⟩
    obtain ⟨sign, digits, hsign, rfl, hwrites⟩ :=
      (numeral?_eq_some_iff hmarks.radix.1 hmarks.radix.2).mp hread
    exact ⟨radix, marker, sign, digits, hmarks, hsign, hliteral, hwrites⟩
  · rintro ⟨radix, marker, sign, digits, hmarks, hsign, rfl, hwrites⟩
    have hread : numeral? radix (sign ++ digits) = some x :=
      (numeral?_eq_some_iff hmarks.radix.1 hmarks.radix.2).mpr ⟨sign, digits, hsign, rfl, hwrites⟩
    cases hmarks with
    | hex => exact hread
    | upperHex => exact hread
    | decimal =>
        -- A text that begins like a prefix is not read as a decimal number.
        rw [ofDigits?.eq_3]
        · exact hread
        all_goals
          intro rest hmarker
          change sign ++ digits = _ at hmarker
          rw [hmarker] at hread
          cases hread

theorem Literal.not_blank (h : Literal x literal) : ∀ c ∈ literal, isBlank c = false := by
  obtain ⟨radix, marker, sign, digits, hmarks, hsign, rfl, hwrites⟩ := h
  have hmarker : ∀ c ∈ marker, isBlank c = false := by
    cases hmarks <;> simp [isBlank, blankRanges]
  have hsigned : ∀ c ∈ sign, isBlank c = false := by
    rcases hsign with rfl | rfl <;> simp [isBlank, blankRanges]
  obtain ⟨-, -, hread⟩ := (writes_iff hmarks.radix.1 hmarks.radix.2).mp hwrites
  have hdigits := isBlank_of_continueNumeral? hmarks.radix.2 hread
  exact List.forall_mem_append.mpr ⟨hmarker, List.forall_mem_append.mpr ⟨hsigned, hdigits⟩⟩

theorem spells_iff {s : String} : Spells x s ↔ ofDigits? (trim s).toList = some x := by
  rw [ofDigits?_eq_some_iff]
  constructor
  · rintro ⟨before, literal, after, hs, hbefore, hafter, hliteral⟩
    have htrims : Trims s.toList (String.ofList literal).toList := by
      rw [String.toList_ofList]
      exact ⟨⟨before, after, hs, hbefore, hafter⟩,
        fun c hc => hliteral.not_blank c (List.mem_of_mem_head? hc),
        fun c hc => hliteral.not_blank c (List.mem_of_mem_getLast? hc)⟩
    rwa [← htrims.eq_trim, String.toList_ofList]
  · intro h
    obtain ⟨before, after, hs, hbefore, hafter⟩ := (trims_trim s).around
    exact ⟨before, _, after, hs, hbefore, hafter, h⟩

theorem spells_toDecimal (x : Felt) : Spells x x.toDecimal := by
  have hwrites : Writes 10 x (decimalDigits x) := writes_toDigits (by decide) (by decide) x
  refine ⟨[], decimalDigits x, [], ?_, nofun, nofun, 10, [], [], _, .decimal, .inl rfl, rfl,
    hwrites⟩
  rw [toDecimal, String.toList_ofList]
  exact (List.append_nil _).symm

theorem parse_eq_ok_iff_spells {s : String} : parse s = .ok x ↔ Spells x s := by
  rw [spells_iff, parse]
  cases ofDigits? (trim s).toList <;> simp

theorem parse_eq_error_iff {s : String} {e : FeltSyntaxError} :
    parse s = .error e ↔ (∀ x, ¬Spells x s) ∧ Trims s.toList e.literal.toList := by
  obtain ⟨literal⟩ := e
  have hparse : parse s = .error ⟨literal⟩ ↔
      ofDigits? (trim s).toList = none ∧ trim s = literal := by
    rw [parse]
    cases ofDigits? (trim s).toList <;> simp
  rw [hparse, Option.eq_none_iff_forall_ne_some]
  constructor
  · rintro ⟨hnone, htrim⟩
    refine ⟨fun x hspells => hnone x (spells_iff.mp hspells), ?_⟩
    rw [← htrim]
    exact trims_trim s
  · rintro ⟨hnone, htrims⟩
    exact ⟨fun x hread => hnone x (spells_iff.mpr hread), htrims.eq_trim.symm⟩

/-- The texts that spell a felt are read as that felt, its hexadecimal and its decimal form among
them. All others are rejected, and the error shows them without the blanks around them. -/
theorem parse_spellings :
    (∀ x : Felt, parse x.toHex = .ok x ∧ parse x.toDecimal = .ok x) ∧
    (∀ s x, parse s = .ok x ↔ Spells x s) ∧
    ∀ s e, parse s = .error e ↔ (∀ x, ¬Spells x s) ∧ Trims s.toList e.literal.toList := by
  have hforms (x : Felt) : parse x.toHex = .ok x ∧ parse x.toDecimal = .ok x :=
    ⟨parse_toHex x, parse_eq_ok_iff_spells.mpr (spells_toDecimal x)⟩
  exact ⟨hforms, fun _ _ => parse_eq_ok_iff_spells, fun _ _ => parse_eq_error_iff⟩

-- A sign goes behind the prefix, not before it.
example : parse "\t0X+0_fF " = .ok 255 ∧ parse " +0xff" = .error ⟨"+0xff"⟩ := by
  decide +kernel

end Felt

end ContractFuzz
