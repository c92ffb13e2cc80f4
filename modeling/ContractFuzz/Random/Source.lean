import ContractFuzz.Random.Stream

/-!
Sources of primitive draws. What is generated at random depends on a source only through the
numbers it returns; the source of a campaign draws them from a stream of words.
-/

namespace ContractFuzz.Random

/-- The draws that generation asks for, over a state. -/
structure Source (ρ : Type) where
  /-- The numerator of a fraction over `2 ^ 53`. -/
  fraction : ρ → Nat × ρ
  /-- A number below a bound that fits a word. -/
  index : Nat → ρ → Nat × ρ
  /-- A number below a bound that fits two words. -/
  length : Nat → ρ → Nat × ρ
  /-- A number below a bound of any size. -/
  below : Nat → ρ → Nat × ρ

/-- Every draw lies in the range it is asked for. -/
structure Source.InRange {ρ : Type} (source : Source ρ) : Prop where
  fraction_lt : ∀ state, (source.fraction state).1 < 1 <<< 53
  index_lt : ∀ bound state, 0 < bound → (source.index bound state).1 < bound
  length_lt : ∀ bound state, 0 < bound → (source.length bound state).1 < bound
  below_lt : ∀ bound state, 0 < bound → (source.below bound state).1 < bound

namespace Stream

/-- How often a draw is repeated. Each is accepted at least half the time, so the last one is
never reached in practice; it counts as zero. -/
def attempts : Nat := 1024

/-- The number of binary digits. -/
def bitLength (n : Nat) : Nat := if n = 0 then 0 else n.log2 + 1

/-- Whether the low half of a product keeps the draw uniform: it must not exceed the bound, moved
up to the top of its width, less one. -/
def accepts (width bound low : Nat) : Bool := low < bound * Nat.pow 2 (width - bitLength bound)

/-- A number below a bound: the high half of its product with a number of `width` bits. -/
def scaled (width : Nat) (draw : Stream → Nat × Stream) (bound : Nat) :
    Nat → Stream → Nat × Stream
  | 0, s => (0, s)
  | tries + 1, s =>
      let (v, s) := draw s
      if accepts width bound (v * bound % Nat.pow 2 width) then (v * bound / Nat.pow 2 width, s)
      else scaled width draw bound tries s

/-- A number of so many bits. -/
def nextBits (bits : Nat) (s : Stream) : Nat × Stream :=
  let (whole, s) := s.nextWords (bits / 32)
  if bits % 32 = 0 then (whole, s)
  else
    let (last, s) := s.next
    (whole + last.toNat / Nat.pow 2 (32 - bits % 32) * Nat.pow 2 (bits / 32 * 32), s)

/-- A number below a bound: the first of its length that is smaller. -/
def rejecting (bound : Nat) : Nat → Stream → Nat × Stream
  | 0, s => (0, s)
  | tries + 1, s =>
      let (v, s) := s.nextBits (bitLength bound)
      if v < bound then (v, s) else rejecting bound tries s

/-- The draws of a campaign. -/
def source : Source Stream where
  fraction s := let (v, s) := s.nextPair; (v / 0x800, s)
  index bound := scaled 32 (fun s => let (v, s) := s.next; (v.toNat, s)) bound attempts
  length bound := scaled 64 nextPair bound attempts
  below bound := rejecting bound attempts

theorem nextPair_lt (s : Stream) : s.nextPair.1 < 1 <<< 64 := by
  have hlow := s.next.1.toNat_lt
  have hhigh := s.next.2.next.1.toNat_lt
  simp only [nextPair, wordSize]
  omega

theorem scaled_lt {width : Nat} {draw : Stream → Nat × Stream} {bound : Nat}
    (hdraw : ∀ s, (draw s).1 < Nat.pow 2 width) (hbound : 0 < bound) (tries : Nat) (s : Stream) :
    (scaled width draw bound tries s).1 < bound := by
  induction tries generalizing s with
  | zero => exact hbound
  | succ tries ih =>
      simp only [scaled]
      split
      · refine (Nat.div_lt_iff_lt_mul (Nat.two_pow_pos width)).2 ?_
        rw [Nat.mul_comm bound]
        exact Nat.mul_lt_mul_of_pos_right (hdraw s) hbound
      · exact ih _

theorem rejecting_lt {bound : Nat} (hbound : 0 < bound) (tries : Nat) (s : Stream) :
    (rejecting bound tries s).1 < bound := by
  induction tries generalizing s with
  | zero => exact hbound
  | succ tries ih =>
      simp only [rejecting]
      split
      · assumption
      · exact ih _

theorem source_inRange : source.InRange where
  fraction_lt s := by
    have h := s.nextPair_lt
    simp only [source]
    omega
  index_lt bound s hbound :=
    scaled_lt (fun s => s.next.1.toNat_lt) hbound attempts s
  length_lt bound s hbound := scaled_lt nextPair_lt hbound attempts s
  below_lt bound s hbound := rejecting_lt hbound attempts s

end Stream

end ContractFuzz.Random
