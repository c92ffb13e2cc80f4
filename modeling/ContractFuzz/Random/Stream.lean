namespace ContractFuzz.Random

/-- Four words of the cipher's state, one row of its square. -/
structure Row where
  w0 : UInt32
  w1 : UInt32
  w2 : UInt32
  w3 : UInt32
  deriving Inhabited

namespace Row

def add (a b : Row) : Row := ⟨a.w0 + b.w0, a.w1 + b.w1, a.w2 + b.w2, a.w3 + b.w3⟩

def xor (a b : Row) : Row := ⟨a.w0 ^^^ b.w0, a.w1 ^^^ b.w1, a.w2 ^^^ b.w2, a.w3 ^^^ b.w3⟩

def rotateWord (x n : UInt32) : UInt32 := (x <<< n) ||| (x >>> (32 - n))

/-- Rotate every word to the left. -/
def rotate (a : Row) (n : UInt32) : Row :=
  ⟨rotateWord a.w0 n, rotateWord a.w1 n, rotateWord a.w2 n, rotateWord a.w3 n⟩

/-- Move the words of a row by one place to the left. -/
def shift (a : Row) : Row := ⟨a.w1, a.w2, a.w3, a.w0⟩

def words (a : Row) : List UInt32 := [a.w0, a.w1, a.w2, a.w3]

end Row

/-- The cipher's state, a square of sixteen words. -/
structure Square where
  a : Row
  b : Row
  c : Row
  d : Row
  deriving Inhabited

namespace Square

/-- The quarter round on all four columns. -/
def columns (s : Square) : Square :=
  let a := s.a.add s.b
  let d := (s.d.xor a).rotate 16
  let c := s.c.add d
  let b := (s.b.xor c).rotate 12
  let a := a.add b
  let d := (d.xor a).rotate 8
  let c := c.add d
  ⟨a, (b.xor c).rotate 7, c, d⟩

/-- A round on the columns, then one on the diagonals. -/
def doubleRound (s : Square) : Square :=
  let s := s.columns
  let s := columns ⟨s.a, s.b.shift, s.c.shift.shift, s.d.shift.shift.shift⟩
  ⟨s.a, s.b.shift.shift.shift, s.c.shift.shift, s.d.shift⟩

def rounds : Nat → Square → Square
  | 0, s => s
  | n + 1, s => rounds n s.doubleRound

def add (s t : Square) : Square := ⟨s.a.add t.a, s.b.add t.b, s.c.add t.c, s.d.add t.d⟩

def words (s : Square) : List UInt32 := s.a.words ++ s.b.words ++ s.c.words ++ s.d.words

end Square

/-- The key of the cipher. -/
structure Key where
  low : Row
  high : Row
  deriving Inhabited

/-- `expand 32-byte k`. -/
def constants : Row := ⟨0x61707865, 0x3320646E, 0x79622D32, 0x6B206574⟩

/-- The sixteen words of a block. -/
def block (key : Key) (counter : UInt64) : List UInt32 :=
  let start : Square :=
    ⟨constants, key.low, key.high, ⟨counter.toUInt32, (counter >>> 32).toUInt32, 0, 0⟩⟩
  ((start.rounds 6).add start).words

/-- A position in the stream: the words of the current block that are still to come, and the
number of the next block. -/
structure Stream where
  key : Key
  nextBlock : UInt64
  pending : List UInt32
  deriving Inhabited

namespace Stream

/-- One step of the generator that expands a seed. -/
def expandStep (state : UInt64) : UInt32 × UInt64 :=
  let state := state * 6364136223846793005 + 11634580027462260723
  let word := (((state >>> 18) ^^^ state) >>> 27).toUInt32
  let turn := (state >>> 59).toUInt32
  (Row.rotateWord word (32 - turn), state)

/-- Four words from the generator that expands a seed. -/
def expandRow (state : UInt64) : Row × UInt64 :=
  let (w0, state) := expandStep state
  let (w1, state) := expandStep state
  let (w2, state) := expandStep state
  let (w3, state) := expandStep state
  (⟨w0, w1, w2, w3⟩, state)

def ofSeed (seed : Nat) : Stream :=
  let (low, state) := expandRow (UInt64.ofNat seed)
  let (high, _) := expandRow state
  ⟨⟨low, high⟩, 0, []⟩

/-- The next word of the stream. -/
def next (s : Stream) : UInt32 × Stream :=
  match s.pending with
  | word :: rest => (word, { s with pending := rest })
  | [] =>
      match block s.key s.nextBlock with
      | word :: rest => (word, { s with nextBlock := s.nextBlock + 1, pending := rest })
      | [] => (0, s)

/-- How many words there are. -/
def wordSize : Nat := 0x100000000

/-- The next two words as one number, the first of them the low half. -/
def nextPair (s : Stream) : Nat × Stream :=
  let (low, s) := s.next
  let (high, s) := s.next
  (low.toNat + high.toNat * wordSize, s)

/-- The next `count` words as one number, the first of them lowest. -/
def nextWords (count : Nat) (s : Stream) : Nat × Stream :=
  match count with
  | 0 => (0, s)
  | count + 1 =>
      let (low, s) := s.next
      let (high, s) := nextWords count s
      (low.toNat + high * wordSize, s)

end Stream

end ContractFuzz.Random
