/-! # The ChaCha block function

Sixteen words stand in four rows: constants, a key of eight, and a counter of two
with two zeros. They are stirred by six double rounds and added to themselves.
-/

namespace LossyLink.ChaCha

@[inline] def rotateLeft (x n : UInt32) : UInt32 := x <<< n ||| x >>> (32 - n)

/-- Four words side by side. -/
structure Row where
  w₀ : UInt32
  w₁ : UInt32
  w₂ : UInt32
  w₃ : UInt32
  deriving DecidableEq, Repr

namespace Row

def toList (r : Row) : List UInt32 := [r.w₀, r.w₁, r.w₂, r.w₃]

def add (r s : Row) : Row := ⟨r.w₀ + s.w₀, r.w₁ + s.w₁, r.w₂ + s.w₂, r.w₃ + s.w₃⟩

/-- The sums of the bits of two rows, each word turned left. -/
def xorTurn (n : UInt32) (r s : Row) : Row :=
  ⟨rotateLeft (r.w₀ ^^^ s.w₀) n, rotateLeft (r.w₁ ^^^ s.w₁) n,
    rotateLeft (r.w₂ ^^^ s.w₂) n, rotateLeft (r.w₃ ^^^ s.w₃) n⟩

/-- Move all words one place to the left, the first one to the end. -/
def shift (r : Row) : Row := ⟨r.w₁, r.w₂, r.w₃, r.w₀⟩

end Row

structure Block where
  a : Row
  b : Row
  c : Row
  d : Row
  deriving DecidableEq, Repr

namespace Block

def toList (s : Block) : List UInt32 := s.a.toList ++ s.b.toList ++ s.c.toList ++ s.d.toList

def add (s t : Block) : Block := ⟨s.a.add t.a, s.b.add t.b, s.c.add t.c, s.d.add t.d⟩

/-- Stir each column. -/
def round (s : Block) : Block :=
  let a := s.a.add s.b
  let d := s.d.xorTurn 16 a
  let c := s.c.add d
  let b := s.b.xorTurn 12 c
  let a := a.add b
  let d := d.xorTurn 8 a
  let c := c.add d
  let b := b.xorTurn 7 c
  ⟨a, b, c, d⟩

/-- Stir the columns, then the diagonals, which are columns of shifted rows. -/
def doubleRound (s : Block) : Block :=
  let s := s.round
  let s := round ⟨s.a, s.b.shift, s.c.shift.shift, s.d.shift.shift.shift⟩
  ⟨s.a, s.b.shift.shift.shift, s.c.shift.shift, s.d.shift⟩

def rounds : Nat → Block → Block
  | 0, s => s
  | n + 1, s => rounds n s.doubleRound

end Block

/-- A key in two rows. -/
structure Key where
  low : Row
  high : Row
  deriving DecidableEq, Repr

def start (key : Key) (counter : UInt64) : Block where
  a := ⟨0x61707865, 0x3320646e, 0x79622d32, 0x6b206574⟩
  b := key.low
  c := key.high
  d := ⟨counter.toUInt32, (counter >>> 32).toUInt32, 0, 0⟩

/-- The sixteen words of a block. -/
def block (key : Key) (counter : UInt64) : List UInt32 :=
  let s := start key counter
  (s.add (s.rounds 6)).toList

/-- Words two by two, the first in the low half. -/
def pairs : List UInt32 → List UInt64
  | low :: high :: rest => (low.toUInt64 ||| high.toUInt64 <<< 32) :: pairs rest
  | _ => []

end LossyLink.ChaCha
