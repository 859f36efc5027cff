import LossyLink.Random.ChaCha

/-! # The random generator

A generator is a stream of 64-bit words fixed by its seed. A word serves either
as a fraction with 53 binary places or, scaled, as a number from a range.
-/

namespace LossyLink

structure Generator where
  key : ChaCha.Key
  /-- The number of the next block. -/
  block : UInt64
  /-- Words of the last block that are still to be drawn. -/
  pending : List UInt64
  deriving DecidableEq, Repr

namespace Generator

/-- The next state of a linear congruential sequence. -/
def advance (state : UInt64) : UInt64 := state * 6364136223846793005 + 11634580027462260723

/-- A permutation of a state, cut to one word. -/
def permuted (state : UInt64) : UInt32 :=
  let word := (((state >>> 18) ^^^ state) >>> 27).toUInt32
  let turn := (state >>> 59).toUInt32
  word >>> turn ||| word <<< ((32 - turn) % 32)

/-- Four words of a key, from the states that follow one, and the last of these. -/
def keyRow (s : UInt64) : ChaCha.Row × UInt64 :=
  let s₀ := advance s
  let s₁ := advance s₀
  let s₂ := advance s₁
  let s₃ := advance s₂
  (⟨permuted s₀, permuted s₁, permuted s₂, permuted s₃⟩, s₃)

def ofSeed (seed : UInt64) : Generator :=
  let (low, state) := keyRow seed
  let (high, _) := keyRow state
  { key := ⟨low, high⟩, block := 0, pending := [] }

def next (g : Generator) : UInt64 × Generator :=
  match g.pending with
  | word :: pending => (word, { g with pending })
  | [] =>
    let words := ChaCha.pairs (ChaCha.block g.key g.block)
    (words.headD 0, { g with block := g.block + 1, pending := words.tail })

/-- A fraction: this many parts of 2⁵³. -/
def fraction (g : Generator) : Nat × Generator :=
  let (word, g) := g.next
  ((word >>> 11).toNat, g)

/-- A number from `low` to `high`. The word is scaled to the range; where the
part cut off could still carry into the result, a second word decides. -/
def between (low high : Nat) (g : Generator) : Nat × Generator :=
  let size := high - low + 1
  let (word, g) := g.next
  if UInt64.size ≤ size then (low + word.toNat, g)
  else
    let scaled := word.toNat * size
    let offset := scaled / UInt64.size
    let rest := scaled % UInt64.size
    if UInt64.size - size < rest then
      let (word, g) := g.next
      if UInt64.size ≤ rest + word.toNat * size / UInt64.size then (low + offset + 1, g)
      else (low + offset, g)
    else (low + offset, g)

theorem between_mem {low high : Nat} (h : low ≤ high) (g : Generator) :
    low ≤ (g.between low high).1 ∧ (g.between low high).1 ≤ high := by
  have hx := g.next.1.toNat_lt
  have hy := g.next.2.next.1.toNat_lt
  unfold between
  generalize hsize : high - low + 1 = size
  simp only [UInt64.size]
  generalize g.next.1.toNat = x at *
  generalize g.next.2.next.1.toNat = y at *
  split
  · constructor <;> simp only <;> omega
  · have hxs : x * size ≤ 18446744073709551615 * size := Nat.mul_le_mul_right _ (by omega)
    have hys : y * size ≤ 18446744073709551615 * size := Nat.mul_le_mul_right _ (by omega)
    split
    · split <;> constructor <;> simp only <;> omega
    · constructor <;> simp only <;> omega

end Generator

end LossyLink
