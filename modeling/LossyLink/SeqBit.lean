/-! # The alternating bit

Stop-and-wait protocols number their packets modulo two. A raw header field
names a bit only if it is 0 or 1.
-/

namespace LossyLink

inductive SeqBit | zero | one
  deriving DecidableEq, Repr, Inhabited

/-- A raw sequence number that names neither bit. -/
structure SeqBit.Foreign where
  raw : UInt32
  deriving DecidableEq, Repr

namespace SeqBit

def flip : SeqBit → SeqBit
  | zero => one
  | one => zero

def toUInt32 : SeqBit → UInt32
  | zero => 0
  | one => 1

def ofRaw (raw : UInt32) : Except Foreign SeqBit :=
  if raw = 0 then .ok zero else if raw = 1 then .ok one else .error ⟨raw⟩

def carriedBy (b : SeqBit) (raw : UInt32) : Bool := raw == b.toUInt32

def Foreign.message (f : Foreign) : String :=
  s!"sequence number {f.raw} is outside the alternating-bit space " ++ "\x7b0, 1\x7d"

@[simp] theorem flip_flip (b : SeqBit) : b.flip.flip = b := by cases b <;> rfl

theorem flip_ne (b : SeqBit) : b.flip ≠ b := by cases b <;> decide

theorem eq_flip_of_ne {b c : SeqBit} (h : b ≠ c) : c = b.flip := by
  cases b <;> cases c <;> first | rfl | exact absurd rfl h

@[simp] theorem ofRaw_toUInt32 (b : SeqBit) : ofRaw b.toUInt32 = .ok b := by cases b <;> rfl

theorem toUInt32_injective {b c : SeqBit} (h : b.toUInt32 = c.toUInt32) : b = c := by
  cases b <;> cases c <;> first | rfl | exact absurd h (by decide)

theorem toUInt32_flip {b : SeqBit} {n : Nat} (h : b.toUInt32 = UInt32.ofNat (n % 2)) :
    b.flip.toUInt32 = UInt32.ofNat ((n + 1) % 2) := by
  rcases Nat.mod_two_eq_zero_or_one n with hn | hn
  · have hsucc : (n + 1) % 2 = 1 := by omega
    rw [hn] at h
    rw [hsucc, toUInt32_injective (b := b) (c := .zero) h]
    rfl
  · have hsucc : (n + 1) % 2 = 0 := by omega
    rw [hn] at h
    rw [hsucc, toUInt32_injective (b := b) (c := .one) h]
    rfl

theorem carriedBy_iff {b : SeqBit} {raw : UInt32} :
    b.carriedBy raw = true ↔ raw = b.toUInt32 := by
  simp [carriedBy]

theorem ofRaw_eq_ok_iff {raw : UInt32} {b : SeqBit} :
    ofRaw raw = .ok b ↔ raw = b.toUInt32 := by
  constructor
  · intro h
    unfold ofRaw at h
    split at h
    · cases h; assumption
    · split at h
      · cases h; assumption
      · cases h
  · rintro rfl; simp

end SeqBit

end LossyLink
