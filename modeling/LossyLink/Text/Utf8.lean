/-! # Reading bytes as text

Bytes are read as UTF-8. Where they are not, each longest piece that could have
begun a character becomes one replacement character.
-/

namespace LossyLink.Text

/-- A lead byte: the bits it contributes, the range of the byte after it, and how
many bytes follow in all. -/
structure Lead where
  bits : Nat
  low : UInt8 := 0x80
  high : UInt8 := 0xBF
  following : Nat

/-- The lead bytes of sequences longer than one byte. Some of them narrow the
byte after them, so that no character has two forms and none is a surrogate. -/
def Lead.of? (b : UInt8) : Option Lead :=
  if b < 0xC2 then none
  else if b ≤ 0xDF then some { bits := b.toNat - 0xC0, following := 1 }
  else if b = 0xE0 then some { bits := 0, low := 0xA0, following := 2 }
  else if b = 0xED then some { bits := 0xD, high := 0x9F, following := 2 }
  else if b ≤ 0xEF then some { bits := b.toNat - 0xE0, following := 2 }
  else if b = 0xF0 then some { bits := 0, low := 0x90, following := 3 }
  else if b ≤ 0xF3 then some { bits := b.toNat - 0xF0, following := 3 }
  else if b = 0xF4 then some { bits := 4, high := 0x8F, following := 3 }
  else none

/-- Read the bytes that follow a lead. The second part is what is left, also when
the sequence breaks off. -/
def readFollowing : Nat → Nat → UInt8 → UInt8 → List UInt8 → Option Nat × List UInt8
  | 0, bits, _, _, bytes => (some bits, bytes)
  | _ + 1, _, _, _, [] => (none, [])
  | n + 1, bits, low, high, b :: bytes =>
    if low ≤ b ∧ b ≤ high then readFollowing n (64 * bits + (b.toNat - 0x80)) 0x80 0xBF bytes
    else (none, b :: bytes)

theorem length_readFollowing_le (n bits : Nat) (low high : UInt8) (bytes : List UInt8) :
    (readFollowing n bits low high bytes).2.length ≤ bytes.length := by
  induction n generalizing bits low high bytes with
  | zero => simp [readFollowing]
  | succ n ih =>
    cases bytes with
    | nil => simp [readFollowing]
    | cons b bytes =>
      simp only [readFollowing]
      split
      · exact Nat.le_succ_of_le (ih ..)
      · simp

def replacement : Char := '\uFFFD'

def decodeBytes (bytes : List UInt8) : List Char :=
  match bytes with
  | [] => []
  | b :: rest =>
    if b < 0x80 then Char.ofNat b.toNat :: decodeBytes rest
    else
      match Lead.of? b with
      | none => replacement :: decodeBytes rest
      | some lead =>
        let read := readFollowing lead.following lead.bits lead.low lead.high rest
        (read.1.map Char.ofNat).getD replacement :: decodeBytes read.2
termination_by bytes.length
decreasing_by
  all_goals simp only [List.length_cons]
  · omega
  · omega
  · exact Nat.lt_succ_of_le (length_readFollowing_le ..)

def decodeUtf8 (bytes : List UInt8) : String := String.ofList (decodeBytes bytes)

def encodeUtf8 (text : String) : List UInt8 := text.toUTF8.toList

end LossyLink.Text
