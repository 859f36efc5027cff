import LossyLink.Packet.Wire
import Mathlib.Algebra.GroupWithZero.Nat
import Mathlib.Data.List.Basic

/-! # Reading what was written

Bytes are the wire form of a packet exactly if there are enough of them for a header and the
reserved one is zero, and then they are the wire form of one packet only, which reading gives
back. All other bytes are refused for one of two reasons. A header takes sixteen bytes, so
headers written one after another can be read one after another.
-/

namespace LossyLink

namespace Wire

/-- The number that bytes write, the most significant one first. -/
def value (bytes : List UInt8) : Nat := bytes.foldl (fun n byte => 256 * n + byte.toNat) 0

theorem value_pair (hi lo : UInt8) : value [hi, lo] = 256 * hi.toNat + lo.toNat := by
  simp [value]

theorem value_quad (a b c d : UInt8) : value [a, b, c, d] =
    16777216 * a.toNat + 65536 * b.toNat + 256 * c.toNat + d.toNat := by
  simp +arith [value]

theorem or_eq_add {x y k : Nat} (hy : y < 2 ^ k) : 2 ^ k * x ||| y = 2 ^ k * x + y := by
  rw [Nat.mul_comm, ← Nat.shiftLeft_eq, Nat.shiftLeft_add_eq_or_of_lt hy]

theorem toNat_word16 (hi lo : UInt8) : (word16 hi lo).toNat = 256 * hi.toNat + lo.toNat := by
  have hhi := hi.toNat_lt
  have hshift : hi.toNat <<< 8 % 65536 = 2 ^ 8 * hi.toNat := by
    rw [Nat.shiftLeft_eq]
    omega
  show hi.toNat <<< 8 % 65536 ||| lo.toNat = _
  rw [hshift]
  exact or_eq_add lo.toNat_lt

theorem toNat_word32 (a b c d : UInt8) : (word32 a b c d).toNat =
    16777216 * a.toNat + 65536 * b.toNat + 256 * c.toNat + d.toNat := by
  have ha := a.toNat_lt
  have hb := b.toNat_lt
  have hc := c.toNat_lt
  have hfirst : a.toNat <<< 24 % 4294967296 = 2 ^ 24 * a.toNat := by
    rw [Nat.shiftLeft_eq]
    omega
  have hsecond : b.toNat <<< 16 % 4294967296 = 2 ^ 16 * b.toNat := by
    rw [Nat.shiftLeft_eq]
    omega
  have hthird : c.toNat <<< 8 % 4294967296 = 2 ^ 8 * c.toNat := by
    rw [Nat.shiftLeft_eq]
    omega
  calc (word32 a b c d).toNat
      = a.toNat <<< 24 % 4294967296 ||| b.toNat <<< 16 % 4294967296 |||
        c.toNat <<< 8 % 4294967296 ||| d.toNat := rfl
    _ = 2 ^ 24 * a.toNat + 2 ^ 16 * b.toNat ||| 2 ^ 8 * c.toNat ||| d.toNat := by
      rw [hfirst, hsecond, hthird, or_eq_add (by omega)]
    _ = 2 ^ 16 * (256 * a.toNat + b.toNat) + 2 ^ 8 * c.toNat ||| d.toNat := by
      rw [show 2 ^ 24 * a.toNat + 2 ^ 16 * b.toNat = 2 ^ 16 * (256 * a.toNat + b.toNat) by omega,
        or_eq_add (by omega)]
    _ = 2 ^ 8 * (65536 * a.toNat + 256 * b.toNat + c.toNat) + d.toNat := by
      rw [show 2 ^ 16 * (256 * a.toNat + b.toNat) + 2 ^ 8 * c.toNat =
        2 ^ 8 * (65536 * a.toNat + 256 * b.toNat + c.toNat) by omega, or_eq_add d.toNat_lt]
    _ = 16777216 * a.toNat + 65536 * b.toNat + 256 * c.toNat + d.toNat := by omega

theorem bytes16_word16 (hi lo : UInt8) : bytes16 (word16 hi lo) = [hi, lo] := by
  have hhi := hi.toNat_lt
  have hlo := lo.toNat_lt
  have hword := toNat_word16 hi lo
  have hfirst : (word16 hi lo >>> 8).toUInt8 = hi := by
    apply UInt8.toNat_inj.mp
    show (word16 hi lo).toNat >>> 8 % 256 = _
    rw [Nat.shiftRight_eq_div_pow]
    omega
  have hsecond : (word16 hi lo).toUInt8 = lo := by
    apply UInt8.toNat_inj.mp
    show (word16 hi lo).toNat % 256 = _
    omega
  rw [bytes16, hfirst, hsecond]

theorem value_bytes16 (w : UInt16) : value (bytes16 w) = w.toNat := by
  have hw := w.toNat_lt
  rw [bytes16, value_pair]
  show 256 * (w.toNat >>> 8 % 256) + w.toNat % 256 = _
  rw [Nat.shiftRight_eq_div_pow]
  omega

theorem word16_bytes16 (w : UInt16) : word16 (w >>> 8).toUInt8 w.toUInt8 = w := by
  apply UInt16.toNat_inj.mp
  rw [toNat_word16, ← value_pair]
  exact value_bytes16 w

theorem bytes32_word32 (a b c d : UInt8) : bytes32 (word32 a b c d) = [a, b, c, d] := by
  have ha := a.toNat_lt
  have hb := b.toNat_lt
  have hc := c.toNat_lt
  have hd := d.toNat_lt
  have hword := toNat_word32 a b c d
  have hbyte : ∀ {x : UInt8} {k : UInt32},
      (word32 a b c d).toNat / 2 ^ (k.toNat % 32) % 256 = x.toNat →
      (word32 a b c d >>> k).toUInt8 = x := by
    intro x k hx
    apply UInt8.toNat_inj.mp
    show (word32 a b c d).toNat >>> (k.toNat % 32) % 256 = _
    rw [Nat.shiftRight_eq_div_pow, hx]
  have hlast : (word32 a b c d).toUInt8 = d := by
    apply UInt8.toNat_inj.mp
    show (word32 a b c d).toNat % 256 = _
    omega
  rw [bytes32, hlast, hbyte (x := a) (by show _ / 2 ^ 24 % 256 = _; omega),
    hbyte (x := b) (by show _ / 2 ^ 16 % 256 = _; omega),
    hbyte (x := c) (by show _ / 2 ^ 8 % 256 = _; omega)]

theorem value_bytes32 (w : UInt32) : value (bytes32 w) = w.toNat := by
  have hw := w.toNat_lt
  rw [bytes32, value_quad]
  show 16777216 * (w.toNat >>> 24 % 256) + 65536 * (w.toNat >>> 16 % 256) +
    256 * (w.toNat >>> 8 % 256) + w.toNat % 256 = _
  simp only [Nat.shiftRight_eq_div_pow]
  omega

theorem word32_bytes32 (w : UInt32) :
    word32 (w >>> 24).toUInt8 (w >>> 16).toUInt8 (w >>> 8).toUInt8 w.toUInt8 = w := by
  apply UInt32.toNat_inj.mp
  rw [toNat_word32, ← value_quad]
  exact value_bytes32 w

end Wire

open Wire

namespace Header

/-- What reading a header can come to, and the bytes that are left over. -/
inductive Reading (bytes : List UInt8) : Except WireError Header × List UInt8 → Prop where
  | header {h : Header} {rest : List UInt8} (eq : bytes = h.encode ++ rest) :
      Reading bytes (.ok h, rest)
  | truncated (lt : bytes.length < size) :
      Reading bytes (.error (.truncated ⟨size, bytes.length⟩), bytes)
  | reserved {byte : UInt8} (le : size ≤ bytes.length) (eq : bytes[9]? = some byte)
      (ne : byte ≠ 0) : Reading bytes (.error (.reserved byte), bytes.drop 10)

theorem read_encode_append (h : Header) (rest : List UInt8) :
    read (h.encode ++ rest) = (.ok h, rest) := by
  simp only [encode, bytes32, bytes16, List.cons_append, List.nil_append, read, if_true,
    word32_bytes32, word16_bytes16]

theorem reading_read (bytes : List UInt8) : Reading bytes (read bytes) := by
  fun_cases read bytes with
  | case1 s₃ s₂ s₁ s₀ a₃ a₂ a₁ a₀ flags w₁ w₀ c₁ c₀ u₁ u₀ rest =>
    apply Reading.header
    simp only [encode, bytes32_word32, bytes16_word16, List.cons_append, List.nil_append]
  | case2 s₃ s₂ s₁ s₀ a₃ a₂ a₁ a₀ flags reserved w₁ w₀ c₁ c₀ u₁ u₀ rest hne =>
    exact .reserved (by simp [size]) rfl hne
  | case3 =>
    rename_i hshort
    apply Reading.truncated
    apply Nat.lt_of_not_ge
    intro hlong
    rcases bytes with _ | ⟨b₀, _ | ⟨b₁, _ | ⟨b₂, _ | ⟨b₃, _ | ⟨b₄, _ | ⟨b₅, _ | ⟨b₆, _ | ⟨b₇,
      _ | ⟨b₈, _ | ⟨b₉, _ | ⟨b₁₀, _ | ⟨b₁₁, _ | ⟨b₁₂, _ | ⟨b₁₃, _ | ⟨b₁₄, _ | ⟨b₁₅,
      rest⟩⟩⟩⟩⟩⟩⟩⟩⟩⟩⟩⟩⟩⟩⟩⟩
    case cons.cons.cons.cons.cons.cons.cons.cons.cons.cons.cons.cons.cons.cons.cons.cons =>
      exact hshort _ _ _ _ _ _ _ _ _ _ _ _ _ _ _ _ _ rfl
    all_goals simp [size] at hlong

theorem getElem?_encode_append (h : Header) (rest : List UInt8) :
    (h.encode ++ rest)[9]? = some 0 := rfl

theorem read_eq_iff {bytes : List UInt8} {r : Except WireError Header × List UInt8} :
    read bytes = r ↔ Reading bytes r := by
  constructor
  · rintro rfl
    exact reading_read bytes
  · intro hr
    have hread := reading_read bytes
    generalize hr' : read bytes = r' at hread
    cases hr with
    | @header h rest eq =>
      rw [eq, read_encode_append] at hr'
      exact hr'.symm
    | truncated lt =>
      cases hread with
      | @header h rest eq =>
        rw [eq, List.length_append, length_encode] at lt
        omega
      | truncated _ => rfl
      | reserved le _ _ => omega
    | reserved le eq ne =>
      cases hread with
      | @header h rest eq' =>
        rw [eq', getElem?_encode_append] at eq
        cases eq
        exact absurd rfl ne
      | truncated lt => omega
      | reserved _ eq' _ =>
        cases eq.symm.trans eq'
        rfl

/-- Read headers one after another. -/
def readMany : Nat → List UInt8 → Except WireError (List Header) × List UInt8
  | 0, bytes => (.ok [], bytes)
  | n + 1, bytes =>
    match read bytes with
    | (.error e, rest) => (.error e, rest)
    | (.ok h, rest) =>
      match readMany n rest with
      | (.error e, rest) => (.error e, rest)
      | (.ok hs, rest) => (.ok (h :: hs), rest)

theorem readMany_flatMap_encode (hs : List Header) (tail : List UInt8) :
    readMany hs.length (hs.flatMap encode ++ tail) = (.ok hs, tail) := by
  induction hs with
  | nil => rfl
  | cons h hs ih =>
    simp only [List.length_cons, List.flatMap_cons, List.append_assoc, readMany,
      read_encode_append, ih]

/-- Where the fields of a header stand among its bytes. -/
structure LaidOut (h : Header) (bytes : List UInt8) : Prop where
  length : bytes.length = 16
  seq : value (bytes.take 4) = h.seq.toNat
  ack : value ((bytes.drop 4).take 4) = h.ack.toNat
  flags : bytes[8]? = some h.flags
  reserved : bytes[9]? = some 0
  window : value ((bytes.drop 10).take 2) = h.window.toNat
  checksum : value ((bytes.drop 12).take 2) = h.checksum.toNat
  urgent : value (bytes.drop 14) = h.urgent.toNat

theorem laidOut_encode (h : Header) : h.LaidOut h.encode where
  length := rfl
  seq := value_bytes32 h.seq
  ack := value_bytes32 h.ack
  flags := rfl
  reserved := rfl
  window := value_bytes16 h.window
  checksum := value_bytes16 h.checksum
  urgent := value_bytes16 h.urgent

example : encode ⟨0x01020304, 0xA1A2A3A4, 0x10, 0xB1B2, 0xC1C2, 0xD1D2⟩ =
    [1, 2, 3, 4, 0xA1, 0xA2, 0xA3, 0xA4, 0x10, 0, 0xB1, 0xB2, 0xC1, 0xC2, 0xD1, 0xD2] := by
  decide

end Header

namespace Packet

variable {bytes : List UInt8} {p : Packet}

/-- Reading undoes writing, and writing undoes reading. -/
theorem ofBytes_eq_ok_iff : ofBytes bytes = .ok p ↔ p.toBytes = bytes := by
  constructor
  · intro h
    unfold ofBytes at h
    split at h
    · rename_i header payload hread
      cases h
      cases Header.read_eq_iff.mp hread with
      | header eq => exact eq.symm
    · cases h
  · rintro rfl
    simp only [ofBytes, toBytes, Header.read_encode_append]

theorem ofBytes_eq_error_iff {e : WireError} :
    ofBytes bytes = .error e ↔ ∃ rest, Header.Reading bytes (.error e, rest) := by
  simp only [← Header.read_eq_iff, ofBytes]
  constructor
  · intro h
    split at h
    · cases h
    · rename_i e' rest hread
      cases h
      exact ⟨rest, hread⟩
  · rintro ⟨rest, hread⟩
    simp only [hread]

/-- A sequence of bytes is the wire form of a packet exactly if it is long enough and its
reserved byte is zero. -/
theorem exists_ofBytes_eq_ok_iff :
    (∃ p, ofBytes bytes = .ok p) ↔ 16 ≤ bytes.length ∧ bytes[9]? = some 0 := by
  constructor
  · rintro ⟨p, hp⟩
    obtain rfl := ofBytes_eq_ok_iff.mp hp
    constructor
    · rw [toBytes, List.length_append, Header.length_encode]
      exact Nat.le_add_right _ _
    · exact Header.getElem?_encode_append p.header p.payload
  · rintro ⟨hlen, hreserved⟩
    have hread := Header.reading_read bytes
    generalize Header.read bytes = r at hread
    cases hread with
    | @header h rest eq => exact ⟨⟨h, rest⟩, ofBytes_eq_ok_iff.mpr eq.symm⟩
    | truncated lt => exact absurd lt (Nat.not_lt.mpr hlen)
    | reserved le eq ne =>
      cases eq.symm.trans hreserved
      exact absurd rfl ne

theorem ofBytes_eq_truncated_iff {n : Shortage} :
    ofBytes bytes = .error (.truncated n) ↔ bytes.length < 16 ∧ n = ⟨16, bytes.length⟩ := by
  rw [ofBytes_eq_error_iff]
  constructor
  · rintro ⟨rest, hread⟩
    cases hread with
    | truncated lt => exact ⟨lt, rfl⟩
  · rintro ⟨hlen, rfl⟩
    exact ⟨bytes, .truncated hlen⟩

theorem ofBytes_eq_reserved_iff {byte : UInt8} : ofBytes bytes = .error (.reserved byte) ↔
    16 ≤ bytes.length ∧ bytes[9]? = some byte ∧ byte ≠ 0 := by
  rw [ofBytes_eq_error_iff]
  constructor
  · rintro ⟨rest, hread⟩
    cases hread with
    | reserved le eq ne => exact ⟨le, eq, ne⟩
  · rintro ⟨hlen, hbyte, hne⟩
    exact ⟨bytes.drop 10, .reserved hlen hbyte hne⟩

end Packet

theorem Header.read_eq_ok_iff {bytes rest : List UInt8} {h : Header} :
    Header.read bytes = (.ok h, rest) ↔ bytes.take 16 = h.encode ∧ bytes.drop 16 = rest := by
  rw [Header.read_eq_iff]
  constructor
  · rintro ⟨rfl⟩
    exact ⟨List.take_left' h.length_encode, List.drop_left' h.length_encode⟩
  · rintro ⟨htake, rfl⟩
    exact .header (by rw [← htake, List.take_append_drop])

/-- The wire form is a bijection between packets and the sequences of at least sixteen bytes
whose reserved byte is zero. Any other sequence is refused, as too short if it is and for its
reserved byte otherwise. A header has its fields at fixed places, the most significant byte
first, and reading one takes its sixteen bytes and no others. -/
theorem wire_form_bijective :
    (∀ bytes,
      (∀ p, Packet.ofBytes bytes = .ok p ↔ p.toBytes = bytes) ∧
      ((∃ p, Packet.ofBytes bytes = .ok p) ↔ 16 ≤ bytes.length ∧ bytes[9]? = some 0) ∧
      (∀ n, Packet.ofBytes bytes = .error (.truncated n) ↔
        bytes.length < 16 ∧ n = ⟨16, bytes.length⟩) ∧
      (∀ byte, Packet.ofBytes bytes = .error (.reserved byte) ↔
        16 ≤ bytes.length ∧ bytes[9]? = some byte ∧ byte ≠ 0) ∧
      ∀ h rest, Header.read bytes = (.ok h, rest) ↔
        bytes.take 16 = h.encode ∧ bytes.drop 16 = rest) ∧
    (∀ headers tail, Header.readMany headers.length (headers.flatMap Header.encode ++ tail) =
      (.ok headers, tail)) ∧
    ∀ h : Header, h.LaidOut h.encode := by
  refine ⟨?_, Header.readMany_flatMap_encode, Header.laidOut_encode⟩
  intro bytes
  refine ⟨?_, Packet.exists_ofBytes_eq_ok_iff, ?_, ?_, ?_⟩
  · exact fun p => Packet.ofBytes_eq_ok_iff
  · exact fun n => Packet.ofBytes_eq_truncated_iff
  · exact fun byte => Packet.ofBytes_eq_reserved_iff
  · exact fun h rest => Header.read_eq_ok_iff

end LossyLink
