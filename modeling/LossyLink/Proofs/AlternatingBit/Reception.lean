import LossyLink.Proofs.AlternatingBit.Sides
import LossyLink.Proofs.Protocol.Reaction
import Mathlib.Data.List.Induction

/-! # What the alternating-bit receiver takes

The receiver remembers one bit. Over all packets that reach it, this comes to counting: it
takes a packet whose number is the parity of how many it has taken, and tells after each packet
which it took last. So a packet that comes again at once changes nothing.
-/

namespace LossyLink.AlternatingBit

theorem Receiver.sent_onPacket (r : Receiver) (p : Packet) :
    (r.onPacket p).2.filterMap Action.sent? = [ackFor (r.onPacket p).1.expected.flip] := by
  by_cases h : p.header.seq = r.expected.toUInt32
  · rw [onPacket_of_expected h]
    exact congrArg (fun b => [ackFor b]) (SeqBit.flip_flip _).symm
  · obtain ⟨text, hanswer⟩ := exists_onPacket_of_not_expected h
    rw [hanswer]
    rfl

theorem Receiver.timers_onPacket (r : Receiver) (p : Packet) :
    (r.onPacket p).2.filterMap Action.timer? = [] := by
  by_cases hseq : p.header.seq = r.expected.toUInt32
  · rw [onPacket_of_expected hseq]
    rfl
  · obtain ⟨text, hanswer⟩ := exists_onPacket_of_not_expected hseq
    rw [hanswer]
    rfl

/-- A packet is taken if its number is the number of packets taken so far, modulo two. -/
def take (taken : List Packet) (p : Packet) : List Packet :=
  if p.header.seq = UInt32.ofNat (taken.length % 2) then taken ++ [p] else taken

/-- The packets taken of a list, from the left to the right. -/
def alternating (ps : List Packet) : List Packet := ps.foldl take []

/-- How many packets are taken when one more comes that has this number. -/
def counted (n : Nat) (seq : UInt32) : Nat := if seq = UInt32.ofNat (n % 2) then n + 1 else n

theorem length_take (taken : List Packet) (p : Packet) :
    (take taken p).length = counted taken.length p.header.seq := by
  by_cases h : p.header.seq = UInt32.ofNat (taken.length % 2)
  · simp [take, counted, h]
  · simp [take, counted, h]

theorem le_counted (n : Nat) (seq : UInt32) : n ≤ counted n seq := by
  unfold counted
  split
  · exact Nat.le_succ n
  · exact Nat.le_refl n

theorem counted_le (n : Nat) (seq : UInt32) : counted n seq ≤ n + 1 := by
  unfold counted
  split
  · exact Nat.le_refl (n + 1)
  · exact Nat.le_succ n

theorem le_foldl_counted (seqs : List UInt32) (n : Nat) : n ≤ seqs.foldl counted n := by
  induction seqs generalizing n with
  | nil => exact Nat.le_refl n
  | cons seq seqs ih => exact Nat.le_trans (le_counted n seq) (ih _)

theorem foldl_counted_le (seqs : List UInt32) (n : Nat) :
    seqs.foldl counted n ≤ n + seqs.length := by
  induction seqs generalizing n with
  | nil => exact Nat.le_refl n
  | cons seq seqs ih =>
    have hseq := counted_le n seq
    have hseqs := ih (counted n seq)
    rw [List.foldl_cons, List.length_cons]
    omega

theorem alternating_append (ps qs : List Packet) :
    alternating (ps ++ qs) = qs.foldl take (alternating ps) := List.foldl_append

theorem alternating_concat (ps : List Packet) (p : Packet) :
    alternating (ps ++ [p]) = take (alternating ps) p := alternating_append ps [p]

theorem ofNat_ne_ofNat_succ (n : Nat) : UInt32.ofNat (n % 2) ≠ UInt32.ofNat ((n + 1) % 2) := by
  rcases Nat.mod_two_eq_zero_or_one n with hn | hn
  · have hsucc : (n + 1) % 2 = 1 := by omega
    rw [hn, hsucc]
    decide
  · have hsucc : (n + 1) % 2 = 0 := by omega
    rw [hn, hsucc]
    decide

theorem counted_counted (n : Nat) (seq : UInt32) :
    counted (counted n seq) seq = counted n seq := by
  by_cases h : seq = UInt32.ofNat (n % 2)
  · have hcounted : counted n seq = n + 1 := if_pos h
    rw [hcounted]
    apply if_neg
    rw [h]
    exact ofNat_ne_ofNat_succ n
  · have hcounted : counted n seq = n := if_neg h
    rw [hcounted, hcounted]

theorem take_take (taken : List Packet) (p : Packet) : take (take taken p) p = take taken p := by
  by_cases h : p.header.seq = UInt32.ofNat (taken.length % 2)
  · have htake : take taken p = taken ++ [p] := if_pos h
    rw [htake]
    apply if_neg
    rw [h, List.length_append]
    exact ofNat_ne_ofNat_succ taken.length
  · have htake : take taken p = taken := if_neg h
    rw [htake, htake]

/-- The number of the packet taken last tells how many were taken, modulo two. -/
theorem seq_getLast_alternating (ps : List Packet) :
    ((alternating ps).getLast?.map fun p => p.header.seq).getD 1 =
      UInt32.ofNat (((alternating ps).length + 1) % 2) := by
  induction ps using List.reverseRecOn with
  | nil => rfl
  | append_singleton ps p ih =>
    rw [alternating_concat]
    by_cases h : p.header.seq = UInt32.ofNat ((alternating ps).length % 2)
    · simp [take, h, Nat.add_assoc]
    · simpa [take, h] using ih

/-- What a fresh receiver answers to packets, one answer for each. -/
def answers (xs : List (Nat × Packet)) : List (List Action) :=
  (receiver.run (arriving xs) receiver.start).2

/-- What a fresh receiver delivers of packets. -/
def deliveries (xs : List (Nat × Packet)) : List Payload :=
  (answers xs).flatMap fun actions => actions.filterMap Action.delivered?

/-- The state of a fresh receiver after packets. -/
def reached (xs : List (Nat × Packet)) : Receiver := (receiver.run (arriving xs) receiver.start).1

section Run

variable {r : Receiver} {taken : List Packet}

theorem reached_concat (xs : List (Nat × Packet)) (x : Nat × Packet) :
    reached (xs ++ [x]) = ((reached xs).onPacket x.2).1 := by
  rw [reached, arriving, List.map_append, receiver.run_append]
  rfl

theorem answers_append_cons (xs : List (Nat × Packet)) (x : Nat × Packet)
    (ys : List (Nat × Packet)) : answers (xs ++ x :: ys) =
      answers xs ++ ((reached xs).onPacket x.2).2 ::
        (receiver.run (arriving ys) ((reached xs).onPacket x.2).1).2 := by
  rw [answers, arriving, List.map_append, receiver.run_append]
  rfl

theorem getElem?_answers (earlier : List (Nat × Packet)) (x : Nat × Packet)
    (later : List (Nat × Packet)) : (answers (earlier ++ x :: later))[earlier.length]? =
      some ((reached earlier).onPacket x.2).2 := by
  have hlength : (answers earlier).length = earlier.length := by
    rw [answers, receiver.length_run, arriving, List.length_map]
  rw [answers_append_cons, ← hlength, List.getElem?_append_right (Nat.le_refl _), Nat.sub_self]
  rfl

theorem deliveries_concat (xs : List (Nat × Packet)) (x : Nat × Packet) :
    deliveries (xs ++ [x]) =
      deliveries xs ++ ((reached xs).onPacket x.2).2.filterMap Action.delivered? := by
  rw [deliveries, answers_append_cons, List.flatMap_append]
  exact congrArg (deliveries xs ++ ·) (List.flatMap_singleton _ _)

/-- A receiver whose bit is the parity of the number of packets taken goes on like this. -/
theorem parity_onPacket {n : Nat} (h : r.expected.toUInt32 = UInt32.ofNat (n % 2)) (p : Packet) :
    (r.onPacket p).1.expected.toUInt32 = UInt32.ofNat (counted n p.header.seq % 2) := by
  by_cases hseq : p.header.seq = r.expected.toUInt32
  · have hcounted : counted n p.header.seq = n + 1 := if_pos (hseq.trans h)
    rw [Receiver.onPacket_of_expected hseq, hcounted]
    exact SeqBit.toUInt32_flip h
  · have hcounted : counted n p.header.seq = n := if_neg (h ▸ hseq)
    obtain ⟨text, hanswer⟩ := Receiver.exists_onPacket_of_not_expected hseq
    rw [hanswer, hcounted]
    exact h

theorem payloads_take (h : r.expected.toUInt32 = UInt32.ofNat (taken.length % 2)) (p : Packet) :
    (take taken p).map Packet.payload =
      taken.map Packet.payload ++ (r.onPacket p).2.filterMap Action.delivered? := by
  by_cases hseq : p.header.seq = r.expected.toUInt32
  · have htake : take taken p = taken ++ [p] := if_pos (hseq.trans h)
    rw [Receiver.onPacket_of_expected hseq, htake]
    exact List.map_append
  · have htake : take taken p = taken := if_neg (h ▸ hseq)
    obtain ⟨text, hanswer⟩ := Receiver.exists_onPacket_of_not_expected hseq
    rw [hanswer, htake]
    exact (List.append_nil _).symm

theorem length_delivered_onPacket {n : Nat} (h : r.expected.toUInt32 = UInt32.ofNat (n % 2))
    (p : Packet) : n + ((r.onPacket p).2.filterMap Action.delivered?).length =
      counted n p.header.seq := by
  by_cases hseq : p.header.seq = r.expected.toUInt32
  · have hcounted : counted n p.header.seq = n + 1 := if_pos (hseq.trans h)
    rw [Receiver.onPacket_of_expected hseq, hcounted]
    rfl
  · have hcounted : counted n p.header.seq = n := if_neg (h ▸ hseq)
    obtain ⟨text, hanswer⟩ := Receiver.exists_onPacket_of_not_expected hseq
    rw [hanswer, hcounted]
    rfl

/-- Over any packets the receiver counts those that it takes, modulo two, and delivers them. -/
theorem reached_alternating (xs : List (Nat × Packet)) :
    (reached xs).expected.toUInt32 =
        UInt32.ofNat ((alternating (xs.map Prod.snd)).length % 2) ∧
      deliveries xs = (alternating (xs.map Prod.snd)).map Packet.payload := by
  induction xs using List.reverseRecOn with
  | nil => exact ⟨rfl, rfl⟩
  | append_singleton xs x ih =>
    obtain ⟨hexpected, hdelivered⟩ := ih
    rw [List.map_append, List.map_singleton, alternating_concat]
    constructor
    · rw [reached_concat, length_take]
      exact parity_onPacket hexpected x.2
    · rw [deliveries_concat, hdelivered, payloads_take hexpected]

theorem alternating_repeat (earlier : List Packet) (p : Packet) (n : Nat) (later : List Packet) :
    alternating (earlier ++ p :: (List.replicate n p ++ later)) =
      alternating (earlier ++ p :: later) := by
  have hstays : ∀ n, (List.replicate n p).foldl take (take (alternating earlier) p) =
      take (alternating earlier) p := by
    intro n
    induction n with
    | zero => rfl
    | succ n ih => rw [List.replicate_succ, List.foldl_cons, take_take, ih]
  rw [alternating_append, alternating_append, List.foldl_cons, List.foldl_append, hstays,
    List.foldl_cons]

/-- What a fresh receiver delivers are the payloads of the packets taken. Each packet is
answered by one acknowledgement, which names the packet taken last. Copies of a packet that
come right after it change nothing of what is delivered. -/
theorem takes_alternating :
    (∀ xs, deliveries xs = (alternating (xs.map Prod.snd)).map Packet.payload) ∧
    (∀ earlier x later, ∃ actions ack,
      (answers (earlier ++ x :: later))[earlier.length]? = some actions ∧
      actions.filterMap Action.sent? = [ack] ∧
      ack.header.ack =
        UInt32.ofNat (((alternating ((earlier ++ [x]).map Prod.snd)).length + 1) % 2) ∧
      ack.header.ack = ((alternating ((earlier ++ [x]).map Prod.snd)).getLast?.map
        fun p => p.header.seq).getD 1) ∧
    ∀ earlier x later (times : List Nat),
      deliveries (earlier ++ x :: (times.map (fun time => (time, x.2)) ++ later)) =
        deliveries (earlier ++ x :: later) := by
  constructor
  · exact fun xs => (reached_alternating xs).2
  constructor
  · intro earlier x later
    have hexpected := (reached_alternating (earlier ++ [x])).1
    rw [reached_concat] at hexpected
    have hack := SeqBit.toUInt32_flip hexpected
    refine ⟨_, _, getElem?_answers earlier x later, Receiver.sent_onPacket _ _, hack, ?_⟩
    rw [seq_getLast_alternating]
    exact hack
  · intro earlier x later times
    rw [(reached_alternating _).2, (reached_alternating _).2]
    have hcopies : times.map (Prod.snd ∘ fun time => (time, x.2)) =
        List.replicate times.length x.2 := List.map_const
    simp only [List.map_append, List.map_cons, List.map_map, hcopies, alternating_repeat]

end Run

end LossyLink.AlternatingBit
