import Mathlib.Logic.Relation

/-! # The course of a stop-and-wait transfer

Where the message under way stands, when, and what has been counted so far. Packets have no
contents here, only the times at which they arrive and what the channel did to them. Each
fault of the channel costs one attempt at most, and a sender that answers every bad
acknowledgement at once pays exactly for the packets that were dropped and for the
acknowledgements that were damaged.
-/

namespace LossyLink

/-- Where the message under way stands. -/
inductive Stage where
  /-- There is none. -/
  | idle
  /-- Nothing of it is on its way; the timer has to bring it on. -/
  | lost
  /-- Its packet will reach the receiver. -/
  | outbound (due : Nat) (damaged : Bool)
  /-- An answer will reach the sender; a good one acknowledges the message. -/
  | inbound (due : Nat) (good : Bool)
  deriving DecidableEq, Repr

structure Course where
  stage : Stage
  now : Nat
  /-- When a packet was last sent to the receiver. -/
  sentAt : Nat
  /-- When the application last submitted something. -/
  last : Nat
  sent : Nat
  accepted : Nat
  confirmed : Nat
  /-- How many messages wait for their turn. -/
  backlog : Nat
  drops : Nat
  damagedData : Nat
  damagedAcks : Nat
  deriving DecidableEq, Repr

namespace Course

/-- Before anything happens. -/
def start : Course := ⟨.idle, 0, 0, 0, 0, 0, 0, 0, 0, 0, 0⟩

/-- A packet is sent to the receiver, over a channel that takes so long at most. -/
inductive Sent (latency time : Nat) (x : Course) : Course → Prop where
  | dropped : Sent latency time x { x with
      stage := .lost, now := time, sentAt := time, sent := x.sent + 1, drops := x.drops + 1 }
  | carried {due : Nat} {damaged : Bool} (le : due ≤ time + latency) :
      Sent latency time x { x with
        stage := .outbound due damaged, now := time, sentAt := time, sent := x.sent + 1,
        damagedData := x.damagedData + damaged.toNat }

/-- Eager are ends that take every copy of a message for good and answer every bad
acknowledgement with the message, and turn away what they cannot send. -/
inductive Move (timeout latency : Nat) (eager : Prop) (x : Course) : Course → Prop where
  | submit {time : Nat} {y : Course} (h : x.stage = .idle) (le : x.now ≤ time)
      (hy : Sent latency time { x with accepted := x.accepted + 1, last := time } y) :
      Move timeout latency eager x y
  | keep {time k : Nat} (le : x.now ≤ time) (hk : x.stage = .idle ∨ eager → k = 0) :
      Move timeout latency eager x { x with
        now := time, last := time, accepted := x.accepted + k, backlog := x.backlog + k }
  | answerDropped {due : Nat} {damaged : Bool} (h : x.stage = .outbound due damaged)
      (le : x.now ≤ due) :
      Move timeout latency eager x { x with stage := .lost, now := due, drops := x.drops + 1 }
  | answerCarried {due due' : Nat} {damaged good damaged' : Bool}
      (h : x.stage = .outbound due damaged) (le : x.now ≤ due) (le' : due' ≤ due + latency)
      (taken : eager ∨ damaged = false → good = !damaged') :
      Move timeout latency eager x { x with
        stage := .inbound due' good, now := due,
        damagedAcks := x.damagedAcks + damaged'.toNat }
  | ignore {due : Nat} (h : x.stage = .inbound due false) (le : x.now ≤ due) (he : ¬ eager) :
      Move timeout latency eager x { x with stage := .lost, now := due }
  | again {due : Nat} {y : Course} (h : x.stage = .inbound due false) (le : x.now ≤ due)
      (hy : Sent latency due x y) : Move timeout latency eager x y
  | finish {due : Nat} (h : x.stage = .inbound due true) (le : x.now ≤ due)
      (hb : x.backlog = 0) :
      Move timeout latency eager x { x with
        stage := .idle, now := due, confirmed := x.confirmed + 1 }
  | next {due b : Nat} {y : Course} (h : x.stage = .inbound due true) (le : x.now ≤ due)
      (hb : x.backlog = b + 1)
      (hy : Sent latency due { x with confirmed := x.confirmed + 1, backlog := b } y) :
      Move timeout latency eager x y
  | expire {y : Course} (h : x.stage = .lost) (le : x.now ≤ x.sentAt + timeout)
      (hy : Sent latency (x.sentAt + timeout) x y) : Move timeout latency eager x y

abbrev Moves (timeout latency : Nat) (eager : Prop) : Course → Course → Prop :=
  Relation.ReflTransGen (Move timeout latency eager)

variable {timeout latency time : Nat} {eager : Prop} {x y : Course}

def faults (x : Course) : Nat := x.drops + x.damagedData + x.damagedAcks

/-- A fault has already been counted that will make another packet necessary. -/
def owed (x : Course) : Nat :=
  match x.stage with
  | .idle => 0
  | .lost => 1
  | .outbound _ damaged => damaged.toNat
  | .inbound _ good => (!good).toNat

/-- A message is under way. -/
def busy (x : Course) : Nat :=
  match x.stage with
  | .idle => 0
  | .lost => 1
  | .outbound .. => 1
  | .inbound .. => 1

theorem eq_idle_of_busy_eq_zero (h : x.busy = 0) : x.stage = .idle := by
  unfold busy at h
  split at h
  · assumption
  all_goals cases h

/-- The time that submissions, faults and acknowledged messages account for. -/
def allowance (timeout latency : Nat) (x : Course) : Nat :=
  x.last + timeout * x.faults + 2 * latency * x.confirmed

/-- What the stage says about the times. -/
def Timely (timeout latency : Nat) (x : Course) : Prop :=
  match x.stage with
  | .idle => x.backlog = 0 ∧ x.now ≤ x.allowance timeout latency
  | .lost => x.sentAt + timeout ≤ x.allowance timeout latency
  | .outbound due damaged => due ≤ x.sentAt + latency ∧
      x.sentAt + timeout * damaged.toNat ≤ x.allowance timeout latency
  | .inbound due good => due ≤ x.sentAt + 2 * latency ∧
      x.sentAt + timeout * (!good).toNat ≤ x.allowance timeout latency

structure Covered (timeout latency : Nat) (x : Course) : Prop where
  last_le : x.last ≤ x.now
  lower : x.accepted ≤ x.sent + x.backlog
  upper : x.sent + x.owed + x.backlog ≤ x.accepted + x.faults
  settled : x.confirmed + x.busy + x.backlog = x.accepted
  timely : x.Timely timeout latency

theorem covered_start : start.Covered timeout latency :=
  ⟨Nat.le_refl _, Nat.le_refl _, Nat.le_refl _, rfl, rfl, Nat.zero_le _⟩

theorem covered_of_sent (hy : Sent latency time x y) (last_le : x.last ≤ time)
    (lower : x.accepted ≤ x.sent + 1 + x.backlog)
    (upper : x.sent + 1 + x.backlog ≤ x.accepted + x.faults)
    (settled : x.confirmed + 1 + x.backlog = x.accepted)
    (timely : time ≤ x.allowance timeout latency) : y.Covered timeout latency := by
  unfold allowance faults at *
  rw [Nat.mul_add, Nat.mul_add] at timely
  cases hy with
  | dropped =>
    refine ⟨last_le, lower, ?_, settled, ?_⟩
    · simp only [owed, faults]
      omega
    · simp only [Timely, allowance, faults, Nat.mul_add, Nat.mul_one]
      omega
  | @carried due damaged le =>
    refine ⟨last_le, lower, ?_, settled, le, ?_⟩
    · simp only [owed, faults]
      omega
    · simp only [allowance, faults, Nat.mul_add]
      omega

/-- An answer is bad because it was damaged itself or answers a damaged packet. -/
theorem toNat_bad_le {damaged good damaged' : Bool} (h : damaged = false → good = !damaged') :
    (!good).toNat ≤ damaged.toNat + damaged'.toNat := by
  cases damaged with
  | false => simp [h rfl]
  | true => exact Nat.le_trans (Bool.toNat_le _) (Nat.le_add_right _ _)

theorem Covered.move (hlt : 2 * latency < timeout) (h : x.Covered timeout latency)
    (hm : Move timeout latency eager x y) : y.Covered timeout latency := by
  obtain ⟨last_le, lower, upper, settled, timely⟩ := h
  cases hm with
  | submit h le hy =>
    simp only [Timely, owed, busy, h] at timely upper settled
    refine covered_of_sent hy ?_ ?_ ?_ ?_ ?_
    all_goals simp only [allowance, faults] at *
    all_goals omega
  | @keep time k le hk =>
    have hidle : x.stage = .idle → k = 0 := fun h => hk (.inl h)
    refine ⟨Nat.le_refl _, ?_, ?_, ?_, ?_⟩
    · simp only
      omega
    · simp only [owed, faults] at *
      omega
    · simp only [busy] at *
      omega
    · simp only [Timely, allowance, faults] at timely ⊢
      split at timely
      · rename_i hs
        have hk := hidle hs
        omega
      all_goals omega
  | answerDropped h le =>
    simp only [Timely, owed, busy, h] at timely upper settled
    refine ⟨Nat.le_trans last_le le, lower, ?_, settled, ?_⟩
    · simp only [owed, faults] at *
      omega
    · simp only [Timely, allowance, faults, Nat.mul_add, Nat.mul_one] at *
      omega
  | @answerCarried due due' damaged good damaged' h le le' taken =>
    simp only [Timely, owed, busy, h] at timely upper settled
    have hbad := toNat_bad_le fun h => taken (.inr h)
    have hcost := Nat.mul_le_mul_left timeout hbad
    refine ⟨Nat.le_trans last_le le, lower, ?_, settled, ?_, ?_⟩
    · simp only [owed, faults] at *
      omega
    · simp only
      omega
    · simp only [allowance, faults, Nat.mul_add] at *
      omega
  | ignore h le he =>
    simp only [Timely, owed, busy, h] at timely upper settled
    refine ⟨Nat.le_trans last_le le, lower, upper, settled, ?_⟩
    simp only [Timely, allowance, faults, Bool.not_false, Bool.toNat_true, Nat.mul_one] at *
    omega
  | again h le hy =>
    simp only [Timely, owed, busy, h] at timely upper settled
    refine covered_of_sent hy (Nat.le_trans last_le le) ?_ ?_ ?_ ?_
    all_goals
      simp only [allowance, faults, Bool.not_false, Bool.toNat_true, Nat.mul_one] at *
      omega
  | finish h le hb =>
    simp only [Timely, owed, busy, h] at timely upper settled
    refine ⟨Nat.le_trans last_le le, lower, ?_, ?_, hb, ?_⟩
    · simp only [owed, faults] at *
      omega
    · simp only [busy]
      omega
    · simp only [allowance, faults, Nat.mul_add, Nat.mul_one] at *
      omega
  | next h le hb hy =>
    simp only [Timely, owed, busy, h] at timely upper settled
    refine covered_of_sent hy (Nat.le_trans last_le le) ?_ ?_ ?_ ?_
    all_goals
      simp only [allowance, faults, Nat.mul_add, Nat.mul_one] at *
      omega
  | expire h le hy =>
    simp only [Timely, owed, busy, h] at timely upper settled
    refine covered_of_sent hy (Nat.le_trans last_le le) ?_ ?_ ?_ ?_
    all_goals
      simp only [allowance, faults] at *
      omega

theorem covered_of_moves (hlt : 2 * latency < timeout) (h : Moves timeout latency eager start x) :
    x.Covered timeout latency := by
  induction h with
  | refl => exact covered_start
  | tail _ hm ih => exact ih.move hlt hm

/-- What has to be made up for by another packet. -/
def debt (x : Course) : Nat :=
  match x.stage with
  | .idle => 0
  | .lost => 1
  | .outbound .. => 0
  | .inbound _ good => (!good).toNat

/-- The time that submissions, drops and damaged acknowledgements account for. -/
def grant (timeout latency : Nat) (x : Course) : Nat :=
  x.last + timeout * x.drops + 2 * latency * x.damagedAcks

/-- The same as above where a damaged acknowledgement costs a way there and back. -/
def Prompt (timeout latency : Nat) (x : Course) : Prop :=
  match x.stage with
  | .idle => x.now ≤ x.grant timeout latency + 2 * latency
  | .lost => x.sentAt + timeout ≤ x.grant timeout latency
  | .outbound due _ => due ≤ x.sentAt + latency ∧ x.sentAt ≤ x.grant timeout latency
  | .inbound due good => due ≤ x.sentAt + 2 * latency ∧
      x.sentAt + 2 * latency * (!good).toNat ≤ x.grant timeout latency

structure Paid (timeout latency : Nat) (x : Course) : Prop where
  last_le : x.last ≤ x.now
  backlog : x.backlog = 0
  count : x.sent + x.debt = x.accepted + x.drops + x.damagedAcks
  prompt : x.Prompt timeout latency

theorem paid_start : start.Paid timeout latency :=
  ⟨Nat.le_refl _, rfl, rfl, Nat.zero_le _⟩

theorem paid_of_sent (hy : Sent latency time x y) (last_le : x.last ≤ time)
    (backlog : x.backlog = 0)
    (count : x.sent + 1 = x.accepted + x.drops + x.damagedAcks)
    (prompt : time ≤ x.grant timeout latency) : y.Paid timeout latency := by
  unfold grant at prompt
  cases hy with
  | dropped =>
    refine ⟨last_le, backlog, ?_, ?_⟩
    · simp only [debt]
      omega
    · simp only [Prompt, grant, Nat.mul_add, Nat.mul_one]
      omega
  | carried le => exact ⟨last_le, backlog, count, le, prompt⟩

theorem Paid.move (he : eager) (h : x.Paid timeout latency)
    (hm : Move timeout latency eager x y) : y.Paid timeout latency := by
  obtain ⟨last_le, backlog, count, prompt⟩ := h
  cases hm with
  | submit h le hy =>
    simp only [Prompt, debt, h] at prompt count
    refine paid_of_sent hy (Nat.le_refl _) backlog ?_ ?_
    · simp only
      omega
    · simp only [grant]
      omega
  | @keep time k le hk =>
    obtain rfl : k = 0 := hk (.inr he)
    refine ⟨Nat.le_refl _, backlog, count, ?_⟩
    simp only [Prompt, grant] at prompt ⊢
    split at prompt
    all_goals omega
  | answerDropped h le =>
    simp only [Prompt, debt, h] at prompt count
    refine ⟨Nat.le_trans last_le le, backlog, ?_, ?_⟩
    · simp only [debt]
      omega
    · simp only [Prompt, grant, Nat.mul_add, Nat.mul_one] at *
      omega
  | @answerCarried due due' damaged good damaged' h le le' taken =>
    obtain rfl : good = !damaged' := taken (.inl he)
    simp only [Prompt, debt, h] at prompt count
    refine ⟨Nat.le_trans last_le le, backlog, ?_, ?_, ?_⟩
    · simp only [debt, Bool.not_not]
      omega
    · simp only
      omega
    · simp only [grant, Bool.not_not, Nat.mul_add] at *
      omega
  | ignore h le hn => exact absurd he hn
  | again h le hy =>
    simp only [Prompt, debt, h] at prompt count
    refine paid_of_sent hy (Nat.le_trans last_le le) backlog count ?_
    simp only [Bool.not_false, Bool.toNat_true, Nat.mul_one] at prompt
    omega
  | finish h le hb =>
    simp only [Prompt, debt, h] at prompt count
    refine ⟨Nat.le_trans last_le le, backlog, count, ?_⟩
    simp only [Prompt, grant] at *
    omega
  | next h le hb hy => exact absurd (backlog.symm.trans hb) nofun
  | expire h le hy =>
    simp only [Prompt, debt, h] at prompt count
    exact paid_of_sent hy (Nat.le_trans last_le le) backlog count prompt

theorem paid_of_moves (he : eager) (h : Moves timeout latency eager start x) :
    x.Paid timeout latency := by
  induction h with
  | refl => exact paid_start
  | tail _ hm ih => exact ih.move he hm

theorem debt_le_one (x : Course) : x.debt ≤ 1 := by
  unfold debt
  split
  · exact Nat.zero_le _
  · exact Nat.le_refl _
  · exact Nat.zero_le _
  · exact Bool.toNat_le _

/-- When the message under way next makes something happen. -/
def due (timeout : Nat) (x : Course) : Nat :=
  match x.stage with
  | .idle => x.now
  | .lost => x.sentAt + timeout
  | .outbound due _ => due
  | .inbound due _ => due

theorem Paid.due_le (h : x.Paid timeout latency) :
    x.due timeout ≤ x.grant timeout latency + 2 * latency := by
  have hprompt := h.prompt
  unfold Prompt at hprompt
  unfold due
  split at hprompt <;> simp_all <;> omega

end Course

end LossyLink
