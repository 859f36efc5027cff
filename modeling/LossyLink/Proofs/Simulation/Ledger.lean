import LossyLink.Simulation.Run

/-! # What is counted

Of all that a simulation records, the packets that the sender handed to the channel, the
packets that the channel dropped, and the drop rules that are left. Only the channel
changes these: deliveries, timers and what is merely recorded leave them alone.
-/

namespace LossyLink

variable {σ ρ : Type}

theorem exists_of_bind_eq_ok {ε α β : Type} {x : Except ε α} {f : α → Except ε β} {b : β}
    (h : x >>= f = .ok b) : ∃ a, x = .ok a ∧ f a = .ok b := by
  cases x with
  | error e => cases h
  | ok a => exact ⟨a, rfl, h⟩

def LinkEvent.isDrop (e : LinkEvent) : Bool :=
  match e.change with
  | .dropped .. => true
  | .delivered _ => false
  | .corrupted .. => false
  | .sent .. => false

/-- How many rules are left. -/
def DropRules.count (r : DropRules) : Nat := r.seqs.length + r.acks.length

theorem DropRules.count_of_take?_eq_some {r r' : DropRules} {node : Node} {h : Header}
    {reason : DropReason} (ht : r.take? node h = some (reason, r')) : r'.count + 1 = r.count := by
  cases node with
  | sender =>
    obtain ⟨hmem, ht⟩ := Option.ite_none_right_eq_some.mp ht
    obtain ⟨-, rfl⟩ := Prod.mk.inj (Option.some.inj ht)
    have hpos := List.length_pos_of_mem hmem
    simp only [count, List.length_erase_of_mem hmem]
    omega
  | receiver =>
    obtain ⟨⟨-, hmem⟩, ht⟩ := Option.ite_none_right_eq_some.mp ht
    obtain ⟨-, rfl⟩ := Prod.mk.inj (Option.some.inj ht)
    have hpos := List.length_pos_of_mem hmem
    simp only [count, List.length_erase_of_mem hmem]
    omega

theorem DropRules.take?_of_count_eq_zero {r : DropRules} (hr : r.count = 0) (node : Node)
    (h : Header) : r.take? node h = none := by
  obtain ⟨hseqs, hacks⟩ := Nat.add_eq_zero_iff.mp hr
  have hseqs := List.eq_nil_of_length_eq_zero hseqs
  have hacks := List.eq_nil_of_length_eq_zero hacks
  cases node <;> simp [take?, hseqs, hacks]

structure Ledger where
  senderPackets : Nat
  drops : Nat
  rules : Nat
  deriving DecidableEq, Repr

namespace Simulation

variable {s s' : Simulation σ ρ} {node : Node}

/-- How many packets of either end the channel dropped. -/
def dropCount (s : Simulation σ ρ) : Nat := s.links.countP LinkEvent.isDrop

def ledger (s : Simulation σ ρ) : Ledger where
  senderPackets := s.senderPackets
  drops := s.dropCount
  rules := s.drops.count

theorem ledger_foldl {α : Type} {f : Simulation σ ρ → α → Simulation σ ρ}
    (hf : ∀ s a, (f s a).ledger = s.ledger) (xs : List α) (s : Simulation σ ρ) :
    (xs.foldl f s).ledger = s.ledger := by
  induction xs generalizing s with
  | nil => rfl
  | cons x xs ih => rw [List.foldl_cons, ih, hf]

theorem ledger_deliver (s : Simulation σ ρ) (node : Node) (data : Payload) :
    (s.deliver node data).ledger = s.ledger := by
  simp [ledger, dropCount, deliver, link, notify, LinkEvent.isDrop]

theorem after_eq_ok {delay : Nat} {what : Happening} (h : s.after delay what = .ok s') :
    s' = s.enqueue (s.clock + delay) what := by
  unfold after at h
  split at h
  · exact (Except.ok.inj h).symm
  · cases h

theorem ledger_after {delay : Nat} {what : Happening} (h : s.after delay what = .ok s') :
    s'.ledger = s.ledger := by
  rw [after_eq_ok h]
  rfl

theorem ledger_timer {op : TimerOp} (h : s.timer node op = .ok s') : s'.ledger = s.ledger := by
  cases op with
  | start delay id =>
    exact ledger_after (s := { s with generations := s.generations.bump (node, id) }) h
  | cancel id => cases h; rfl

theorem ledger_timers {ops : List TimerOp}
    (h : ops.foldlM (fun s op => s.timer node op) s = .ok s') : s'.ledger = s.ledger := by
  induction ops generalizing s with
  | nil => cases h; rfl
  | cons op ops ih =>
    rw [List.foldlM_cons] at h
    obtain ⟨t, ht, h⟩ := exists_of_bind_eq_ok h
    exact (ih h).trans (ledger_timer ht)

end Simulation

end LossyLink
