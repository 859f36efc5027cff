import LossyLink.Proofs.Simulation.Coherence

/-! # Pending timers

A timer is pending while an expiry of its present generation waits. A start makes it
pending for the time it names and for no other, a cancellation makes it pending no
longer, and taking the expiry from the queue uses it up. Packets and the timers of
other keys leave it alone.
-/

namespace LossyLink

variable {σ ρ : Type}

theorem Queue.not_mem_of_pop?_eq_some {q q' : Queue} {e : Event} (h : q.pop? = some (e, q')) :
    e ∉ q'.toList := fun he =>
  (before_of_pop?_eq_some h e he).asymm (before_of_pop?_eq_some h e he)

/-- What an end asks for when it is shown an event. -/
def Ends.answer (ends : Ends σ ρ) (node : Node) (now : Nat) (x : Stimulus) (sender : σ)
    (receiver : ρ) : List Action :=
  match node with
  | .sender => (ends.sender.react now x sender).2
  | .receiver => (ends.receiver.react now x receiver).2

namespace Situation

variable {ends : Ends σ ρ} {c c' : Situation σ ρ} {node : Node} {k : TimerKey} {e : Event}
  {x : Stimulus}

/-- The event is an expiry that waits and counts. -/
def Pending (c : Situation σ ρ) (k : TimerKey) (e : Event) : Prop :=
  e ∈ c.queue.toList ∧ e.what = .expiry k.1 k.2 (c.generations.get k)

/-- The timers that an end asks for. -/
def asked (ends : Ends σ ρ) (c : Situation σ ρ) (node : Node) (x : Stimulus) : List TimerOp :=
  (ends.answer node c.clock x c.sender c.receiver).filterMap Action.timer?

def runTimers (c : Situation σ ρ) (node : Node) (ops : List TimerOp) : Situation σ ρ :=
  ops.foldl (fun c op => c.timer node op) c

@[simp] theorem runTimers_cons (c : Situation σ ρ) (node : Node) (op : TimerOp)
    (ops : List TimerOp) : c.runTimers node (op :: ops) = (c.timer node op).runTimers node ops :=
  rfl

theorem Pending.key_inj {k' : TimerKey} (h : c.Pending k e) (h' : c.Pending k' e) : k = k' := by
  have hw := h.2.symm.trans h'.2
  injection hw with hnode hid
  exact Prod.ext hnode hid

theorem Pending.not_stale (h : c.Pending k e) : c.isStale e = false := by
  simp [isStale, h.2]

theorem pending_of_not_stale {id : UInt32} {generation : Nat} (he : e ∈ c.queue.toList)
    (hw : e.what = .expiry node id generation) (hs : c.isStale e = false) :
    c.Pending (node, id) e := by
  refine ⟨he, ?_⟩
  have hg : c.generations.get (node, id) = generation := by simpa [isStale, hw] using hs
  rw [hw, hg]

theorem not_pending_of_submissions
    (h : ∀ e ∈ c.queue.toList, ∃ data, e.what = .submission data) : ¬ c.Pending k e := by
  intro hp
  obtain ⟨data, hd⟩ := h e hp.1
  exact nomatch hp.2.symm.trans hd

theorem pending_cancel (h : c.Coherent) {id : UInt32} :
    (c.timer node (.cancel id)).Pending k e ↔ k ≠ (node, id) ∧ c.Pending k e := by
  by_cases hk : k = (node, id)
  · subst hk
    simp only [ne_eq, not_true_eq_false, false_and, iff_false]
    rintro ⟨he, hw⟩
    have hle := h.generation_le e he hw
    rw [show (c.timer node (.cancel id)).generations.get (node, id) = _ from
      Generations.get_bump_self _ _] at hle
    exact absurd hle (Nat.not_succ_le_self _)
  · unfold Pending timer
    simp only [ne_eq, hk, not_false_eq_true, true_and, Generations.get_bump_of_ne _ hk]

/-- The expiry that a start puts into the queue. -/
def expiryOf (c : Situation σ ρ) (node : Node) (delay : Nat) (id : UInt32) : Event :=
  ⟨c.clock + delay, c.queue.nextId, .expiry node id (c.generations.get (node, id) + 1)⟩

theorem pending_start (h : c.Coherent) {delay : Nat} {id : UInt32} :
    (c.timer node (.start delay id)).Pending k e ↔
      (k = (node, id) ∧ e = c.expiryOf node delay id) ∨ (k ≠ (node, id) ∧ c.Pending k e) := by
  have hmem : e ∈ (c.timer node (.start delay id)).queue.toList ↔
      e = c.expiryOf node delay id ∨ e ∈ c.queue.toList := by
    simp only [timer, enqueue, Queue.mem_schedule, Generations.get_bump_self, expiryOf]
  have hgen : (c.timer node (.start delay id)).generations.get k =
      if k = (node, id) then c.generations.get (node, id) + 1 else c.generations.get k :=
    Generations.get_bump _ _ _
  unfold Pending
  rw [hmem, hgen]
  by_cases hk : k = (node, id)
  · subst hk
    simp only [if_true, true_and, ne_eq, not_true_eq_false, false_and, or_false]
    constructor
    · rintro ⟨rfl | he, hw⟩
      · rfl
      · exact absurd (h.generation_le e he hw) (Nat.not_succ_le_self _)
    · rintro rfl
      exact ⟨.inl rfl, rfl⟩
  · simp only [hk, if_false, false_and, false_or, ne_eq, not_false_eq_true, true_and]
    constructor
    · rintro ⟨rfl | he, hw⟩
      · injection hw with hnode hid
        exact absurd (Prod.ext hnode.symm hid.symm) hk
      · exact ⟨he, hw⟩
    · rintro ⟨he, hw⟩
      exact ⟨.inr he, hw⟩

theorem Coherent.runTimers (h : c.Coherent) (ops : List TimerOp) :
    (c.runTimers node ops).Coherent := by
  induction ops generalizing c with
  | nil => exact h
  | cons op ops ih => exact ih (h.timer op)

theorem pending_runTimers_of_ne (h : c.Coherent) (hk : k.1 ≠ node) (ops : List TimerOp) :
    (c.runTimers node ops).Pending k e ↔ c.Pending k e := by
  have hne : ∀ id, k ≠ (node, id) := fun id he => hk (congrArg Prod.fst he)
  induction ops generalizing c with
  | nil => rfl
  | cons op ops ih =>
    refine (ih (h.timer op)).trans ?_
    cases op with
    | cancel id => simp [pending_cancel h, hne]
    | start delay id => simp [pending_start h, hne]

theorem Carried.pending_iff {p : Packet} (h : Carried node p c c') :
    c'.Pending k e ↔ c.Pending k e := by
  cases h with
  | dropped => rfl
  | sent =>
    unfold Pending enqueue
    simp only [Queue.mem_schedule]
    constructor
    · rintro ⟨rfl | he, hw⟩
      · cases hw
      · exact ⟨he, hw⟩
    · exact fun h => ⟨.inr h.1, h.2⟩

theorem CarriedAll.pending_iff {ps : List Packet} (h : CarriedAll node ps c c') :
    c'.Pending k e ↔ c.Pending k e := by
  induction h with
  | nil => rfl
  | cons hp _ ih => exact ih.trans hp.pending_iff

theorem runTimers_frame (c : Situation σ ρ) (node : Node) (ops : List TimerOp) (sender : σ)
    (receiver : ρ) (delivered : List Payload) :
    { c with sender, receiver, delivered }.runTimers node ops =
      { c.runTimers node ops with sender, receiver, delivered } := by
  induction ops generalizing c with
  | nil => rfl
  | cons op ops ih =>
    cases op with
    | cancel id => exact ih (c.timer node (.cancel id))
    | start delay id => exact ih (c.timer node (.start delay id))

theorem pending_carryOut (sender : σ) (receiver : ρ) {actions : List Action} :
    ({ c with sender, receiver }.carryOut node actions).Pending k e ↔
      (c.runTimers node (actions.filterMap Action.timer?)).Pending k e := by
  have hframe := runTimers_frame c node (actions.filterMap Action.timer?) sender receiver
    (c.delivered ++ actions.filterMap Action.delivered?)
  rw [runTimers] at hframe
  rw [carryOut, hframe]
  exact Iff.rfl

/-- What is pending after an answer is what its timer operations leave pending. -/
theorem Handled.pending_iff (h : Handled ends x c node c') :
    c'.Pending k e ↔ (c.runTimers node (c.asked ends node x)).Pending k e := by
  cases h with
  | sender hr hc =>
    rw [asked, Ends.answer, hr]
    exact hc.pending_iff.trans (pending_carryOut _ c.receiver)
  | receiver hr hc =>
    rw [asked, Ends.answer, hr]
    exact hc.pending_iff.trans (pending_carryOut c.sender _)

theorem Handled.pending_iff_of_ne (h : Handled ends x c node c') (hcoh : c.Coherent)
    (hk : k.1 ≠ node) : c'.Pending k e ↔ c.Pending k e :=
  h.pending_iff.trans (pending_runTimers_of_ne hcoh hk _)

theorem pending_reach {e₀ : Event} {queue : Queue} (hq : c.queue.pop? = some (e₀, queue)) :
    (c.reach e₀ queue).Pending k e ↔ c.Pending k e ∧ e ≠ e₀ := by
  unfold Pending
  simp only [queue_reach, generations_reach, Queue.mem_of_pop?_eq_some hq]
  constructor
  · rintro ⟨he, hw⟩
    exact ⟨⟨.inr he, hw⟩, fun h => Queue.not_mem_of_pop?_eq_some hq (h ▸ he)⟩
  · rintro ⟨⟨he, hw⟩, hne⟩
    exact ⟨he.resolve_left hne, hw⟩

end Situation

end LossyLink
