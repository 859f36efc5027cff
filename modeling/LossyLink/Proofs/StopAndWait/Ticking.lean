import LossyLink.Proofs.Simulation.Pending
import LossyLink.Proofs.StopAndWait.Sides

/-! # The timer of the packet under way

While a message is under way the timer of its packet is pending, due within the timeout,
and it is the only timer of the sender that is. Without a message none is. The sender
starts its timer only where none of its timers is pending. So a queue that has emptied
leaves no message under way. This holds whatever the receiver does.
-/

namespace LossyLink

namespace Situation

variable {σ ρ : Type} {F : Format} {A : SendingSide F σ} {ends : Ends σ ρ}
  {c c' : Situation σ ρ} {node : Node} {e : Event} {queue : Queue}

/-- An event is the expiry of the sender's packet timer, and not a stale one. -/
def Armed (A : SendingSide F σ) (c : Situation σ ρ) (e : Event) : Prop :=
  e.what = .expiry .sender (A.timerId (A.bit c.sender))
    (c.generations.get (packetTimer A c.sender))

/-- No timer of the sender is pending. -/
def Unarmed (c : Situation σ ρ) : Prop := ∀ id e, ¬ c.Pending (.sender, id) e

structure Ticking (A : SendingSide F σ) (c : Situation σ ρ) : Prop where
  idle : A.current c.sender = none → c.Unarmed
  waiting : (A.current c.sender).isSome → ∃ e₀ : Event, e₀.time ≤ c.clock + A.timeout ∧
    ∀ id e, c.Pending (.sender, id) e ↔ id = A.timerId (A.bit c.sender) ∧ e = e₀

theorem armed_of_stimulus (hs : c.isStale e = false) (hn : e.what.node = .sender)
    (hx : e.what.stimulus = .timer (A.timerId (A.bit c.sender))) : c.Armed A e := by
  unfold Armed
  obtain ⟨time, id, _ | ⟨node, id', generation⟩ | _⟩ := e
  · simp [Happening.stimulus] at hx
  · obtain rfl : node = .sender := hn
    obtain rfl : id' = _ := by simpa [Happening.stimulus] using hx
    have hg : c.generations.get (packetTimer A c.sender) = generation := by
      simpa [isStale] using hs
    rw [hg]
  · simp [Happening.stimulus] at hx

/-- While a message is under way no timer but that of its packet is pending. -/
theorem Ticking.eq_of_pending (h : c.Ticking A) {id : UInt32} (hp : c.Pending (.sender, id) e) :
    (A.current c.sender).isSome ∧ id = A.timerId (A.bit c.sender) := by
  cases hc : A.current c.sender with
  | none => exact absurd hp (h.idle hc id e)
  | some m =>
    obtain ⟨e₀, -, hiff⟩ := h.waiting (by simp [hc])
    exact ⟨rfl, ((hiff id e).mp hp).1⟩

theorem Ticking.unarmed_reach (h : c.Ticking A) (hq : c.queue.pop? = some (e, queue))
    (hp : c.Pending (packetTimer A c.sender) e) : (c.reach e queue).Unarmed := by
  obtain ⟨e₀, -, hiff⟩ := h.waiting (h.eq_of_pending hp).1
  obtain rfl := ((hiff _ e).mp hp).2
  intro id x hx
  obtain ⟨hx, hne⟩ := (pending_reach hq).mp hx
  exact hne ((hiff id x).mp hx).2

theorem Ticking.unarmed_cancel (h : c.Ticking A) (hcoh : c.Coherent)
    (hq : c.queue.pop? = some (e, queue)) :
    ((c.reach e queue).timer .sender (.cancel (A.timerId (A.bit c.sender)))).Unarmed := by
  intro id x hx
  obtain ⟨hne, hx⟩ := (pending_cancel (hcoh.reach hq)).mp hx
  obtain ⟨-, rfl⟩ := h.eq_of_pending ((pending_reach hq).mp hx).1
  exact hne rfl

theorem Ticking.unarmed_of_occasion (h : c.Ticking A) (hcoh : c.Coherent)
    (hq : c.queue.pop? = some (e, queue)) (hs : c.isStale e = false)
    (hn : e.what.node = .sender) {ids : List UInt32}
    (ho : A.Occasion c.sender e.what.stimulus ids) :
    ((c.reach e queue).runTimers .sender (ids.map .cancel)).Unarmed := by
  cases ho with
  | idle current => exact fun id x hx => h.idle current id x ((pending_reach hq).mp hx).1
  | answered packet => exact h.unarmed_cancel hcoh hq
  | expired timer =>
    exact h.unarmed_reach hq
      ⟨Queue.first_mem_of_pop?_eq_some hq, armed_of_stimulus hs hn timer⟩

theorem Ticking.congr (h : c.Ticking A) (hclock : c.clock ≤ c'.clock)
    (hbit : A.bit c'.sender = A.bit c.sender) (hcurrent : A.current c'.sender = A.current c.sender)
    (hpending : ∀ id e, c'.Pending (.sender, id) e ↔ c.Pending (.sender, id) e) :
    c'.Ticking A where
  idle hn id e hp := h.idle (hcurrent ▸ hn) id e ((hpending id e).mp hp)
  waiting hw := by
    obtain ⟨e₀, hdue, hiff⟩ := h.waiting (hcurrent ▸ hw)
    refine ⟨e₀, Nat.le_trans hdue (Nat.add_le_add_right hclock _), fun id e => ?_⟩
    rw [hbit]
    exact (hpending id e).trans (hiff id e)

theorem ticking_of_start {d : Situation σ ρ} (hcoh : d.Coherent) (hd : d.Unarmed)
    (hclock : d.clock ≤ c'.clock) (hw : (A.current c'.sender).isSome)
    (hpending : ∀ id e, c'.Pending (.sender, id) e ↔
      (d.timer .sender (.start A.timeout (A.timerId (A.bit c'.sender)))).Pending (.sender, id) e) :
    c'.Ticking A where
  idle hn := absurd hw (by simp [hn])
  waiting _ := by
    refine ⟨d.expiryOf .sender A.timeout (A.timerId (A.bit c'.sender)),
      Nat.add_le_add_right hclock _, fun id e => ?_⟩
    rw [hpending, pending_start hcoh]
    constructor
    · rintro (⟨hk, he⟩ | ⟨-, hp⟩)
      · exact ⟨congrArg Prod.snd hk, he⟩
      · exact absurd hp (hd id e)
    · rintro ⟨rfl, he⟩
      exact .inl ⟨rfl, he⟩

theorem Ticking.sender_step (hA : A.Lawful) (hends : ends.sender = A.endpoint)
    (hs : A.Sound c.sender) (hcoh : c.Coherent) (h : c.Ticking A)
    (hq : c.queue.pop? = some (e, queue)) (hst : c.isStale e = false)
    (hn : e.what.node = .sender)
    (hh : Handled ends e.what.stimulus (c.reach e queue) .sender c') : c'.Ticking A := by
  obtain ⟨queue', generations, delivered, hframe⟩ := hh.sender_frame
  rw [hends, clock_reach, sender_reach] at hframe
  have hpending := fun k x => hh.pending_iff (k := k) (e := x)
  simp only [asked, Ends.answer, hends, clock_reach, sender_reach] at hpending
  generalize hr : A.endpoint.react e.time e.what.stimulus c.sender = r at hframe hpending
  obtain ⟨s', actions⟩ := r
  have hsender : c'.sender = s' := by rw [hframe]
  have hclock : c'.clock = e.time := by rw [hframe]
  cases (hA.reply hs e.what.stimulus_ne_init hr).output with
  | silent bit current expiry quiet =>
    simp only [quiet.timers, runTimers, List.foldl_nil] at hpending
    have hle : c.clock ≤ c'.clock := hclock ▸ hcoh.clock_le_of_pop? hq
    refine h.congr hle (hsender ▸ bit) (hsender ▸ current) fun id x => ?_
    rw [hpending, pending_reach hq, and_iff_left_iff_imp]
    -- the sender would have answered the expiry of its timer
    rintro hp rfl
    obtain ⟨hw, rfl⟩ := h.eq_of_pending hp
    exact absurd hw (by simp [expiry (congrArg Happening.stimulus hp.2)])
  | released packet current sent timers =>
    simp only [timers] at hpending
    have hidle : c'.Unarmed := fun id x hx =>
      h.unarmed_cancel hcoh hq id x ((hpending _ x).mp hx)
    exact ⟨fun _ => hidle, fun hw => absurd hw (by simp [hsender, current])⟩
  | @sending m ids current occasion sent timers =>
    simp only [timers, runTimers, List.foldl_append] at hpending
    refine ticking_of_start ((hcoh.reach hq).runTimers (ids.map .cancel))
      (h.unarmed_of_occasion hcoh hq hst hn occasion) ?_ (by simp [hsender, current]) ?_
    · obtain ⟨queue₁, generations₁, hframe₁⟩ :=
        timers_frame (ids.map .cancel) .sender (c.reach e queue)
      rw [runTimers, hframe₁]
      exact Nat.le_of_eq hclock.symm
    · intro id x
      rw [hpending, hsender]
      rfl

theorem Ticking.step {o : Outcome} (hA : A.Lawful) (hends : ends.sender = A.endpoint)
    (hs : A.Sound c.sender) (hcoh : c.Coherent) (h : c.Ticking A) (hc : Step ends c o c') :
    c'.Ticking A := by
  cases hc with
  | drained => exact h
  | @stale e queue hq hst =>
    refine h.congr (Nat.le_refl _) rfl rfl fun id x => ?_
    rw [show ({ c with queue } : Situation σ ρ).Pending (.sender, id) x ↔ _ from
      pending_reach (c := c) hq, and_iff_left_iff_imp]
    rintro hp rfl
    exact absurd (hst.symm.trans hp.not_stale) nofun
  | @handled e queue _ hq hst hh =>
    generalize hnode : e.what.node = node at hh
    cases node with
    | sender => exact h.sender_step hA hends hs hcoh hq hst hnode hh
    | receiver =>
      obtain ⟨queue', generations, delivered, hframe⟩ := hh.receiver_frame
      have hle : c.clock ≤ c'.clock := by
        rw [hframe]
        exact hcoh.clock_le_of_pop? hq
      refine h.congr hle (by rw [hframe]; rfl) (by rw [hframe]; rfl) fun id x => ?_
      rw [hh.pending_iff_of_ne (hcoh.reach hq) (by simp), pending_reach hq, and_iff_left_iff_imp]
      rintro hp rfl
      exact absurd (hnode.symm.trans (congrArg Happening.node hp.2)) (by simp [Happening.node])

/-- An empty queue leaves no message under way. -/
theorem Ticking.current_eq_none (h : c.Ticking A) (hq : c.queue.isEmpty) :
    A.current c.sender = none := by
  refine Option.not_isSome_iff_eq_none.mp fun hw => ?_
  obtain ⟨e, -, hiff⟩ := h.waiting hw
  have he : e ∈ c.queue.toList := ((hiff _ e).mpr ⟨rfl, rfl⟩).1
  rw [Queue.isEmpty_iff.mp hq] at he
  cases he

theorem unarmed_of_submissions (h : ∀ e ∈ c.queue.toList, ∃ data, e.what = .submission data) :
    c.Unarmed := fun _ _ => not_pending_of_submissions h

end Situation

end LossyLink
