import LossyLink.Proofs.AlternatingBit.Environment
import LossyLink.Proofs.AlternatingBit.Reception
import LossyLink.Proofs.Queued.Environment
import LossyLink.Protocol.Catalog

/-! # Calls that ask for little

In every call an end sends one packet at most, and it touches its timers in one of four ways, of
which none starts two of them. The alternating-bit sender counts its retransmissions, one at most
in a call. This holds of all protocols, in whatever state an end is and whatever reaches it.
-/

namespace LossyLink

/-- What may be done about timers in one call: none is touched, or one is stopped, started, or
first stopped and then one started, and no start is for longer than the limit. -/
inductive Winding (limit : Nat) : List TimerOp → Prop where
  | none : Winding limit []
  | stop (id : UInt32) : Winding limit [.cancel id]
  | start {delay : Nat} (le : delay ≤ limit) (id : UInt32) : Winding limit [.start delay id]
  | restart {delay : Nat} (le : delay ≤ limit) (stopped id : UInt32) :
      Winding limit [.cancel stopped, .start delay id]

theorem Winding.delay_le {limit delay : Nat} {id : UInt32} {ops : List TimerOp}
    (h : Winding limit ops) (hmem : .start delay id ∈ ops) : delay ≤ limit := by
  cases h with
  | none => cases hmem
  | stop => simp at hmem
  | start le => simp_all
  | restart le => simp_all

theorem Winding.mono {limit limit' : Nat} {ops : List TimerOp} (hl : limit ≤ limit')
    (h : Winding limit ops) : Winding limit' ops := by
  cases h with
  | none => exact .none
  | stop id => exact .stop id
  | start le id => exact .start (Nat.le_trans le hl) id
  | restart le stopped id => exact .restart (Nat.le_trans le hl) stopped id

/-- An answer that asks for little. -/
structure Sparing (limit : Nat) (actions : List Action) : Prop where
  sent : actions.filterMap Action.sent? = [] ∨ ∃ p, actions.filterMap Action.sent? = [p]
  timers : Winding limit (actions.filterMap Action.timer?)

theorem Sparing.length_sent_le {limit : Nat} {actions : List Action}
    (h : Sparing limit actions) :
    (actions.filterMap Action.sent?).length ≤ 1 := by
  rcases h.sent with hsent | ⟨p, hsent⟩
  · exact hsent ▸ Nat.zero_le 1
  · exact hsent ▸ Nat.le_refl 1

variable {σ : Type} {limit : Nat}

theorem Reaction.sparing (r : Reaction σ) {ops : List TimerOp}
    (hsent : r.sent = [] ∨ ∃ p, r.sent = [p]) (htimers : r.timers = ops)
    (hops : Winding limit ops) : Sparing limit r.actions where
  sent := hsent
  timers := Eq.subst htimers.symm hops

/-- All answers of the end ask for little, the first one for nothing, and a quantity of its
states starts at zero and grows by one at most. -/
structure Endpoint.Frugal (e : Endpoint σ) (tally : σ → Nat) (limit : Nat) : Prop where
  init : ∀ now s, Quiet (e.react now .init s).2 ∧ tally (e.react now .init s).1 = 0
  call : ∀ now {x : Stimulus} (s : σ), x ≠ .init →
    Sparing limit (e.react now x s).2 ∧ tally (e.react now x s).1 ≤ tally s + 1

theorem Endpoint.Frugal.mono {e : Endpoint σ} {tally : σ → Nat} {limit' : Nat}
    (hl : limit ≤ limit') (h : e.Frugal tally limit) : e.Frugal tally limit' where
  init := h.init
  call now _ s hx := by
    obtain ⟨hcall, htally⟩ := h.call now s hx
    exact ⟨⟨hcall.sent, hcall.timers.mono hl⟩, htally⟩

theorem Endpoint.frugal_of_no_timers {e : Endpoint σ}
    (hinit : ∀ now s, Quiet (e.react now .init s).2)
    (hsent : ∀ now x s, (e.react now x s).2.filterMap Action.sent? = [] ∨
      ∃ p, (e.react now x s).2.filterMap Action.sent? = [p])
    (htimers : ∀ now x s, (e.react now x s).2.filterMap Action.timer? = []) :
    e.Frugal (fun _ => 0) limit where
  init now s := ⟨hinit now s, rfl⟩
  call now x s _ := ⟨⟨hsent now x s, htimers now x s ▸ .none⟩, Nat.zero_le _⟩

namespace Ideal

theorem sender_frugal : sender.Frugal (fun _ => 0) limit := by
  apply Endpoint.frugal_of_no_timers
  · exact fun _ _ => Quiet.log _
  · intro now x s
    cases x with
    | app data => exact .inr ⟨_, rfl⟩
    | init => exact .inl rfl
    | packet p => exact .inl rfl
    | timer id => exact .inl rfl
  · intro now x s
    cases x <;> rfl

theorem receiver_frugal : receiver.Frugal (fun _ => 0) limit := by
  apply Endpoint.frugal_of_no_timers
  · exact fun _ _ => Quiet.log _
  · intro now x s
    cases x <;> exact .inl rfl
  · intro now x s
    cases x <;> rfl

end Ideal

namespace Queued

theorem sparing_of_conduct {r : Reaction Sender} (h : Conduct r) : Sparing timeout r.actions := by
  have hsent := r.sent_eq_effects
  have htimers := r.timers_eq_effects
  cases h with
  | begin _ _ _ _ effects =>
    rw [effects] at hsent htimers
    exact r.sparing (.inr ⟨_, hsent⟩) htimers (.start (Nat.le_refl _) timerId)
  | advance _ _ _ _ _ _ effects =>
    rw [effects] at hsent htimers
    exact r.sparing (.inr ⟨_, hsent⟩) htimers (.restart (Nat.le_refl _) timerId timerId)
  | finish _ _ _ _ _ effects =>
    rw [effects] at hsent htimers
    exact r.sparing (.inl hsent) htimers (.stop timerId)
  | again _ _ _ _ effects =>
    rw [effects] at hsent htimers
    exact r.sparing (.inr ⟨_, hsent⟩) htimers (.start (Nat.le_refl _) timerId)
  | keep _ _ _ effects =>
    rw [effects] at hsent htimers
    exact r.sparing (.inl hsent) htimers .none

theorem sender_frugal : sender.Frugal (fun _ => 0) timeout where
  init _ _ := ⟨Quiet.log _, rfl⟩
  call now _ s hx := ⟨sparing_of_conduct (conduct now s hx), Nat.zero_le _⟩

theorem Receiver.effects_onPacket (r : Receiver) (p : Packet) :
    (∃ q, (r.onPacket p).2.filterMap Action.sent? = [q]) ∧
      (r.onPacket p).2.filterMap Action.timer? = [] := by
  by_cases ht : r.Takes p
  · obtain ⟨first, second, hanswer⟩ := exists_onPacket_of_takes ht
    rw [hanswer]
    exact ⟨⟨_, rfl⟩, rfl⟩
  · obtain ⟨first, second, hanswer⟩ := exists_onPacket_of_not_takes ht
    rw [hanswer]
    exact ⟨⟨_, rfl⟩, rfl⟩

theorem receiver_frugal : receiver.Frugal (fun _ => 0) limit := by
  apply Endpoint.frugal_of_no_timers
  · exact fun _ _ => Quiet.log _
  · intro now x r
    cases x with
    | packet p => exact .inr (r.effects_onPacket p).1
    | init => exact .inl rfl
    | timer id => exact .inl rfl
    | app data => exact .inl rfl
  · intro now x r
    cases x with
    | packet p => exact (r.effects_onPacket p).2
    | init => rfl
    | timer id => rfl
    | app data => rfl

end Queued

namespace AlternatingBit

theorem winding_cancels (s : Sender) (x : Stimulus) :
    Winding timeout (s.cancels x ++ [.start timeout s.timerId]) := by
  cases x with
  | packet p => exact .restart (Nat.le_refl _) s.timerId s.timerId
  | init => exact .start (Nat.le_refl _) s.timerId
  | timer id => exact .start (Nat.le_refl _) s.timerId
  | app data => exact .start (Nat.le_refl _) s.timerId

theorem sparing_of_conduct {r : Reaction Sender} (h : Conduct r) :
    Sparing timeout r.actions ∧ r.after.retransmissions ≤ r.before.retransmissions + 1 := by
  cases h with
  | accept _ _ _ after sent timers _ =>
    rw [after]
    exact ⟨r.sparing (.inr ⟨_, sent⟩) timers (winding_cancels _ _), Nat.le_succ _⟩
  | again _ _ _ after sent timers _ =>
    rw [after]
    exact ⟨r.sparing (.inr ⟨_, sent⟩) timers (winding_cancels _ _), Nat.le_refl _⟩
  | release _ _ _ after sent timers _ =>
    rw [after]
    exact ⟨r.sparing (.inl sent) timers (.stop _), Nat.le_succ _⟩
  | ignore _ _ after sent timers _ =>
    rw [after]
    exact ⟨r.sparing (.inl sent) timers .none, Nat.le_succ _⟩

theorem sender_frugal : sender.Frugal Sender.retransmissions timeout where
  init _ _ := ⟨Quiet.nil, rfl⟩
  call now _ s hx := sparing_of_conduct (conduct now s hx)

theorem receiver_frugal : receiver.Frugal (fun _ => 0) limit := by
  apply Endpoint.frugal_of_no_timers
  · exact fun _ _ => Quiet.nil
  · intro now x r
    cases x with
    | packet p => exact .inr ⟨_, r.sent_onPacket p⟩
    | init => exact .inl rfl
    | timer id => exact .inl rfl
    | app data => exact .inl rfl
  · intro now x r
    cases x with
    | packet p => exact r.timers_onPacket p
    | init => rfl
    | timer id => rfl
    | app data => rfl

end AlternatingBit

namespace Protocol

/-- What the sender of a protocol has counted as retransmissions; only one protocol counts them. -/
def retransmissions : (p : Protocol) → p.sender.State → Nat
  | ideal, _ => 0
  | queued, _ => 0
  | alternatingBit, s => AlternatingBit.Sender.retransmissions s

theorem sender_frugal (p : Protocol) :
    p.sender.endpoint.Frugal p.retransmissions AlternatingBit.timeout := by
  cases p with
  | ideal => exact Ideal.sender_frugal
  | queued => exact Queued.sender_frugal.mono (by decide)
  | alternatingBit => exact AlternatingBit.sender_frugal

theorem receiver_frugal (p : Protocol) :
    p.receiver.endpoint.Frugal (fun _ => 0) AlternatingBit.timeout := by
  cases p with
  | ideal => exact Ideal.receiver_frugal
  | queued => exact Queued.receiver_frugal
  | alternatingBit => exact AlternatingBit.receiver_frugal

end Protocol

end LossyLink
