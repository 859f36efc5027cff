import LossyLink.Proofs.StopAndWait.Regime

/-! # Delivery in order

Where no packet overtakes another, a stop-and-wait protocol delivers messages in the
order in which the sender became responsible for them, each at most once, and all of
them by the time at which the queue has emptied.
-/

namespace LossyLink

variable {σ ρ : Type} {F : Format} {A : SendingSide F σ} {B : ReceivingSide F ρ}

namespace Situation

variable {c c' : Situation σ ρ} {log : List (σ × Stimulus)}

theorem Running.delivered_prefix (h : Running A B log c) : c.delivered <+: A.admitted log := by
  obtain ⟨x, hphase, hx, hr⟩ := h.tracks
  rw [hx.delivered, ← hr.accepted]
  exact hphase.delivered_prefix.trans (List.prefix_append _ _)

theorem Running.length_delivered (h : Running A B log c) :
    c.delivered.length = A.confirmations log ∨
      (A.current c.sender).isSome ∧ c.delivered.length = A.confirmations log + 1 := by
  obtain ⟨x, hphase, hx, hr⟩ := h.tracks
  rw [hx.delivered, hx.current, ← hr.confirmed]
  exact hphase.length_delivered

theorem Running.delivered_of_drained (hA : A.Lawful) (h : Running A B log c)
    (hq : c.queue.isEmpty) : c.delivered = A.admitted log := by
  have hidle := h.ticking.current_eq_none hq
  obtain ⟨x, hphase, hx, hr⟩ := h.tracks
  rw [hx.delivered, ← hr.accepted, hA.backlog_eq_nil h.sound.sender hidle, List.append_nil]
  exact hphase.delivered_of_idle (hx.current.symm.trans hidle)

theorem eq_of_init (hA : A.Lawful) (hB : B.Lawful) {c₁ : Situation σ ρ}
    (h₁ : Handled (A.ends B) .init c .sender c₁) (h₂ : Handled (A.ends B) .init c₁ .receiver c') :
    ∃ s r, c' = { c with sender := s, receiver := r } ∧ A.Sound s ∧ A.bit s = .zero ∧
      A.current s = none ∧ A.backlog s = [] ∧ B.Sound r ∧ B.expected r = .zero := by
  obtain ⟨s, rfl, hsound, hbit, hcurrent, hbacklog⟩ := h₁.eq_of_sender_init hA rfl
  obtain ⟨-, -⟩ | ⟨hr, hc'⟩ := h₂
  obtain ⟨r, actions', hreact', hsound', hexpected, hquiet'⟩ := hB.init c.clock c.receiver
  obtain ⟨rfl, rfl⟩ := Prod.mk.inj (hr.symm.trans hreact')
  rw [hquiet'.sent, carriedAll_nil, carryOut_of_quiet hquiet'] at hc'
  exact ⟨_, _, hc', hsound, hbit, hcurrent, hbacklog, hsound', hexpected⟩

theorem running_start {s : σ} {r : ρ} (hs : A.Sound s) (hbit : A.bit s = .zero)
    (hcurrent : A.current s = none) (hbacklog : A.backlog s = []) (hr : B.Sound r)
    (hexpected : B.expected r = .zero) (hclock : c.clock = 0) (hdelivered : c.delivered = [])
    (hq : ∀ e ∈ c.queue.toList, ∃ data, e.what = .submission data) :
    Running A B [] { c with sender := s, receiver := r } where
  coherent := coherent_of_submissions hclock hq
  sound := ⟨hs, hr⟩
  ticking := ⟨fun _ => unarmed_of_submissions hq, fun hw => absurd hw (by simp [hcurrent])⟩
  tracks := by
    refine ⟨.start, Exchange.inPhase_start, ⟨⟨hexpected, ?_, ?_, hdelivered⟩, hbit, hcurrent⟩,
      hbacklog, rfl⟩
    · exact Queue.inTransit_eq_nil hq ▸ .nil
    · exact Queue.inTransit_eq_nil hq ▸ .nil

end Situation

open Situation

variable {R : Situation σ ρ → Prop} {config : Config} {s s' : Simulation σ ρ}
  {plan : List Preparation} {turns : List (Turn σ ρ)} {n : Nat}

theorem running_of_start (hA : A.Lawful) (hB : B.Lawful) {c c' : Situation σ ρ}
    (h₁ : Handled (A.ends B) .init
      ((Simulation.fresh config (A.ends B)).prepare plan).situation .sender c)
    (h₂ : Handled (A.ends B) .init c .receiver c') :
    Running A B [] c' ∧ c'.config = config ∧ c'.queue.arrivals = [] := by
  have hsit := Simulation.situation_prepare (Simulation.fresh config (A.ends B)) plan
  have hqueue : ∀ e ∈ ((Simulation.fresh config (A.ends B)).prepare plan).queue.toList,
      ∃ data, e.what = .submission data := Simulation.submission_of_mem_prepare_fresh plan
  obtain ⟨s₀, r₀, rfl, hsound, hbit, hcurrent, hbacklog, hsound', hexpected⟩ :=
    eq_of_init hA hB h₁ h₂
  refine ⟨running_start hsound hbit hcurrent hbacklog hsound' hexpected ?_ ?_ hqueue, ?_, ?_⟩
  · exact congrArg Situation.clock hsit
  · exact congrArg Situation.delivered hsit
  · exact congrArg Situation.config hsit
  · refine List.filter_eq_nil_iff.mpr fun e he => ?_
    obtain ⟨data, hd⟩ := hqueue e he
    simp [Event.isArrival, hd]

theorem running_of_history (hA : A.Lawful) (hB : B.Lawful) (hR : Regime A B config R)
    (hs : Simulation.create config (A.ends B) = .ok s)
    (h : (s.prepare plan).history (A.ends B) n = .ok (turns, s')) :
    Running A B (heard turns) s'.situation ∧ R s'.situation := by
  refine Simulation.history_induction (P := fun log c => Running A B log c ∧ R c) hs ?_ ?_ h
  · intro c c' h₁ h₂
    obtain ⟨hrun, hconfig, harrivals⟩ := running_of_start hA hB h₁ h₂
    exact ⟨hrun, hR.start hconfig harrivals⟩
  · rintro log c o c' ⟨hrun, hr⟩ hc
    exact ⟨hrun.step hA hB hR hr hc, hR.step hrun hr hc⟩

/-- What the sender of a prepared simulation has taken on is delivered in order, each message
once. How much of it the sender knows to be delivered is `acknowledged`, and it `waits` while
it does not know of the last one. -/
structure Delivers (ends : Ends σ ρ) (taken : List (Turn σ ρ) → List Payload)
    (acknowledged : List (Turn σ ρ) → Nat) (waits : σ → Bool) (s : Simulation σ ρ)
    (plan : List Preparation) : Prop where
  inOrder : ∀ n turns s', (s.prepare plan).history ends n = .ok (turns, s') →
    s'.delivered.toList <+: taken turns
  count : ∀ n turns s', (s.prepare plan).history ends n = .ok (turns, s') →
    s'.delivered.size = acknowledged turns ∨
      waits s'.sender ∧ s'.delivered.size = acknowledged turns + 1
  drained : ∀ n turns s', (s.prepare plan).history ends n = .ok (turns, s') →
    s'.queue.isEmpty → s'.delivered.toList = taken turns
  completed : ∀ limit s', (s.prepare plan).run ends limit = .ok (true, s') →
    ∃ n ≤ limit, ∃ turns s₁, (s.prepare plan).history ends n = .ok (turns, s₁) ∧
      s' = s₁.close limit true ∧ s'.delivered.toList = taken turns

theorem delivers_of_regime (hA : A.Lawful) (hB : B.Lawful) (hR : Regime A B config R)
    (hs : Simulation.create config (A.ends B) = .ok s) (plan : List Preparation)
    {taken : List (Turn σ ρ) → List Payload} {acknowledged : List (Turn σ ρ) → Nat}
    {waits : σ → Bool} (htaken : ∀ turns, A.admitted (heard turns) = taken turns)
    (hacknowledged : ∀ turns, A.confirmations (heard turns) = acknowledged turns)
    (hwaits : ∀ s, (A.current s).isSome = waits s) :
    Delivers (A.ends B) taken acknowledged waits s plan := by
  have hrunning : ∀ {n turns s'}, (s.prepare plan).history (A.ends B) n = .ok (turns, s') →
      Running A B (heard turns) s'.situation := fun h => (running_of_history hA hB hR hs h).1
  have hdrained : ∀ n turns s', (s.prepare plan).history (A.ends B) n = .ok (turns, s') →
      s'.queue.isEmpty → s'.delivered.toList = taken turns := by
    intro n turns s' h hempty
    rw [← htaken]
    exact (hrunning h).delivered_of_drained hA hempty
  constructor
  · intro n turns s' h
    rw [← htaken]
    exact Running.delivered_prefix (hrunning h)
  · intro n turns s' h
    rw [← hacknowledged, ← hwaits]
    exact (hrunning h).length_delivered
  · exact hdrained
  · intro limit s' h
    obtain ⟨n, hn, turns, s₁, h₁, hempty, rfl⟩ := Simulation.history_of_run h
    exact ⟨n, hn, turns, s₁, h₁, rfl, hdrained n turns s₁ h₁ hempty⟩

/-- A channel that loses one packet in four and damages one in four of the others. -/
def noisy (minLatency maxLatency : Nat) : Config where
  lossRate := 0.25
  corruptRate := 0.25
  minLatency
  maxLatency
  seed := 2

theorem create_noisy {ends : Ends σ ρ} {m n : Nat} (h : m ≤ n) :
    Simulation.create (noisy m n) ends = .ok (Simulation.fresh (noisy m n) ends) := by
  have hp : isProbability 0.25 = true := by decide +kernel
  exact Simulation.create_eq_ok_iff.mpr ⟨⟨hp, hp, h⟩, rfl⟩

/-- Three messages, out of order and partly at one time, and a drop. -/
def workload : List Preparation :=
  [.submit 20000 [3], .submit 0 [1, 2], .dropAck 0, .submit 0 [9]]

end LossyLink
