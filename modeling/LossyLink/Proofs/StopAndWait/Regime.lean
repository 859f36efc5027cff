import LossyLink.Proofs.StopAndWait.Tracking

/-! # When packets stay in order

Two reasons why no packet overtakes another. Either all take equally long, or the
timer of a packet leaves the time for the way there and back: then at most one
packet is ever on its way, and none when a new one is sent.
-/

namespace LossyLink

/-- The time by which an answer has come back, or the time of the event itself. -/
def Event.answered (e : Event) (latency : Nat) : Nat :=
  match e.what with
  | .arrival .receiver _ => e.time + latency
  | .arrival .sender _ => e.time
  | .expiry .. => e.time
  | .submission _ => e.time

theorem Event.time_le_answered (e : Event) (latency : Nat) : e.time ≤ e.answered latency := by
  unfold answered
  split
  · exact Nat.le_add_right _ _
  all_goals exact Nat.le_refl _

theorem Queue.arrivals_sublist {q q' : Queue} {e : Event} (h : q.pop? = some (e, q')) :
    q'.arrivals.Sublist q.arrivals := by
  rw [arrivals_of_pop?_eq_some h]
  split
  · exact List.sublist_cons_self _ _
  · exact List.Sublist.refl _

namespace Situation

variable {σ ρ : Type} {F : Format} {A : SendingSide F σ} {B : ReceivingSide F ρ}
  {c c' : Situation σ ρ} {e : Event} {queue : Queue} {log : List (σ × Stimulus)} {o : Outcome}
  {config : Config}

/-- What holds throughout a run as long as no packet overtakes another. -/
structure Running (A : SendingSide F σ) (B : ReceivingSide F ρ) (log : List (σ × Stimulus))
    (c : Situation σ ρ) : Prop where
  coherent : c.Coherent
  sound : c.SoundEnds A B
  ticking : c.Ticking A
  tracks : c.Tracks A B log

/-- A reason for which no packet overtakes another on a channel. -/
structure Regime (A : SendingSide F σ) (B : ReceivingSide F ρ) (config : Config)
    (R : Situation σ ρ → Prop) : Prop where
  start : ∀ {c}, c.config = config → c.queue.arrivals = [] → R c
  step : ∀ {c c' log o}, Running A B log c → R c → Step (A.ends B) c o c' → R c'
  prompt : ∀ {c log}, Running A B log c → R c → c.Prompt A

theorem Running.step {R : Situation σ ρ → Prop} (hA : A.Lawful) (hB : B.Lawful)
    (hR : Regime A B config R) (h : Running A B log c) (hr : R c) (hc : Step (A.ends B) c o c') :
    Running A B (log ++ (o.toSender?.map fun y => (c.sender, y)).toList) c' where
  coherent := h.coherent.step hc
  sound := h.sound.step hA hB hc
  ticking := h.ticking.step hA rfl h.sound.sender h.coherent hc
  tracks := h.tracks.step hA hB h.sound (hR.prompt h hr) hc

def Uniform (c : Situation σ ρ) : Prop := c.config.minLatency = c.config.maxLatency

theorem regime_uniform (h : config.minLatency = config.maxLatency) :
    Regime A B config Uniform where
  start hc _ := by
    unfold Uniform
    rw [hc]
    exact h
  step _ hr hc := by
    unfold Uniform
    rw [hc.config_eq]
    exact hr
  prompt := by
    intro c log h hr e queue hq _ _ a ha
    unfold Uniform at hr
    have := (h.coherent.reach hq).arrival_le a ha
    rwa [config_reach, ← hr] at this

/-- At most one packet is on its way, its answer will be back before the timer of
the message under way expires, and without such a message there is none. -/
structure Solitary (A : SendingSide F σ) (c : Situation σ ρ) : Prop where
  bound : 2 * c.config.maxLatency < A.timeout
  idle : A.current c.sender = none → c.queue.arrivals = []
  single : c.queue.arrivals.length ≤ 1
  early : ∀ d ∈ c.queue.toList, c.Armed A d → ∀ a ∈ c.queue.arrivals,
    a.answered c.config.maxLatency < d.time

theorem solitary_of_nil (hb : 2 * c.config.maxLatency < A.timeout)
    (h : c.queue.arrivals = []) : c.Solitary A where
  bound := hb
  idle _ := h
  single := by simp [h]
  early := by simp [h]

/-- When something may be sent, nothing is left on its way. -/
theorem Solitary.alone (h : c.Solitary A) (hq : c.queue.pop? = some (e, queue))
    (ho : c.Occasion A e) : queue.arrivals = [] := by
  have hsub := Queue.arrivals_sublist hq
  rcases ho with ha | hnone | harmed
  · have hsingle := h.single
    rw [Queue.arrivals_of_pop?_eq_some hq, if_pos ha, List.length_cons] at hsingle
    exact List.length_eq_zero_iff.mp (by omega)
  · rw [h.idle hnone] at hsub
    exact List.sublist_nil.mp hsub
  · refine List.eq_nil_iff_forall_not_mem.mpr fun a ha => ?_
    have hlt := h.early e (Queue.first_mem_of_pop?_eq_some hq) harmed a
      (hsub.subset ha)
    have hle := Queue.time_le_of_pop?_eq_some hq a (List.mem_filter.mp ha).1
    have := a.time_le_answered c.config.maxLatency
    omega

theorem Solitary.pass (h : c.Solitary A) (hq : c.queue.pop? = some (e, queue))
    (hconfig : c'.config = c.config) (hqueue : c'.queue = queue)
    (hcurrent : A.current c'.sender = A.current c.sender)
    (harmed : ∀ d, c'.Armed A d → c.Armed A d) : c'.Solitary A where
  bound := hconfig ▸ h.bound
  idle hn := by
    have hsub := Queue.arrivals_sublist hq
    rw [h.idle (hcurrent ▸ hn)] at hsub
    rw [hqueue]
    exact List.sublist_nil.mp hsub
  single := hqueue ▸ Nat.le_trans (Queue.arrivals_sublist hq).length_le h.single
  early d hd ha a hm := by
    rw [hqueue] at hd hm
    rw [hconfig]
    exact h.early d (Queue.mem_of_mem_rest hq hd) (harmed d ha) a
      ((Queue.arrivals_sublist hq).subset hm)

theorem Coherent.time_eq_of_started {k : TimerKey} {generation delay : Nat} (h : c.Coherent)
    (hlt : c.generations.get k < generation)
    (he : e ∈ (c.queue.schedule (c.clock + delay) (.expiry k.1 k.2 generation)).toList)
    (hw : e.what = .expiry k.1 k.2 generation) : e.time = c.clock + delay := by
  rcases Queue.mem_schedule.mp he with rfl | he
  · rfl
  · have hle := h.generation_le e he hw
    exact absurd hlt (Nat.not_lt.mpr hle)

/-- A packet that is sent alone is answered before its timer expires. -/
theorem solitary_of_sending {s' : σ} {m : Payload} {g : Generations}
    (hb : 2 * c.config.maxLatency < A.timeout) (hcoh : c.Coherent) (hnil : c.queue.arrivals = [])
    (hcurrent : A.current s' = some m)
    (hlt : c.generations.get (packetTimer A s') < g.get (packetTimer A s'))
    (hc : Carried .sender (F.data (A.bit s') m)
      ({ c with sender := s', generations := g }.enqueue (c.clock + A.timeout)
        (.expiry .sender (A.timerId (A.bit s')) (g.get (packetTimer A s')))) c') :
    c'.Solitary A := by
  generalize hd : { c with sender := s', generations := g }.enqueue (c.clock + A.timeout)
    (.expiry .sender (A.timerId (A.bit s')) (g.get (packetTimer A s'))) = d at hc
  have hdnil : d.queue.arrivals = [] := by
    rw [← hd]
    unfold enqueue
    rw [Queue.arrivals_schedule_of_not rfl]
    exact hnil
  have hdconfig : d.config = c.config := hd ▸ rfl
  have hdclock : d.clock = c.clock := hd ▸ rfl
  have hdue : ∀ e ∈ d.queue.toList,
      e.what = .expiry .sender (A.timerId (A.bit s')) (g.get (packetTimer A s')) →
      e.time = c.clock + A.timeout := by
    intro e he hw
    rw [← hd] at he
    exact hcoh.time_eq_of_started hlt he hw
  cases hc with
  | dropped => exact solitary_of_nil (hdconfig ▸ hb) hdnil
  | @sent q latency _ _ hmax =>
    have harrivals : (d.queue.schedule (d.clock + latency) (.arrival .receiver q)).arrivals =
        [⟨d.clock + latency, d.queue.nextId, .arrival .receiver q⟩] :=
      Queue.arrivals_schedule_of_nil hdnil
    refine ⟨hdconfig ▸ hb, fun hn => ?_, ?_, fun e he ha a hm => ?_⟩
    · rw [← hd] at hn
      exact absurd hn (by simp [enqueue, hcurrent])
    · exact Nat.le_of_eq (congrArg List.length harrivals)
    · have hw : e.what =
          .expiry .sender (A.timerId (A.bit s')) (g.get (packetTimer A s')) := by
        rw [← hd] at ha
        exact ha
      have he : e ∈ d.queue.toList := by
        rcases Queue.mem_schedule.mp he with rfl | he
        · cases hw
        · exact he
      have hm : a ∈ [_] := harrivals ▸ hm
      obtain rfl := List.mem_singleton.mp hm
      rw [hdue e he hw]
      simp only [Event.answered, enqueue]
      rw [hdconfig, hdclock] at *
      omega

/-- The answer to a packet is back before the timer of the message expires. -/
theorem Solitary.answer {p q : Packet} {r' : ρ} {delivered : List Payload}
    (h : c.Solitary A) (hq : c.queue.pop? = some (e, queue)) (hw : e.what = .arrival .receiver p)
    (hc : Carried .receiver q
      { c.reach e queue with receiver := r', delivered } c') : c'.Solitary A := by
  have hi : e.isArrival = true := Event.isArrival_iff.mpr ⟨_, p, hw⟩
  have hnil := h.alone hq (.inl hi)
  have hmem : e ∈ c.queue.arrivals := by
    rw [Queue.arrivals_of_pop?_eq_some hq, if_pos hi]
    exact List.mem_cons_self
  cases hc with
  | dropped => exact solitary_of_nil h.bound hnil
  | @sent q latency _ _ hmax =>
    have harrivals : (queue.schedule (e.time + latency) (.arrival .sender q)).arrivals =
        [⟨e.time + latency, queue.nextId, .arrival .sender q⟩] :=
      Queue.arrivals_schedule_of_nil hnil
    refine ⟨h.bound, fun hn => ?_, ?_, fun d hd ha a hm => ?_⟩
    · rw [h.idle hn] at hmem
      cases hmem
    · exact Nat.le_of_eq (congrArg List.length harrivals)
    · have hd : d ∈ queue.toList := by
        rcases Queue.mem_schedule.mp hd with rfl | hd
        · cases ha
        · exact hd
      have hm : a ∈ [_] := harrivals ▸ hm
      obtain rfl := List.mem_singleton.mp hm
      have hlt := h.early d (Queue.mem_of_mem_rest hq hd) ha e hmem
      simp only [Event.answered, hw] at hlt ⊢
      rw [config_reach] at hmax
      omega

theorem Solitary.step (hA : A.Lawful) (hB : B.Lawful) (hrun : Running A B log c)
    (h : c.Solitary A) (hc : Step (A.ends B) c o c') : c'.Solitary A := by
  cases hc with
  | drained => exact h
  | stale hq _ => exact h.pass hq rfl rfl rfl fun _ ha => ha
  | @handled e queue _ hq hst hh =>
    generalize hn : e.what.node = node at hh
    cases node with
    | sender =>
      obtain ⟨s', -, -, heffect⟩ :=
        hh.effect (c := c.reach e queue) hA rfl hrun.sound.sender e.what.stimulus_ne_init
      cases heffect with
      | silent bit current _ =>
        refine h.pass hq rfl rfl current fun d hd => ?_
        unfold Armed packetTimer at hd ⊢
        simpa only [bit, sender_reach, generations_reach] using hd
      | released packet current =>
        refine solitary_of_nil h.bound (h.alone hq ?_)
        exact occasion_of_stimulus hst hn (.inr (.inl ⟨_, packet⟩))
      | sending current occasion _ lt carried =>
        exact solitary_of_sending (c := c.reach e queue) h.bound (hrun.coherent.reach hq)
          (h.alone hq (occasion_of_stimulus hst hn occasion)) current lt carried
    | receiver =>
      cases hw : e.what with
      | submission data => rw [hw] at hn; cases hn
      | expiry node id generation =>
        rw [hw] at hh
        rw [hh.eq_of_timer hB rfl]
        exact h.pass hq rfl rfl rfl fun _ ha => ha
      | arrival node p =>
        obtain rfl : node = .receiver := by rw [hw] at hn; exact hn
        rw [hw] at hh
        obtain ⟨x, -, hx, -⟩ := hrun.tracks
        obtain ⟨b, m, data, -, hcopy, -⟩ := hx.head_data hq hw
        obtain ⟨r', delivered, -, carried⟩ :=
          hh.answer (c := c.reach e queue) hB rfl hrun.sound.receiver hcopy
        exact h.answer hq hw carried

theorem regime_solitary (hA : A.Lawful) (hB : B.Lawful) (h : 2 * config.maxLatency < A.timeout) :
    Regime A B config (Solitary A) where
  start hc hnil := by
    refine solitary_of_nil ?_ hnil
    rw [hc]
    exact h
  step hrun h hc := h.step hA hB hrun hc
  prompt := by
    intro c log _ h e queue hq _ ho a ha
    rw [queue_reach, h.alone hq ho] at ha
    cases ha

end Situation

end LossyLink
