import LossyLink.Proofs.StopAndWait.Budget

/-! # Runs within their budget

On a fast channel without random faults a run ends by itself within four events for a
message and two for a drop rule. By then everything that the sender became responsible
for is delivered, and it took one packet for each message and one more for each drop.
The clock suffices if it leaves a timeout for every packet.
-/

namespace LossyLink

open Situation Simulation

variable {σ ρ : Type} {F : Format} {A : SendingSide F σ} {B : ReceivingSide F ρ}
  {s s' t : Simulation σ ρ} {log : List (σ × Stimulus)} {node : Node} {p : Packet} {e : Event}
  {queue : Queue} {messages rules : Nat} {s₁ : σ}

theorem Budgeted.completed {limit : Nat} {completed : Bool} (hA : A.Lawful) (hB : B.Lawful)
    (hF : A.Faithful B) (h : Budgeted A B messages rules log s)
    (hl : s.situation.budget A s.ledger ≤ limit)
    (hs : s.steps (A.ends B) limit = .ok (completed, s')) : completed = true := by
  induction limit generalizing s log with
  | zero =>
    obtain ⟨rfl, rfl⟩ : s.queue.isEmpty = completed ∧ s = s' := by simpa [steps] using hs
    refine Queue.isEmpty_of_cost_eq_zero (Nat.eq_zero_of_le_zero (Nat.le_trans ?_ hl))
    show s.queue.cost ≤ s.queue.cost + _ + _ + _
    omega
  | succ limit ih =>
    have hnext : ∀ {o t}, s.step (A.ends B) = .ok (o, t) → o.took = true →
        t.steps (A.ends B) limit = .ok (completed, s') → completed = true := by
      intro o t ht ho hs
      have hlt := (h.paid_of_step hA hB hF ht ho).lt
      exact ih (h.step hA hB hF ht ho) (by omega) hs
    simp only [steps] at hs
    split at hs
    · cases hs
    · cases hs
      rfl
    · rename_i o t hne ht
      cases o with
      | drained => exact (hne rfl).elim
      | stale => exact hnext ht rfl hs
      | handled => exact hnext ht rfl hs

/-- Even if the packets that may still be sent are all sent one timeout after another, the
clock will not run over. -/
def Timely (A : SendingSide F σ) (sends : Nat) (s : Simulation σ ρ) : Prop :=
  ∀ a ∈ s.queue.toList,
    a.time + A.timeout * sends < clockLimit + A.timeout * s.ledger.senderPackets

theorem Timely.step {sends : Nat} (ht : Timely A sends s) (h : Paid A rules log s s') :
    Timely A sends s' := by
  intro a ha
  obtain ⟨d, hd, hle⟩ := h.late a ha
  have hlt := ht d hd
  omega

theorem Budgeted.senderPackets_le (h : Budgeted A B messages rules log s) :
    s.ledger.senderPackets ≤ messages + rules := by
  have hpackets := h.balanced.packets
  have hrules := h.balanced.rules
  have hmessages := h.messages
  omega

/-- An event that makes the sender send comes in time for it. -/
theorem Budgeted.time_lt (hF : A.Faithful B) (h : Budgeted A B messages rules log s)
    (ht : Timely A (messages + rules) s) (hq : s.queue.pop? = some (e, queue))
    (hst : s.isStale e = false) (hn : e.what.node = .sender)
    (hc : A.Change s.sender e.what.stimulus s₁) {m : Payload} (current : A.current s₁ = some m)
    (occasion : A.current s.sender = none ∨ (∃ p, e.what.stimulus = .packet p) ∨
      e.what.stimulus = .timer (A.timerId (A.bit s.sender))) :
    e.time + A.timeout < clockLimit := by
  have htime := ht e (Queue.first_mem_of_pop?_eq_some hq)
  have hcount := (h.worth hF hq hst hn hc current occasion).1
  have hpackets : s.ledger.senderPackets + s.situation.owed A + (A.backlog s.sender).length =
      (A.admitted log).length + s.ledger.drops := h.balanced.packets
  have hrules := h.balanced.rules
  have haccepted : (A.admitted log).length +
      (A.accepted? s.sender e.what.stimulus).toList.length ≤ messages := by
    have hlen := hF.length_admitted_le (.handled e) log s.sender
    have hsub := Queue.submissions_of_pop?_eq_some hq
    rw [Event.submission?_eq] at hsub
    have hmessages := h.messages
    rw [hsub, List.length_append] at hmessages
    simp only [Outcome.toSender?, hn, if_true, Option.map_some, Option.toList_some,
      A.admitted_append, List.length_append] at hlen hmessages
    omega
  have hmul : A.timeout * (s.ledger.senderPackets + 1) ≤ A.timeout * (messages + rules) :=
    Nat.mul_le_mul_left _ (by omega)
  rw [Nat.mul_add, Nat.mul_one] at hmul
  omega

theorem Budgeted.exists_sender_handle_eq_ok (hA : A.Lawful) (hF : A.Faithful B)
    (h : Budgeted A B messages rules log s) (ht : Timely A (messages + rules) s)
    (hq : s.queue.pop? = some (e, queue)) (hst : s.isStale e = false) (hn : e.what.node = .sender) :
    ∃ s', { s with queue, clock := e.time }.handle (A.ends B) .sender e.what.stimulus =
      .ok s' := by
  have hbound : 2 * s.config.maxLatency < A.timeout := h.solitary.bound
  obtain ⟨s₁, actions, hr⟩ : ∃ s₁ actions,
      A.endpoint.react e.time e.what.stimulus s.sender = (s₁, actions) := ⟨_, _, rfl⟩
  obtain ⟨-, hchange, houtput, -⟩ := hA.reply h.running.sound.sender e.what.stimulus_ne_init hr
  simp only [handle, SendingSide.ends, hr]
  cases houtput with
  | silent bit current expiry quiet =>
    exact exists_perform_eq_ok h.latency (by simp [quiet.timers]) (.inl quiet.sent)
  | released packet current sent timers =>
    exact exists_perform_eq_ok h.latency (by simp [timers]) (.inl sent)
  | @sending m ids current occasion sent timers =>
    have hlt := h.time_lt hF ht hq hst hn hchange current occasion.reason
    refine exists_perform_eq_ok h.latency ?_ (.inr (by simp only; omega))
    intro delay id hmem
    obtain ⟨rfl, -⟩ : delay = A.timeout ∧ id = A.timerId (A.bit s₁) := by
      rw [timers] at hmem
      simpa using hmem
    exact hlt

theorem Budgeted.exists_receiver_handle_eq_ok (hB : B.Lawful)
    (h : Budgeted A B messages rules log s) (ht : Timely A (messages + rules) s)
    (hq : s.queue.pop? = some (e, queue)) (hn : e.what.node = .receiver) :
    ∃ s', { s with queue, clock := e.time }.handle (A.ends B) .receiver e.what.stimulus =
      .ok s' := by
  have hmem : e ∈ s.queue.toList := Queue.first_mem_of_pop?_eq_some hq
  obtain ⟨r', actions, hr⟩ : ∃ r' actions,
      B.endpoint.react e.time e.what.stimulus s.receiver = (r', actions) := ⟨_, _, rfl⟩
  simp only [handle, SendingSide.ends, hr]
  cases hw : e.what with
  | submission data => rw [hw] at hn; cases hn
  | expiry node id generation =>
    rw [hw, show (Happening.expiry node id generation).stimulus = .timer id from rfl,
      hB.timer] at hr
    cases hr
    exact ⟨_, rfl⟩
  | arrival node p =>
    obtain rfl : node = .receiver := by rw [hw] at hn; exact hn
    have harrival : e ∈ s.queue.arrivals :=
      Queue.mem_arrivals hmem hw
    obtain ⟨m, hm, rfl⟩ := h.balanced.exact.data e harrival p hw
    rw [hw] at hr
    obtain ⟨-, -, timers⟩ := hB.answer h.running.sound.receiver (.inl rfl) hr
    obtain ⟨d, hd, hlt⟩ := h.exists_later harrival hw
    have htime := ht d hd
    have hmul := Nat.mul_le_mul_left A.timeout h.senderPackets_le
    exact exists_perform_eq_ok h.latency (by simp [timers]) (.inr (by simp only; omega))

theorem Budgeted.exists_steps_eq_ok (hA : A.Lawful) (hB : B.Lawful) (hF : A.Faithful B)
    (h : Budgeted A B messages rules log s) (ht : Timely A (messages + rules) s) (limit : Nat) :
    ∃ r, s.steps (A.ends B) limit = .ok r := by
  induction limit generalizing s log with
  | zero => exact ⟨_, rfl⟩
  | succ limit ih =>
    have hstep : ∃ r, s.step (A.ends B) = .ok r := by
      refine exists_step_eq_ok fun e queue hq hst => ?_
      generalize hn : e.what.node = node
      cases node with
      | sender => exact h.exists_sender_handle_eq_ok hA hF ht hq hst hn
      | receiver => exact h.exists_receiver_handle_eq_ok hB ht hq hn
    obtain ⟨⟨o, t⟩, hs⟩ := hstep
    have hnext : o.took = true → ∃ r, t.steps (A.ends B) limit = .ok r := fun ho =>
      ih (h.step hA hB hF hs ho) (ht.step (h.paid_of_step hA hB hF hs ho))
    simp only [steps, hs]
    cases o with
    | drained => exact ⟨_, rfl⟩
    | stale => exact hnext rfl
    | handled => exact hnext rfl

/-- The drop rules of a plan. -/
def scripted (plan : List Preparation) : List Preparation :=
  plan.filter fun p => p.submission?.isNone

theorem ledger_prepare (s : Simulation σ ρ) (plan : List Preparation) :
    (s.prepare plan).ledger =
      { s.ledger with rules := s.ledger.rules + (scripted plan).length } := by
  induction plan generalizing s with
  | nil => rfl
  | cons p plan ih =>
    rw [prepare_cons, ih]
    cases p <;>
      simp +arith [arrange, scripted, Preparation.submission?, ledger, dropCount, submitAt,
        Simulation.enqueue, Simulation.dropSeq, Simulation.dropAck, DropRules.count]

theorem ledger_prepare_fresh (config : Config) (ends : Ends σ ρ) (plan : List Preparation) :
    ((fresh config ends).prepare plan).ledger = ⟨0, 0, (scripted plan).length⟩ := by
  rw [ledger_prepare]
  simp [ledger, dropCount, fresh, DropRules.count]

theorem cost_prepare_fresh (config : Config) (ends : Ends σ ρ) (plan : List Preparation) :
    ((fresh config ends).prepare plan).queue.cost = 4 * (planned plan).length := by
  have hcost : ∀ xs : List ((Nat × Payload) × Nat),
      ((xs.map submissionEvent).map fun e => e.what.cost).sum = 4 * xs.length := by
    intro xs
    induction xs with
    | nil => rfl
    | cons x xs ih =>
      rw [List.map_cons, List.map_cons, List.sum_cons, ih, List.length_cons]
      simp +arith [submissionEvent, Happening.cost]
  rw [Queue.cost, ((toList_prepare_fresh_perm config ends plan).map _).sum_nat, hcost,
    List.length_zipIdx]

theorem length_outgoing (plan : List Preparation) :
    (outgoing plan).length = (planned plan).length := by
  simp [outgoing, timetable]

theorem perform_of_quiet {actions : List Action} (h : Quiet actions) (s : Simulation σ ρ)
    (node : Node) : ∃ s', s.perform node actions = .ok s' ∧ s'.ledger = s.ledger := by
  have hperform := perform_eq s node actions
  rw [h.timers, h.sent] at hperform
  exact ⟨_, hperform, ledger_record s node actions⟩

theorem exists_init_eq_ok (hA : A.Lawful) (hB : B.Lawful) (s : Simulation σ ρ) :
    ∃ s', s.init (A.ends B) = .ok s' ∧ s'.ledger = s.ledger := by
  obtain ⟨s₀, actions, hs, -, -, -, -, hquiet⟩ := hA.init s.clock s.sender
  obtain ⟨t, ht, hledger⟩ := perform_of_quiet hquiet { s with sender := s₀ } .sender
  obtain ⟨r₀, actions', hr, -, -, hquiet'⟩ := hB.init t.clock t.receiver
  obtain ⟨s', hs', hledger'⟩ := perform_of_quiet hquiet' { t with receiver := r₀ } .receiver
  have hsender : s.handle (A.ends B) .sender .init = .ok t := by
    simp only [handle, SendingSide.ends, hs]
    exact ht
  have hreceiver : t.handle (A.ends B) .receiver .init = .ok s' := by
    simp only [handle, SendingSide.ends, hr]
    exact hs'
  exact ⟨s', by simp only [init, hsender]; exact hreceiver, hledger'.trans hledger⟩

theorem budgeted_of_init {config : Config} {plan : List Preparation} (hA : A.Lawful)
    (hB : B.Lawful) (hvalid : config.Valid) (hf : config.Faultless)
    (hlatency : 2 * config.maxLatency < A.timeout)
    (hi : ((fresh config (A.ends B)).prepare plan).init (A.ends B) = .ok s) :
    Budgeted A B (planned plan).length (scripted plan).length [] s ∧
      s.situation.budget A s.ledger = 4 * (planned plan).length + 2 * (scripted plan).length ∧
      s.queue = ((fresh config (A.ends B)).prepare plan).queue ∧ s.ledger.senderPackets = 0 := by
  obtain ⟨s₀, hinit, hledger⟩ :=
    exists_init_eq_ok hA hB ((fresh config (A.ends B)).prepare plan)
  obtain rfl : s₀ = s := Except.ok.inj (hinit.symm.trans hi)
  rw [ledger_prepare_fresh] at hledger
  have hconfig : ((fresh config (A.ends B)).prepare plan).config = config := config_prepare _ plan
  obtain ⟨c, h₁, h₂⟩ := situation_init (hconfig.symm ▸ hvalid.latency) hi
  obtain ⟨hrun, hconfig', harrivals⟩ := running_of_start hA hB h₁ h₂
  obtain ⟨s₁, r₁, hframe, -, -, hcurrent, hbacklog, -⟩ := eq_of_init hA hB h₁ h₂
  have hsender : s₀.sender = s₁ := congrArg Situation.sender hframe
  have hqueue : s₀.queue = ((fresh config (A.ends B)).prepare plan).queue :=
    congrArg Situation.queue hframe
  rw [← hsender] at hcurrent hbacklog
  have howed : s₀.situation.owed A = 0 := owed_of_none hcurrent
  have hconfig' : s₀.config = config := hconfig'
  refine ⟨⟨hconfig' ▸ hf, hconfig' ▸ hvalid.latency, hrun, ?_, ?_, ?_⟩, ?_, hqueue, ?_⟩
  · refine solitary_of_nil ?_ harrivals
    rw [show s₀.situation.config = config from hconfig']
    exact hlatency
  · refine ⟨exact_of_nil harrivals, ?_, ?_⟩
    · rw [howed, hledger, show A.backlog s₀.situation.sender = [] from hbacklog]
      rfl
    · rw [hledger]
      exact Nat.zero_add _
  · rw [hqueue, submissions_prepare, length_outgoing]
    exact Nat.le_of_eq (Nat.zero_add _)
  · unfold budget
    rw [howed, hledger, show A.backlog s₀.situation.sender = [] from hbacklog,
      show s₀.situation.queue = _ from hqueue, cost_prepare_fresh]
    rfl
  · rw [hledger]

theorem budgeted_of_walk (hA : A.Lawful) (hB : B.Lawful) (hF : A.Faithful B)
    (h : Budgeted A B messages rules [] s) {n : Nat} {turns : List (Turn σ ρ)}
    (hw : s.walk (A.ends B) n = .ok (turns, s')) :
    Budgeted A B messages rules (heard turns) s' := by
  refine walk_induction (P := fun past t => Budgeted A B messages rules (heard past) t) ?_ [] h hw
  intro past t o t' hpast hstep
  rw [heard_append]
  cases o with
  | drained =>
    obtain ⟨-, rfl⟩ := step_eq_drained hstep
    simpa [Turn.heard?, Outcome.toSender?] using hpast
  | stale => exact hpast.step hA hB hF hstep rfl
  | handled => exact hpast.step hA hB hF hstep rfl

theorem budgeted_of_history {config : Config} {plan : List Preparation} (hA : A.Lawful)
    (hB : B.Lawful) (hF : A.Faithful B) (hf : config.Faultless)
    (hlatency : 2 * config.maxLatency < A.timeout) (hs : create config (A.ends B) = .ok s)
    {n : Nat} {turns : List (Turn σ ρ)}
    (h : (s.prepare plan).history (A.ends B) n = .ok (turns, s')) :
    Budgeted A B (planned plan).length (scripted plan).length (heard turns) s' := by
  obtain ⟨hvalid, rfl⟩ := create_eq_ok_iff.mp hs
  obtain ⟨s₀, hinit, hwalk⟩ := history_eq_ok h
  exact budgeted_of_walk hA hB hF (budgeted_of_init hA hB hvalid hf hlatency hinit).1 hwalk

theorem senderPackets_le_of_history {config : Config} {plan : List Preparation} (hA : A.Lawful)
    (hB : B.Lawful) (hF : A.Faithful B) (hf : config.Faultless)
    (hlatency : 2 * config.maxLatency < A.timeout) (hs : create config (A.ends B) = .ok s)
    {n : Nat} {turns : List (Turn σ ρ)}
    (h : (s.prepare plan).history (A.ends B) n = .ok (turns, s')) :
    s'.senderPackets ≤ (planned plan).length + (scripted plan).length :=
  (budgeted_of_history hA hB hF hf hlatency hs h).senderPackets_le

theorem completed_of_run {config : Config} {plan : List Preparation} (hA : A.Lawful)
    (hB : B.Lawful) (hF : A.Faithful B) (hf : config.Faultless)
    (hlatency : 2 * config.maxLatency < A.timeout) (hs : create config (A.ends B) = .ok s)
    {limit : Nat} (hl : 4 * (planned plan).length + 2 * (scripted plan).length ≤ limit)
    {completed : Bool} (hrun : (s.prepare plan).run (A.ends B) limit = .ok (completed, s')) :
    completed = true := by
  obtain ⟨hvalid, rfl⟩ := create_eq_ok_iff.mp hs
  obtain ⟨s₀, hinit, -⟩ := exists_init_eq_ok hA hB ((fresh config (A.ends B)).prepare plan)
  obtain ⟨hstart, hbudget, -, -⟩ := budgeted_of_init hA hB hvalid hf hlatency hinit
  simp only [run, hinit] at hrun
  split at hrun
  · cases hrun
  · rename_i completed' s₁ hsteps
    cases hrun
    exact hstart.completed hA hB hF (hbudget ▸ hl) hsteps

/-- Once the queue is empty every packet is accounted for by a message or a drop. -/
theorem senderPackets_of_drained {config : Config} {plan : List Preparation} (hA : A.Lawful)
    (hB : B.Lawful) (hF : A.Faithful B) (hf : config.Faultless)
    (hlatency : 2 * config.maxLatency < A.timeout) (hs : create config (A.ends B) = .ok s)
    {n : Nat} {turns : List (Turn σ ρ)}
    (h : (s.prepare plan).history (A.ends B) n = .ok (turns, s')) (hempty : s'.queue.isEmpty) :
    s'.senderPackets = (A.admitted (heard turns)).length + s'.dropCount := by
  have hend := budgeted_of_history hA hB hF hf hlatency hs h
  have hcurrent : A.current s'.sender = none := hend.running.ticking.current_eq_none hempty
  have hbacklog := hA.backlog_eq_nil hend.running.sound.sender hcurrent
  have hcount := hend.balanced.packets
  rw [owed_of_none hcurrent, hbacklog] at hcount
  exact hcount

theorem exists_run_eq_ok {config : Config} {plan : List Preparation} (hA : A.Lawful)
    (hB : B.Lawful) (hF : A.Faithful B) (hf : config.Faultless)
    (hlatency : 2 * config.maxLatency < A.timeout) (hs : create config (A.ends B) = .ok s)
    (hclock : ∀ x ∈ planned plan,
      x.1 + A.timeout * ((planned plan).length + (scripted plan).length) < clockLimit)
    (limit : Nat) : ∃ r, (s.prepare plan).run (A.ends B) limit = .ok r := by
  obtain ⟨hvalid, rfl⟩ := create_eq_ok_iff.mp hs
  obtain ⟨s₀, hinit, -⟩ := exists_init_eq_ok hA hB ((fresh config (A.ends B)).prepare plan)
  obtain ⟨hstart, -, hqueue, hpackets⟩ := budgeted_of_init hA hB hvalid hf hlatency hinit
  have htimely : Timely A ((planned plan).length + (scripted plan).length) s₀ := by
    intro a ha
    rw [hqueue] at ha
    obtain ⟨⟨x, i⟩, hx, rfl⟩ :=
      List.mem_map.mp ((toList_prepare_fresh_perm config (A.ends B) plan).mem_iff.mp ha)
    rw [hpackets, Nat.mul_zero, Nat.add_zero]
    exact hclock x (List.fst_mem_of_mem_zipIdx hx)
  obtain ⟨⟨completed, s₁⟩, hsteps⟩ := hstart.exists_steps_eq_ok hA hB hF htimely limit
  exact ⟨(completed, s₁.close limit completed), by simp only [run, hinit, hsteps]⟩

/-- What a prepared run comes to if it is granted its budget. -/
structure Completes (ends : Ends σ ρ) (timeout : Nat) (s : Simulation σ ρ)
    (plan : List Preparation) (limit : Nat) : Prop where
  /-- At no time has the sender sent more packets than a counter of 32 bits can show. -/
  senderPackets_lt : ∀ n turns s', (s.prepare plan).history ends n = .ok (turns, s') →
    s'.senderPackets < 2 ^ 32
  /-- It empties the queue and delivers everything, and one packet was sent for each
  message and one more for each drop. -/
  outcome : ∀ completed s', (s.prepare plan).run ends limit = .ok (completed, s') →
    completed = true ∧ s'.delivered.toList = outgoing plan ∧
      s'.senderPackets = (planned plan).length + s'.dropCount
  /-- It does not fail if the clock leaves a timeout for every packet. -/
  exists_run : (∀ x ∈ planned plan,
      x.1 + timeout * ((planned plan).length + (scripted plan).length) < clockLimit) →
    ∃ s', (s.prepare plan).run ends limit = .ok (true, s')

theorem completes_of_faultless {config : Config} (hA : A.Lawful) (hB : B.Lawful)
    (hF : A.Faithful B) (hf : config.Faultless) (hlatency : 2 * config.maxLatency < A.timeout)
    (hs : create config (A.ends B) = .ok s) (plan : List Preparation)
    (hcount : (planned plan).length + (scripted plan).length < 2 ^ 32)
    (hadmitted : ∀ {n turns s'}, (s.prepare plan).history (A.ends B) n = .ok (turns, s') →
      s'.queue.isEmpty → A.admitted (heard turns) = outgoing plan) {limit : Nat}
    (hl : 4 * (planned plan).length + 2 * (scripted plan).length ≤ limit) :
    Completes (A.ends B) A.timeout s plan limit where
  senderPackets_lt n turns s' h :=
    Nat.lt_of_le_of_lt (senderPackets_le_of_history hA hB hF hf hlatency hs h) hcount
  outcome := by
    intro completed s' hrun
    obtain rfl := completed_of_run hA hB hF hf hlatency hs hl hrun
    obtain ⟨n, -, turns, s₁, h, hempty, rfl⟩ := history_of_run hrun
    have hall := hadmitted h hempty
    have hdelivered : s₁.delivered.toList = A.admitted (heard turns) :=
      (running_of_history hA hB (regime_solitary hA hB hlatency) hs h).1.delivered_of_drained hA
        hempty
    have hpackets := senderPackets_of_drained hA hB hF hf hlatency hs h hempty
    rw [hall, length_outgoing] at hpackets
    exact ⟨rfl, hdelivered.trans hall, hpackets⟩
  exists_run := by
    intro hclock
    obtain ⟨⟨completed, s'⟩, hrun⟩ := exists_run_eq_ok hA hB hF hf hlatency hs hclock limit
    obtain rfl := completed_of_run hA hB hF hf hlatency hs hl hrun
    exact ⟨s', hrun⟩

end LossyLink
