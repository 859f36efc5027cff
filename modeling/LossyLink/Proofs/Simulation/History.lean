import LossyLink.Proofs.Simulation.Coherence

/-! # Histories

A simulation is prepared, started and taken a number of steps further. Its history
keeps every step with the state it was taken in, so that what the sender heard and
what it made of it can be read off afterwards. A run that emptied the queue ends
where some history does.
-/

namespace LossyLink

variable {σ ρ : Type}

/-- A step and the state before it. -/
structure Turn (σ ρ : Type) where
  before : Simulation σ ρ
  outcome : Outcome

/-- What a step showed to the sender. -/
def Outcome.toSender? : Outcome → Option Stimulus
  | .drained => none
  | .stale _ => none
  | .handled e => if e.what.node = .sender then some e.what.stimulus else none

/-- What the sender was shown in a step, and in which state it was. -/
def Turn.heard? (t : Turn σ ρ) : Option (σ × Stimulus) :=
  t.outcome.toSender?.map fun x => (t.before.sender, x)

/-- What the sender was shown, one thing after another. -/
def heard (turns : List (Turn σ ρ)) : List (σ × Stimulus) := turns.filterMap Turn.heard?

@[simp] theorem heard_append (turns : List (Turn σ ρ)) (t : Turn σ ρ) :
    heard (turns ++ [t]) = heard turns ++ t.heard?.toList := by
  unfold heard
  rw [List.filterMap_append]
  cases h : t.heard? <;> simp [h]

/-- What the application submits in an event. -/
def Stimulus.submission? : Stimulus → Option Payload
  | .init => none
  | .packet _ => none
  | .timer _ => none
  | .app data => some data

/-- What the application submitted, one message after another. -/
def submitted (turns : List (Turn σ ρ)) : List Payload :=
  (heard turns).filterMap fun h => h.2.submission?

theorem exists_of_map_eq_ok {ε α β : Type} {e : Except ε α} {f : α → β} {b : β}
    (h : e.map f = .ok b) : ∃ a, e = .ok a ∧ f a = b := by
  cases e with
  | error x => cases h
  | ok a => exact ⟨a, rfl, Except.ok.inj h⟩

namespace Simulation

variable {ends : Ends σ ρ} {s s' : Simulation σ ρ} {turns : List (Turn σ ρ)}

/-- Take a number of steps. -/
def walk (ends : Ends σ ρ) : Nat → Simulation σ ρ →
    Except ClockOverflow (List (Turn σ ρ) × Simulation σ ρ)
  | 0, s => .ok ([], s)
  | n + 1, s =>
    match s.step ends with
    | .error o => .error o
    | .ok (outcome, s₁) =>
      match walk ends n s₁ with
      | .error o => .error o
      | .ok (turns, s₂) => .ok (⟨s, outcome⟩ :: turns, s₂)

/-- Start both endpoints and take a number of steps. -/
def history (ends : Ends σ ρ) (n : Nat) (s : Simulation σ ρ) :
    Except ClockOverflow (List (Turn σ ρ) × Simulation σ ρ) :=
  match s.init ends with
  | .error o => .error o
  | .ok s => s.walk ends n

theorem walk_succ_eq_ok {n : Nat} (h : s.walk ends (n + 1) = .ok (turns, s')) :
    ∃ o s₁ rest, s.step ends = .ok (o, s₁) ∧ s₁.walk ends n = .ok (rest, s') ∧
      turns = ⟨s, o⟩ :: rest := by
  simp only [walk] at h
  split at h
  · cases h
  · rename_i o s₁ hs
    split at h
    · cases h
    · rename_i rest s₂ hw
      cases h
      exact ⟨o, s₁, rest, hs, hw, rfl⟩

theorem history_eq_ok {n : Nat} (h : s.history ends n = .ok (turns, s')) :
    ∃ s₁, s.init ends = .ok s₁ ∧ s₁.walk ends n = .ok (turns, s') := by
  unfold history at h
  split at h
  · cases h
  · rename_i s₁ hi
    exact ⟨s₁, hi, h⟩

theorem walk_append {n m : Nat} {s₁ : Simulation σ ρ} {rest : List (Turn σ ρ)}
    (h₁ : s.walk ends n = .ok (turns, s₁)) (h₂ : s₁.walk ends m = .ok (rest, s')) :
    s.walk ends (n + m) = .ok (turns ++ rest, s') := by
  induction n generalizing s turns with
  | zero => cases h₁; simpa using h₂
  | succ n ih =>
    obtain ⟨o, s₀, turns', hs, hw, rfl⟩ := walk_succ_eq_ok h₁
    rw [Nat.succ_add]
    simp only [walk, hs, ih hw, List.cons_append]

theorem walk_of_append {n : Nat} {past rest : List (Turn σ ρ)} {t : Turn σ ρ}
    (h : s.walk ends n = .ok (past ++ t :: rest, s')) :
    ∃ k s₁, s.walk ends k = .ok (past, t.before) ∧ t.before.step ends = .ok (t.outcome, s₁) := by
  induction past generalizing s n with
  | nil =>
    cases n with
    | zero => cases h
    | succ n =>
      obtain ⟨o, s₁, turns, hs, -, he⟩ := walk_succ_eq_ok h
      obtain ⟨rfl, -⟩ := List.cons.inj he
      exact ⟨0, s₁, rfl, hs⟩
  | cons u past ih =>
    cases n with
    | zero => cases h
    | succ n =>
      obtain ⟨o, s₁, turns, hs, hw, he⟩ := walk_succ_eq_ok h
      obtain ⟨rfl, rfl⟩ := List.cons.inj he
      obtain ⟨k, s₂, hk, ht⟩ := ih hw
      exact ⟨k + 1, s₂, by simp only [walk, hs, hk], ht⟩

theorem history_of_append {n : Nat} {past rest : List (Turn σ ρ)} {t : Turn σ ρ}
    (h : s.history ends n = .ok (past ++ t :: rest, s')) : ∃ k s₁,
      s.history ends k = .ok (past, t.before) ∧ t.before.step ends = .ok (t.outcome, s₁) := by
  obtain ⟨s₀, hinit, hwalk⟩ := history_eq_ok h
  obtain ⟨k, s₁, hk, ht⟩ := walk_of_append hwalk
  exact ⟨k, s₁, by simp only [history, hinit, hk], ht⟩

/-- What every step keeps, a walk keeps; the turns so far are part of it. -/
theorem walk_induction {P : List (Turn σ ρ) → Simulation σ ρ → Prop}
    (hstep : ∀ {past s o s'}, P past s → s.step ends = .ok (o, s') → P (past ++ [⟨s, o⟩]) s')
    {n : Nat} (past : List (Turn σ ρ)) (hp : P past s)
    (h : s.walk ends n = .ok (turns, s')) : P (past ++ turns) s' := by
  induction n generalizing s past turns with
  | zero => cases h; simpa using hp
  | succ n ih =>
    obtain ⟨o, s₁, rest, hs, hw, rfl⟩ := walk_succ_eq_ok h
    simpa using ih _ (hstep hp hs) hw

theorem situation_walk_induction {P : List (σ × Stimulus) → Situation σ ρ → Prop}
    (hstep : ∀ {log c o c'}, P log c → Situation.Step ends c o c' →
      P (log ++ (o.toSender?.map fun x => (c.sender, x)).toList) c')
    (hv : s.config.minLatency ≤ s.config.maxLatency) {n : Nat}
    (hw : s.walk ends n = .ok (turns, s')) (hp : P [] s.situation) :
    P (heard turns) s'.situation := by
  have h : ∀ {past t o t'}, (P (heard past) (situation t) ∧
      t.config.minLatency ≤ t.config.maxLatency) → t.step ends = .ok (o, t') →
      P (heard (past ++ [⟨t, o⟩])) t'.situation ∧
        t'.config.minLatency ≤ t'.config.maxLatency := by
    rintro past t o t' ⟨hp, hv⟩ hs
    have hc := situation_step hv hs
    have hconfig : t'.config = t.config := hc.config_eq
    rw [heard_append]
    exact ⟨hstep hp hc, hconfig ▸ hv⟩
  exact (walk_induction (P := fun past t => P (heard past) t.situation ∧
    t.config.minLatency ≤ t.config.maxLatency) h [] ⟨hp, hv⟩ hw).1

theorem init_eq_ok (h : s.init ends = .ok s') :
    ∃ t, s.handle ends .sender .init = .ok t ∧ t.handle ends .receiver .init = .ok s' :=
  exists_of_bind_eq_ok h

theorem situation_init (hv : s.config.minLatency ≤ s.config.maxLatency)
    (h : s.init ends = .ok s') : ∃ c, Situation.Handled ends .init s.situation .sender c ∧
      Situation.Handled ends .init c .receiver s'.situation := by
  obtain ⟨t, hs, ht⟩ := init_eq_ok h
  have hc := situation_handle hv hs
  have hconfig : t.config = s.config := hc.config_eq
  exact ⟨_, hc, situation_handle (hconfig ▸ hv) ht⟩

theorem step_eq_drained (h : s.step ends = .ok (.drained, s')) :
    s.queue.isEmpty = true ∧ s' = s := by
  rcases step_eq_ok h with ⟨hq, -, rfl⟩ | ⟨e, queue, -, -, ho, -⟩ | ⟨e, queue, -, -, ho, -⟩
  · exact ⟨Queue.isEmpty_iff.mpr (Queue.pop?_eq_none_iff.mp hq), rfl⟩
  · cases ho
  · cases ho

/-- A run that emptied the queue took a number of steps and then closed. -/
theorem walk_of_steps {limit : Nat} (h : s.steps ends limit = .ok (true, s')) :
    ∃ n ≤ limit, ∃ turns, s.walk ends n = .ok (turns, s') ∧ s'.queue.isEmpty := by
  induction limit generalizing s with
  | zero =>
    obtain ⟨he, rfl⟩ : s.queue.isEmpty = true ∧ s = s' := by simpa [steps] using h
    exact ⟨0, Nat.le_refl _, [], rfl, he⟩
  | succ limit ih =>
    simp only [steps] at h
    split at h
    · cases h
    · rename_i s₁ hs
      cases h
      obtain ⟨he, rfl⟩ := step_eq_drained hs
      exact ⟨0, Nat.zero_le _, [], rfl, he⟩
    · rename_i o s₁ _ hs
      obtain ⟨n, hn, turns, hw, he⟩ := ih h
      exact ⟨n + 1, Nat.succ_le_succ hn, ⟨s, o⟩ :: turns, by simp [walk, hs, hw], he⟩

theorem history_of_run {limit : Nat} (h : s.run ends limit = .ok (true, s')) :
    ∃ n ≤ limit, ∃ turns s₁, s.history ends n = .ok (turns, s₁) ∧ s₁.queue.isEmpty ∧
      s' = s₁.close limit true := by
  unfold run at h
  split at h
  · cases h
  · rename_i s₀ hi
    split at h
    · cases h
    · rename_i completed s₁ hs
      obtain ⟨rfl, rfl⟩ : completed = true ∧ s₁.close limit completed = s' := by simpa using h
      obtain ⟨n, hn, turns, hw, he⟩ := walk_of_steps hs
      exact ⟨n, hn, turns, s₁, by simp [history, hi, hw], he, rfl⟩

theorem exists_run_of_completed {limit : Nat} (h : (s.run ends limit).map Prod.fst = .ok true) :
    ∃ s', s.run ends limit = .ok (true, s') := by
  obtain ⟨⟨completed, s'⟩, hr, rfl⟩ := exists_of_map_eq_ok h
  exact ⟨s', hr⟩

theorem create_eq_ok_iff {config : Config} :
    create config ends = .ok s ↔ config.Valid ∧ s = fresh config ends := by
  rw [← Config.validate_eq_ok_iff]
  unfold create
  cases config.validate with
  | error e => simp [Except.map]
  | ok u => simp [Except.map, eq_comm]

theorem prepare_cons (s : Simulation σ ρ) (p : Preparation) (plan : List Preparation) :
    s.prepare (p :: plan) = (s.arrange p).prepare plan := rfl

theorem situation_prepare (s : Simulation σ ρ) (plan : List Preparation) :
    (s.prepare plan).situation = { s.situation with queue := (s.prepare plan).queue } := by
  induction plan generalizing s with
  | nil => rfl
  | cons p plan ih =>
    rw [prepare_cons, ih]
    cases p <;> rfl

theorem submission_of_mem_prepare (plan : List Preparation)
    (h : ∀ e ∈ s.queue.toList, ∃ data, e.what = .submission data) :
    ∀ e ∈ (s.prepare plan).queue.toList, ∃ data, e.what = .submission data := by
  induction plan generalizing s with
  | nil => exact h
  | cons p plan ih =>
    rw [prepare_cons]
    refine ih ?_
    cases p with
    | submit time data =>
      intro e he
      rcases Queue.mem_schedule.mp he with rfl | he
      · exact ⟨data, rfl⟩
      · exact h e he
    | dropSeq seq => exact h
    | dropAck ack => exact h

theorem submission_of_mem_prepare_fresh {config : Config} (plan : List Preparation) :
    ∀ e ∈ ((fresh config ends).prepare plan).queue.toList, ∃ data, e.what = .submission data :=
  submission_of_mem_prepare plan (by simp [fresh])

theorem coherent_prepare_fresh {config : Config} (plan : List Preparation) :
    ((fresh config ends).prepare plan).situation.Coherent :=
  Situation.coherent_of_submissions (congrArg Situation.clock (situation_prepare _ plan))
    (submission_of_mem_prepare_fresh plan)

@[simp] theorem config_prepare (s : Simulation σ ρ) (plan : List Preparation) :
    (s.prepare plan).config = s.config :=
  congrArg Situation.config (situation_prepare s plan)

theorem records_prepare (s : Simulation σ ρ) (plan : List Preparation) :
    (s.prepare plan).links = s.links ∧ (s.prepare plan).delivered = s.delivered ∧
      (s.prepare plan).senderPackets = s.senderPackets := by
  induction plan generalizing s with
  | nil => exact ⟨rfl, rfl, rfl⟩
  | cons p plan ih =>
    rw [prepare_cons]
    obtain ⟨hlinks, hdelivered, hpackets⟩ := ih (s.arrange p)
    rw [hlinks, hdelivered, hpackets]
    cases p <;> exact ⟨rfl, rfl, rfl⟩

theorem start_of_history {config : Config} {plan : List Preparation} {n : Nat}
    (hs : create config ends = .ok s)
    (h : (s.prepare plan).history ends n = .ok (turns, s')) :
    config.Valid ∧ ∃ (c : Situation σ ρ) (s₁ : Simulation σ ρ),
      Situation.Handled ends .init ((fresh config ends).prepare plan).situation .sender c ∧
      Situation.Handled ends .init c .receiver s₁.situation ∧
      s₁.config = config ∧ s₁.walk ends n = .ok (turns, s') := by
  obtain ⟨hvalid, rfl⟩ := create_eq_ok_iff.mp hs
  obtain ⟨s₁, hinit, hwalk⟩ := history_eq_ok h
  have hconfig : ((fresh config ends).prepare plan).config = config := config_prepare _ plan
  obtain ⟨c, h₁, h₂⟩ := situation_init (hconfig.symm ▸ hvalid.latency) hinit
  exact ⟨hvalid, c, s₁, h₁, h₂, h₂.config_eq.trans (h₁.config_eq.trans hconfig), hwalk⟩

/-- What the start of a prepared simulation establishes and every step keeps holds in
every state that it reaches. -/
theorem history_induction {config : Config} {P : List (σ × Stimulus) → Situation σ ρ → Prop}
    {plan : List Preparation} {n : Nat} (hs : create config ends = .ok s)
    (hstart : ∀ {c c'}, Situation.Handled ends .init
        ((fresh config ends).prepare plan).situation .sender c →
      Situation.Handled ends .init c .receiver c' → P [] c')
    (hstep : ∀ {log c o c'}, P log c → Situation.Step ends c o c' →
      P (log ++ (o.toSender?.map fun x => (c.sender, x)).toList) c')
    (h : (s.prepare plan).history ends n = .ok (turns, s')) : P (heard turns) s'.situation := by
  obtain ⟨hvalid, c, s₁, h₁, h₂, hconfig, hwalk⟩ := start_of_history hs h
  exact situation_walk_induction hstep (hconfig ▸ hvalid.latency) hwalk (hstart h₁ h₂)

end Simulation

end LossyLink
