import LossyLink.Proofs.Simulation.History
import LossyLink.SeqBit

/-! # The sides of a stop-and-wait protocol

What the sending and the receiving ends of the alternating-bit protocols have in
common, in terms of bits and messages. The sender has one message under way at
most, starts its timer with every packet, and gives a message up for delivered when
the acknowledgement of its bit comes. The receiver answers every copy of a message
with the bit delivered last.
-/

namespace LossyLink

variable {σ ρ : Type}

/-- The packets of a protocol. -/
structure Format where
  data : SeqBit → Payload → Packet
  ack : SeqBit → Packet

structure SendingSide (F : Format) (σ : Type) where
  endpoint : Endpoint σ
  timeout : Nat
  /-- The timer of the packet under way, by the bit of the packet. -/
  timerId : SeqBit → UInt32
  bit : σ → SeqBit
  /-- The message under way. -/
  current : σ → Option Payload
  /-- Messages that wait for their turn. -/
  backlog : σ → List Payload
  /-- The message that an event makes the sender responsible for. -/
  accepted? : σ → Stimulus → Option Payload
  /-- An event tells the sender that the message under way was delivered. -/
  confirms : σ → Stimulus → Bool
  Sound : σ → Prop

structure ReceivingSide (F : Format) (ρ : Type) where
  endpoint : Endpoint ρ
  expected : ρ → SeqBit
  Sound : ρ → Prop

/-- Nothing is sent, timed or delivered. -/
structure Quiet (actions : List Action) : Prop where
  sent : actions.filterMap Action.sent? = []
  timers : actions.filterMap Action.timer? = []
  delivered : actions.filterMap Action.delivered? = []

theorem Quiet.nil : Quiet [] := ⟨rfl, rfl, rfl⟩

theorem Quiet.log (text : String) : Quiet [.log text] := ⟨rfl, rfl, rfl⟩

namespace SendingSide

variable {F : Format}

/-- What a sender does about the message under way, and how its bit moves on. -/
inductive Change (A : SendingSide F σ) (s : σ) (x : Stimulus) (s' : σ) : Prop where
  | stay (bit : A.bit s' = A.bit s) (current : A.current s = none ∨ A.current s' = A.current s)
      (backlog : (A.current s').toList ++ A.backlog s' =
        (A.current s).toList ++ A.backlog s ++ (A.accepted? s x).toList)
      (confirms : A.confirms s x = false)
  | advance {p : Packet} (packet : x = .packet p) (ack : ∀ b, (F.ack b).IsCopy p → b = A.bit s)
      (waiting : (A.current s).isSome) (bit : A.bit s' = (A.bit s).flip)
      (backlog : (A.current s').toList ++ A.backlog s' = A.backlog s)
      (accepted : A.accepted? s x = none) (confirms : A.confirms s x = true)

/-- When a sender sends, and the timers that it cancels first. -/
inductive Occasion (A : SendingSide F σ) (s : σ) (x : Stimulus) : List UInt32 → Prop where
  | idle (current : A.current s = none) : Occasion A s x []
  | answered {p : Packet} (packet : x = .packet p) : Occasion A s x [A.timerId (A.bit s)]
  | expired (timer : x = .timer (A.timerId (A.bit s))) : Occasion A s x []

theorem Occasion.reason {A : SendingSide F σ} {s : σ} {x : Stimulus} {ids : List UInt32}
    (h : A.Occasion s x ids) :
    A.current s = none ∨ (∃ p, x = .packet p) ∨ x = .timer (A.timerId (A.bit s)) := by
  cases h with
  | idle current => exact .inl current
  | answered packet => exact .inr (.inl ⟨_, packet⟩)
  | expired timer => exact .inr (.inr timer)

/-- What a sender sends, and what becomes of its timer. -/
inductive Output (A : SendingSide F σ) (s : σ) (x : Stimulus) (s' : σ) (actions : List Action) :
    Prop where
  | silent (bit : A.bit s' = A.bit s) (current : A.current s' = A.current s)
      (expiry : x = .timer (A.timerId (A.bit s)) → A.current s = none) (quiet : Quiet actions)
  | released {p : Packet} (packet : x = .packet p) (current : A.current s' = none)
      (sent : actions.filterMap Action.sent? = [])
      (timers : actions.filterMap Action.timer? = [.cancel (A.timerId (A.bit s))])
  | sending {m : Payload} (ids : List UInt32) (current : A.current s' = some m)
      (occasion : A.Occasion s x ids)
      (sent : actions.filterMap Action.sent? = [F.data (A.bit s') m])
      (timers : actions.filterMap Action.timer? =
        ids.map .cancel ++ [.start A.timeout (A.timerId (A.bit s'))])

structure Reply (A : SendingSide F σ) (s : σ) (x : Stimulus) (s' : σ) (actions : List Action) :
    Prop where
  sound : A.Sound s'
  change : A.Change s x s'
  output : A.Output s x s' actions
  delivered : actions.filterMap Action.delivered? = []

structure Lawful (A : SendingSide F σ) : Prop where
  init : ∀ now s, ∃ s' actions, A.endpoint.react now .init s = (s', actions) ∧
    A.Sound s' ∧ A.bit s' = .zero ∧ A.current s' = none ∧ A.backlog s' = [] ∧ Quiet actions
  reply : ∀ {now s x s' actions}, A.Sound s → x ≠ .init →
    A.endpoint.react now x s = (s', actions) → A.Reply s x s' actions
  backlog_eq_nil : ∀ {s}, A.Sound s → A.current s = none → A.backlog s = []

/-- The messages that the sender became responsible for. -/
def admitted (A : SendingSide F σ) (log : List (σ × Stimulus)) : List Payload :=
  log.filterMap fun h => A.accepted? h.1 h.2

theorem admitted_append (A : SendingSide F σ) (log : List (σ × Stimulus)) (s : σ)
    (x : Stimulus) : A.admitted (log ++ [(s, x)]) = A.admitted log ++ (A.accepted? s x).toList := by
  rw [admitted, admitted, List.filterMap_append]
  cases hs : A.accepted? s x <;> simp [hs]

/-- How many messages the sender learned to be delivered. -/
def confirmations (A : SendingSide F σ) (log : List (σ × Stimulus)) : Nat :=
  log.countP fun h => A.confirms h.1 h.2

end SendingSide

namespace ReceivingSide

variable {F : Format}

/-- The answer to a copy of a message. -/
structure Answer (B : ReceivingSide F ρ) (r : ρ) (b : SeqBit) (m : Payload) (r' : ρ)
    (actions : List Action) : Prop where
  verdict : (b = B.expected r ∧ B.expected r' = b.flip ∧
      actions.filterMap Action.delivered? = [m]) ∨
    (B.expected r' = B.expected r ∧ actions.filterMap Action.delivered? = [])
  sent : actions.filterMap Action.sent? = [F.ack (B.expected r').flip]
  timers : actions.filterMap Action.timer? = []

structure Lawful (B : ReceivingSide F ρ) : Prop where
  init : ∀ now r, ∃ r' actions, B.endpoint.react now .init r = (r', actions) ∧
    B.Sound r' ∧ B.expected r' = .zero ∧ Quiet actions
  sound : ∀ {now r x}, B.Sound r → x ≠ .init → B.Sound (B.endpoint.react now x r).1
  answer : ∀ {now r p b m r' actions}, B.Sound r → (F.data b m).IsCopy p →
    B.endpoint.react now (.packet p) r = (r', actions) → B.Answer r b m r' actions
  timer : ∀ now r id, B.endpoint.react now (.timer id) r = (r, [])

end ReceivingSide

/-- A link with a sending and a receiving side. -/
def SendingSide.ends {F : Format} (A : SendingSide F σ) (B : ReceivingSide F ρ) : Ends σ ρ :=
  ⟨A.endpoint, B.endpoint⟩

namespace Situation

variable {F : Format} {A : SendingSide F σ} {B : ReceivingSide F ρ} {ends : Ends σ ρ}
  {c c' : Situation σ ρ} {x : Stimulus}

theorem carryOut_of_quiet {node : Node} {actions : List Action} (h : Quiet actions) :
    c.carryOut node actions = c := by
  simp [carryOut, h.timers, h.delivered]

theorem Handled.eq_of_sender_init (hA : A.Lawful) (hends : ends.sender = A.endpoint)
    (h : Handled ends .init c .sender c') :
    ∃ s, c' = { c with sender := s } ∧ A.Sound s ∧ A.bit s = .zero ∧ A.current s = none ∧
      A.backlog s = [] := by
  obtain ⟨hs, hc⟩ := h
  rw [hends] at hs
  obtain ⟨s, actions, hreact, hsound, hbit, hcurrent, hbacklog, hquiet⟩ := hA.init c.clock c.sender
  obtain ⟨rfl, rfl⟩ := Prod.mk.inj (hs.symm.trans hreact)
  rw [hquiet.sent, carriedAll_nil, carryOut_of_quiet hquiet] at hc
  exact ⟨_, hc, hsound, hbit, hcurrent, hbacklog⟩

/-- The timer of the sender's packet. -/
abbrev packetTimer (A : SendingSide F σ) (s : σ) : TimerKey := (.sender, A.timerId (A.bit s))

/-- What the reply of a lawful sender makes of a situation, before the channel has got the
packets. -/
inductive Emission (A : SendingSide F σ) (x : Stimulus) (c : Situation σ ρ) (s' : σ) :
    Situation σ ρ → List Packet → Prop where
  | silent (bit : A.bit s' = A.bit c.sender) (current : A.current s' = A.current c.sender)
      (expiry : x = .timer (A.timerId (A.bit c.sender)) → A.current c.sender = none) :
      Emission A x c s' { c with sender := s' } []
  | released {p : Packet} (packet : x = .packet p) (current : A.current s' = none) :
      Emission A x c s' { c with
        sender := s', generations := c.generations.bump (packetTimer A c.sender) } []
  | sending {m : Payload} {g : Generations} (current : A.current s' = some m)
      (occasion : A.current c.sender = none ∨ (∃ p, x = .packet p) ∨
        x = .timer (A.timerId (A.bit c.sender)))
      (le : ∀ k, c.generations.get k ≤ g.get k)
      (lt : c.generations.get (packetTimer A s') < g.get (packetTimer A s')) :
      Emission A x c s' ({ c with sender := s', generations := g }.enqueue (c.clock + A.timeout)
        (.expiry .sender (A.timerId (A.bit s')) (g.get (packetTimer A s'))))
        [F.data (A.bit s') m]

/-- What the reply of a lawful sender and the channel make of a situation. -/
inductive Effect (A : SendingSide F σ) (x : Stimulus) (c : Situation σ ρ) (s' : σ) :
    Situation σ ρ → Prop where
  | silent (bit : A.bit s' = A.bit c.sender) (current : A.current s' = A.current c.sender)
      (expiry : x = .timer (A.timerId (A.bit c.sender)) → A.current c.sender = none) :
      Effect A x c s' { c with sender := s' }
  | released {p : Packet} (packet : x = .packet p) (current : A.current s' = none) :
      Effect A x c s' { c with
        sender := s', generations := c.generations.bump (packetTimer A c.sender) }
  | sending {m : Payload} {g : Generations} {c' : Situation σ ρ}
      (current : A.current s' = some m)
      (occasion : A.current c.sender = none ∨ (∃ p, x = .packet p) ∨
        x = .timer (A.timerId (A.bit c.sender)))
      (le : ∀ k, c.generations.get k ≤ g.get k)
      (lt : c.generations.get (packetTimer A s') < g.get (packetTimer A s'))
      (carried : Carried .sender (F.data (A.bit s') m)
        ({ c with sender := s', generations := g }.enqueue (c.clock + A.timeout)
          (.expiry .sender (A.timerId (A.bit s')) (g.get (packetTimer A s')))) c') :
      Effect A x c s' c'

theorem timers_cancel (ids : List UInt32) (node : Node) (c : Situation σ ρ) :
    ∃ g : Generations, (∀ k, c.generations.get k ≤ g.get k) ∧
      (ids.map TimerOp.cancel).foldl (fun c op => c.timer node op) c =
        { c with generations := g } := by
  induction ids generalizing c with
  | nil => exact ⟨c.generations, fun _ => Nat.le_refl _, rfl⟩
  | cons id ids ih =>
    obtain ⟨g, hg, he⟩ := ih (c.timer node (.cancel id))
    exact ⟨g, fun k => Nat.le_trans (Generations.get_le_get_bump _ _ _) (hg k), he⟩

theorem emission_of_react (hA : A.Lawful) (hs : A.Sound c.sender) (hx : x ≠ .init) {s' : σ}
    {actions : List Action} (hr : A.endpoint.react c.clock x c.sender = (s', actions)) :
    A.Sound s' ∧ A.Change c.sender x s' ∧
      Emission A x c s' ({ c with sender := s' }.carryOut .sender actions)
        (actions.filterMap Action.sent?) := by
  obtain ⟨sound, change, output, delivered⟩ := hA.reply hs hx hr
  refine ⟨sound, change, ?_⟩
  cases output with
  | silent bit current expiry quiet =>
    rw [quiet.sent, carryOut_of_quiet quiet]
    exact .silent bit current expiry
  | released packet current sent timers =>
    simp only [carryOut, sent, timers, delivered, List.append_nil]
    exact .released packet current
  | @sending m ids current occasion sent timers =>
    simp only [carryOut, sent, timers, delivered, List.append_nil, List.foldl_append]
    obtain ⟨g, hg, he⟩ := timers_cancel ids .sender { c with sender := s' }
    rw [he]
    have hlt : g.get (packetTimer A s') < (g.bump (packetTimer A s')).get (packetTimer A s') := by
      rw [Generations.get_bump_self]
      exact Nat.lt_succ_self _
    exact .sending current occasion.reason
      (fun k => Nat.le_trans (hg k) (Generations.get_le_get_bump _ _ _))
      (Nat.lt_of_le_of_lt (hg _) hlt)

theorem Emission.effect {s' : σ} {d : Situation σ ρ} {ps : List Packet}
    (h : Emission A x c s' d ps) (hc : CarriedAll .sender ps d c') : Effect A x c s' c' := by
  cases h with
  | silent bit current expiry => exact carriedAll_nil.mp hc ▸ .silent bit current expiry
  | released packet current => exact carriedAll_nil.mp hc ▸ .released packet current
  | sending current occasion le lt =>
    exact .sending current occasion le lt (carriedAll_singleton.mp hc)

theorem Handled.effect (hA : A.Lawful) (hends : ends.sender = A.endpoint)
    (hs : A.Sound c.sender) (hx : x ≠ .init) (h : Handled ends x c .sender c') :
    ∃ s', A.Sound s' ∧ A.Change c.sender x s' ∧ Effect A x c s' c' := by
  obtain ⟨hr, hc⟩ := h
  rw [hends] at hr
  obtain ⟨sound, change, emission⟩ := emission_of_react hA hs hx hr
  exact ⟨_, sound, change, emission.effect hc⟩

theorem Effect.frame {s' : σ} (h : Effect A x c s' c') :
    ∃ queue generations, c' = { c with sender := s', queue, generations } := by
  cases h with
  | silent => exact ⟨c.queue, c.generations, rfl⟩
  | released => exact ⟨c.queue, _, rfl⟩
  | sending _ _ _ _ carried =>
    obtain ⟨queue, rfl⟩ := carried.frame
    exact ⟨queue, _, rfl⟩

theorem Effect.sender_eq {s' : σ} (h : Effect A x c s' c') : c'.sender = s' := by
  obtain ⟨queue, generations, rfl⟩ := h.frame
  rfl

/-- What a lawful receiver makes of a copy of a message. -/
theorem Handled.answer (hB : B.Lawful) (hends : ends.receiver = B.endpoint)
    (hr : B.Sound c.receiver) {p : Packet} {b : SeqBit} {m : Payload}
    (hp : (F.data b m).IsCopy p) (h : Handled ends (.packet p) c .receiver c') :
    ∃ r' delivered,
      ((b = B.expected c.receiver ∧ B.expected r' = b.flip ∧ delivered = [m]) ∨
        (B.expected r' = B.expected c.receiver ∧ delivered = [])) ∧
      Carried .receiver (F.ack (B.expected r').flip)
        { c with receiver := r', delivered := c.delivered ++ delivered } c' := by
  obtain ⟨-, -⟩ | ⟨hreact, hc⟩ := h
  rename_i r' actions
  rw [hends] at hreact
  obtain ⟨verdict, sent, timers⟩ := hB.answer hr hp hreact
  rw [sent, carriedAll_singleton] at hc
  simp only [carryOut, timers, List.foldl_nil] at hc
  exact ⟨r', _, verdict, hc⟩

structure SoundEnds (A : SendingSide F σ) (B : ReceivingSide F ρ) (c : Situation σ ρ) : Prop where
  sender : A.Sound c.sender
  receiver : B.Sound c.receiver

theorem SoundEnds.step {o : Outcome} (hA : A.Lawful) (hB : B.Lawful) (h : c.SoundEnds A B)
    (hc : Step (A.ends B) c o c') : c'.SoundEnds A B := by
  cases hc with
  | drained => exact h
  | stale => exact ⟨h.sender, h.receiver⟩
  | @handled e queue _ _ _ hh =>
    have hx := e.what.stimulus_ne_init
    generalize e.what.node = node at hh
    cases node with
    | sender =>
      obtain ⟨queue', generations, delivered, rfl⟩ := hh.sender_frame
      exact ⟨(hA.reply h.sender hx rfl).sound, h.receiver⟩
    | receiver =>
      obtain ⟨queue', generations, delivered, rfl⟩ := hh.receiver_frame
      exact ⟨h.sender, hB.sound h.receiver hx⟩

theorem Handled.eq_of_timer (hB : B.Lawful) (hends : ends.receiver = B.endpoint) {id : UInt32}
    (h : Handled ends (.timer id) c .receiver c') : c' = c := by
  obtain ⟨-, -⟩ | ⟨hreact, hc⟩ := h
  rw [hends, hB.timer] at hreact
  cases hreact
  simpa [carryOut] using hc

end Situation

end LossyLink
