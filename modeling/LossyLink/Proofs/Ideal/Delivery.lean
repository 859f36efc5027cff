import LossyLink.Proofs.Simulation.Channel
import LossyLink.Proofs.Simulation.Operation
import LossyLink.Proofs.StopAndWait.Termination
import LossyLink.Protocol.Ideal
import Mathlib.Data.List.Chain

/-! # Delivery over a link without losses

On a link that loses nothing every message is one packet, which arrives once. Damage does not
matter, since it never reaches the payload. Packets may overtake each other, so what is
delivered are the messages in some order; they stay in order if they are sent at least as far
apart as latencies differ. Each message takes two events, and there are no others.
-/

namespace LossyLink.Ideal

open Simulation Situation

def ends : Ends Unit Unit := ⟨sender, receiver⟩

variable {config : Config} {plan : List Preparation} {past : List (Nat × Payload)}
  {s s' : Simulation Unit Unit} {e : Event} {queue : Queue} {data : Payload} {p : Packet}

/-- A message is on its way in a packet. -/
structure Pushed (data : Payload) (s s' : Simulation Unit Unit) : Prop where
  senderPackets : s'.senderPackets = s.senderPackets + 1
  rules : s'.ledger.rules = s.ledger.rules
  situation : ∃ (p : Packet) (latency : Nat), p.payload = data ∧
    s.config.minLatency ≤ latency ∧ latency ≤ s.config.maxLatency ∧
    s'.situation = s.situation.enqueue (s.clock + latency) (.arrival .receiver p)

/-- Data reaches the application. -/
structure Passed (data : Payload) (s s' : Simulation Unit Unit) : Prop where
  ledger : s'.ledger = s.ledger
  situation : s'.situation = { s.situation with delivered := s.situation.delivered ++ [data] }

theorem pushed_of_transmit (hloss : IsZero s.config.lossRate)
    (hv : s.config.minLatency ≤ s.config.maxLatency) (hrules : s.ledger.rules = 0)
    (h : s.transmit .sender { payload := data } = .ok s') : Pushed data s s' := by
  have hrule := DropRules.take?_of_count_eq_zero hrules .sender {}
  obtain ⟨damaged, latency, generator, hdecision, hmin, hmax⟩ :=
    exists_carried_of_isZero (p := { payload := data }) hloss hv hrule
  rw [transmit_eq, hdecision] at h
  simp only [Simulation.pass, Simulation.links_eq] at h
  rw [after_eq_ok h]
  constructor
  · rfl
  · rfl
  · exact ⟨_, latency, by cases damaged <;> rfl, hmin, hmax, rfl⟩

theorem pushed_of_handle (hloss : IsZero s.config.lossRate)
    (hv : s.config.minLatency ≤ s.config.maxLatency) (hrules : s.ledger.rules = 0)
    (h : s.handle ends .sender (.app data) = .ok s') : Pushed data s s' := by
  obtain ⟨t, ht, hledger, h⟩ := perform_eq_ok (s := { s with sender := () }) h
  have ht : t.situation = s.situation := by
    rw [ht]
    show { s.situation with delivered := s.situation.delivered ++ [] } = s.situation
    rw [List.append_nil]
  have hconfig : t.config = s.config := congrArg Situation.config ht
  have hclock : t.clock = s.clock := congrArg Situation.clock ht
  obtain ⟨u, htransmit, h⟩ := exists_of_bind_eq_ok h
  cases h
  obtain ⟨hpackets, hrules', p, latency, hp, hmin, hmax, hs⟩ := pushed_of_transmit
    (hconfig ▸ hloss) (hconfig ▸ hv) ((congrArg Ledger.rules hledger).trans hrules) htransmit
  rw [hconfig] at hmin hmax
  rw [hclock, ht] at hs
  constructor
  · exact hpackets.trans (congrArg (fun l => l.senderPackets + 1) hledger)
  · exact hrules'.trans (congrArg Ledger.rules hledger)
  · exact ⟨p, latency, hp, hmin, hmax, hs⟩

theorem passed_of_handle (h : s.handle ends .receiver (.packet p) = .ok s') :
    Passed p.payload s s' := by
  obtain ⟨t, ht, hledger, h⟩ := perform_eq_ok (s := { s with receiver := () }) h
  cases h
  exact ⟨hledger, ht⟩

theorem exists_started (s : Simulation Unit Unit) : ∃ s', s.init ends = .ok s' ∧
    s'.situation = s.situation ∧ s'.ledger = s.ledger :=
  ⟨_, rfl, rfl, rfl⟩

theorem exists_handle_eq_ok (hv : s.config.minLatency ≤ s.config.maxLatency)
    (h : s.clock + s.config.maxLatency < clockLimit) :
    ∃ s', s.handle ends .sender (.app data) = .ok s' := by
  apply exists_perform_eq_ok (s := { s with sender := () }) hv
  · rintro delay id hmem
    cases hmem
  · exact .inr h

/-- What is on its way to the application. -/
def inFlight (s : Simulation Unit Unit) : List Payload :=
  (s.queue.inTransit .receiver).map Packet.payload

/-- The messages are sent at least as far apart as latencies differ. -/
def Spaced (config : Config) (messages : List (Nat × Payload)) : Prop :=
  messages.IsChain fun a b => config.maxLatency - config.minLatency ≤ b.1 - a.1

/-- The messages sent so far are delivered or on their way, and the others wait. -/
structure Flowing (config : Config) (plan : List Preparation) (past : List (Nat × Payload))
    (s : Simulation Unit Unit) : Prop where
  config_eq : s.config = config
  rules : s.ledger.rules = 0
  waiting : ∀ e ∈ s.queue.toList, (∃ data, e.what = .submission data) ∨
    ∃ p, e.what = .arrival .receiver p
  timetable : past ++ s.queue.timetable = timetable plan
  senderPackets : s.senderPackets = past.length
  perm : (s.delivered.toList ++ inFlight s).Perm (past.map Prod.snd)
  due : ∀ e ∈ s.queue.arrivals, ∃ last ∈ past.getLast?, e.time ≤ last.1 + config.maxLatency
  inOrder : Spaced config (LossyLink.timetable plan) →
    s.delivered.toList ++ inFlight s = past.map Prod.snd

/-- What a step can do while messages flow. -/
inductive Moved (s s' : Simulation Unit Unit) : Outcome → Prop where
  | drained (h : s.queue.toList = []) (hs : s' = s) : Moved s s' .drained
  | pushed {e : Event} {queue : Queue} {data : Payload} (hq : s.queue.pop? = some (e, queue))
      (hw : e.what = .submission data) (h : Pushed data { s with queue, clock := e.time } s') :
      Moved s s' (.handled e)
  | passed {e : Event} {queue : Queue} {p : Packet} (hq : s.queue.pop? = some (e, queue))
      (hw : e.what = .arrival .receiver p)
      (h : Passed p.payload { s with queue, clock := e.time } s') : Moved s s' (.handled e)

namespace Flowing

theorem not_stale (h : Flowing config plan past s) (he : e ∈ s.queue.toList) :
    s.isStale e = false := by
  rcases h.waiting e he with ⟨data, hw⟩ | ⟨p, hw⟩ <;> simp [Simulation.isStale, hw]

theorem moved (h : Flowing config plan past s) (hloss : IsZero config.lossRate)
    (hv : config.minLatency ≤ config.maxLatency) {o : Outcome}
    (hs : s.step ends = .ok (o, s')) : Moved s s' o := by
  have hconfig := h.config_eq
  subst hconfig
  rcases step_eq_ok hs with ⟨hq, rfl, rfl⟩ | ⟨e, queue, hq, hstale, -, -⟩ |
    ⟨e, queue, hq, -, rfl, hh⟩
  · exact .drained (Queue.pop?_eq_none_iff.mp hq) rfl
  · rw [h.not_stale (Queue.first_mem_of_pop?_eq_some hq)] at hstale
    cases hstale
  · rcases h.waiting e (Queue.first_mem_of_pop?_eq_some hq) with ⟨data, hw⟩ | ⟨p, hw⟩
    · rw [hw] at hh
      exact .pushed hq hw (pushed_of_handle hloss hv h.rules hh)
    · rw [hw] at hh
      exact .passed hq hw (passed_of_handle hh)

theorem spaced (h : Flowing config plan past s) {x : Nat × Payload} {rest : List (Nat × Payload)}
    (hx : s.queue.timetable = x :: rest) {last : Nat × Payload} (hlast : last ∈ past.getLast?) :
    last.1 ≤ x.1 ∧ (Spaced config (LossyLink.timetable plan) →
      config.maxLatency - config.minLatency ≤ x.1 - last.1) := by
  have hall := h.timetable
  rw [hx] at hall
  have hnext : ∀ {R : Nat × Payload → Nat × Payload → Prop},
      (LossyLink.timetable plan).IsChain R → R last x := by
    intro R hchain
    rw [← hall] at hchain
    exact (List.isChain_append.mp hchain).2.2 last hlast x rfl
  constructor
  · have hsorted := List.pairwise_mergeSort notLater_trans notLater_total (planned plan)
    exact of_decide_eq_true (hnext hsorted.isChain)
  · exact hnext

/-- What is on its way when a message is sent arrives within its bounds, and before the
message if all are spaced. -/
theorem arrival_le (h : Flowing config plan past s) (hv : config.minLatency ≤ config.maxLatency)
    {x : Nat × Payload} {rest : List (Nat × Payload)} (hx : s.queue.timetable = x :: rest)
    {a : Event} (ha : a ∈ s.queue.arrivals) :
    a.time ≤ x.1 + config.maxLatency ∧
      (Spaced config (LossyLink.timetable plan) → a.time ≤ x.1 + config.minLatency) := by
  obtain ⟨last, hlast, htime⟩ := h.due a ha
  obtain ⟨hle, hgap⟩ := h.spaced hx hlast
  constructor
  · omega
  · intro hspaced
    have hgap := hgap hspaced
    omega

theorem queue_of_submission (hq : s.queue.pop? = some (e, queue)) (hw : e.what = .submission data) :
    s.queue.timetable = (e.time, data) :: queue.timetable ∧
      s.queue.inTransit .receiver = queue.inTransit .receiver ∧
      s.queue.arrivals = queue.arrivals := by
  rw [Queue.timetable_of_pop?_eq_some hq, Queue.inTransit_of_pop?_eq_some hq,
    Queue.arrivals_of_pop?_eq_some hq]
  simp [Event.timed?, Event.submission?, Event.packetTo?, Event.isArrival, hw]

theorem push (h : Flowing config plan past s) (hv : config.minLatency ≤ config.maxLatency)
    (hq : s.queue.pop? = some (e, queue)) (hw : e.what = .submission data)
    (hp : Pushed data { s with queue, clock := e.time } s') :
    Flowing config plan (past ++ [(e.time, data)]) s' := by
  obtain ⟨p, latency, rfl, hmin, hmax, hs⟩ := hp.situation
  have hconfig : s'.config = s.config := congrArg Situation.config hs
  have hqueue : s'.queue = queue.schedule (e.time + latency) (.arrival .receiver p) :=
    congrArg Situation.queue hs
  have hdelivered : s'.delivered.toList = s.delivered.toList :=
    congrArg Situation.delivered hs
  obtain ⟨htimetable, htransit, harrivals⟩ := queue_of_submission hq hw
  rw [h.config_eq] at hmin hmax
  constructor
  · exact hconfig.trans h.config_eq
  · exact hp.rules.trans h.rules
  · rintro x hx
    rw [hqueue] at hx
    rcases Queue.mem_schedule.mp hx with rfl | hx
    · exact .inr ⟨p, rfl⟩
    · exact h.waiting x (Queue.mem_of_mem_rest hq hx)
  · have hrest : s'.queue.timetable = queue.timetable := by
      rw [hqueue]
      apply Queue.timetable_schedule_of_ne
      rintro data ⟨⟩
    rw [hrest, List.append_assoc, List.singleton_append, ← htimetable]
    exact h.timetable
  · rw [hp.senderPackets, List.length_append]
    exact congrArg (· + 1) h.senderPackets
  · have hsent : (inFlight s').Perm (p.payload :: inFlight s) := by
      unfold inFlight
      rw [hqueue, htransit]
      exact Queue.inTransit_schedule_perm.map Packet.payload
    rw [hdelivered, List.map_append]
    exact (hsent.append_left _).trans (List.perm_middle.trans
      ((h.perm.cons _).trans (List.perm_append_singleton _ _).symm))
  · rintro x hx
    refine ⟨_, by rw [List.getLast?_concat]; rfl, ?_⟩
    rw [hqueue] at hx
    obtain ⟨hx, harrival⟩ := List.mem_filter.mp hx
    rcases Queue.mem_schedule.mp hx with rfl | hx
    · exact Nat.add_le_add_left hmax _
    · have hmem : x ∈ queue.arrivals := List.mem_filter.mpr ⟨hx, harrival⟩
      exact (h.arrival_le hv htimetable (harrivals ▸ hmem)).1
  · intro hspaced
    have hsent : inFlight s' = inFlight s ++ [p.payload] := by
      unfold inFlight
      rw [hqueue, htransit, Queue.inTransit_schedule_arrival, List.map_append]
      · rfl
      · rintro x hx
        have hle := (h.arrival_le hv htimetable (harrivals ▸ hx)).2 hspaced
        omega
    rw [hdelivered, hsent, ← List.append_assoc, h.inOrder hspaced, List.map_append]
    rfl

theorem pass (h : Flowing config plan past s) (hq : s.queue.pop? = some (e, queue))
    (hw : e.what = .arrival .receiver p)
    (hp : Passed p.payload { s with queue, clock := e.time } s') :
    Flowing config plan past s' := by
  have hconfig : s'.config = s.config := congrArg Situation.config hp.situation
  have hqueue : s'.queue = queue := congrArg Situation.queue hp.situation
  have hdelivered : s'.delivered.toList = s.delivered.toList ++ [p.payload] :=
    congrArg Situation.delivered hp.situation
  have htimetable : s.queue.timetable = queue.timetable := by
    rw [Queue.timetable_of_pop?_eq_some hq]
    simp [Event.timed?, Event.submission?, hw]
  have htransit : s'.delivered.toList ++ inFlight s' = s.delivered.toList ++ inFlight s := by
    unfold inFlight
    rw [Queue.inTransit_of_pop?_eq_some hq, hqueue, hdelivered]
    simp [Event.packetTo?, hw]
  constructor
  · exact hconfig.trans h.config_eq
  · exact (congrArg Ledger.rules hp.ledger).trans h.rules
  · rintro x hx
    rw [hqueue] at hx
    exact h.waiting x (Queue.mem_of_mem_rest hq hx)
  · rw [hqueue, ← htimetable]
    exact h.timetable
  · exact (congrArg Ledger.senderPackets hp.ledger).trans h.senderPackets
  · rw [htransit]
    exact h.perm
  · rintro x hx
    rw [hqueue] at hx
    obtain ⟨hx, harrival⟩ := List.mem_filter.mp hx
    exact h.due x (List.mem_filter.mpr ⟨Queue.mem_of_mem_rest hq hx, harrival⟩)
  · rw [htransit]
    exact h.inOrder

/-- Each step sends a message or delivers one, until nothing is left to do. -/
theorem step (h : Flowing config plan past s) (hloss : IsZero config.lossRate)
    (hv : config.minLatency ≤ config.maxLatency) {o : Outcome}
    (hs : s.step ends = .ok (o, s')) :
    Flowing config plan (past ++ o.timed?.toList) s' ∧
      ((s.queue.isEmpty = true ∧ s' = s) ∨
        (past ++ o.timed?.toList).length + s'.delivered.toList.length =
          past.length + s.delivered.toList.length + 1) := by
  cases h.moved hloss hv hs with
  | drained hq hs' =>
    subst hs'
    rw [show Outcome.timed? .drained = none from rfl, Option.toList_none, List.append_nil]
    exact ⟨h, .inl ⟨Queue.isEmpty_iff.mpr hq, rfl⟩⟩
  | @pushed e queue data hq hw hp =>
    have htimed : (Outcome.handled e).timed? = some (e.time, data) := by
      simp [Outcome.timed?, Event.timed?, Event.submission?, hw]
    obtain ⟨p, latency, -, -, -, hs'⟩ := hp.situation
    have hdelivered : s'.delivered.toList = s.delivered.toList :=
      congrArg Situation.delivered hs'
    rw [htimed, Option.toList_some, hdelivered, List.length_append]
    exact ⟨h.push hv hq hw hp, .inr (Nat.add_right_comm _ _ _)⟩
  | @passed e queue p hq hw hp =>
    have htimed : (Outcome.handled e).timed? = none := by
      simp [Outcome.timed?, Event.timed?, Event.submission?, hw]
    have hdelivered : s'.delivered.toList = s.delivered.toList ++ [p.payload] :=
      congrArg Situation.delivered hp.situation
    rw [htimed, Option.toList_none, List.append_nil, hdelivered, List.length_append]
    exact ⟨h.pass hq hw hp, .inr rfl⟩

theorem walk (h : Flowing config plan [] s) (hloss : IsZero config.lossRate)
    (hv : config.minLatency ≤ config.maxLatency) {n : Nat} {turns : List (Turn Unit Unit)}
    (hs : s.walk ends n = .ok (turns, s')) :
    Flowing config plan (timetabled turns) s' ∧ (s'.queue.isEmpty = true ∨
      n ≤ (timetabled turns).length + s'.delivered.toList.length) := by
  rw [← length_of_walk hs]
  apply walk_induction (P := fun turns t => Flowing config plan (timetabled turns) t ∧
    (t.queue.isEmpty = true ∨ turns.length ≤ (timetabled turns).length + t.delivered.toList.length))
    _ [] ⟨h, .inr (Nat.zero_le _)⟩ hs
  rintro turns t o t' ⟨hflow, hcount⟩ hstep
  obtain ⟨hflow', hnext⟩ := hflow.step hloss hv hstep
  rw [timetabled_append, List.length_append, List.length_singleton]
  refine ⟨hflow', ?_⟩
  rcases hcount with hempty | hcount
  · rw [step_of_isEmpty ends hempty] at hstep
    cases hstep
    exact .inl hempty
  · rcases hnext with ⟨hempty, rfl⟩ | hnext
    · exact .inl hempty
    · exact .inr (hnext ▸ Nat.succ_le_succ hcount)

theorem senderPackets_le (h : Flowing config plan past s) :
    s.senderPackets ≤ (planned plan).length := by
  have hsent := congrArg List.length h.timetable
  have hall : (LossyLink.timetable plan).length = (planned plan).length :=
    List.length_mergeSort _
  rw [List.length_append] at hsent
  have hpackets := h.senderPackets
  omega

theorem isEmpty_of_le (h : Flowing config plan past s)
    (hle : 2 * (planned plan).length ≤ past.length + s.delivered.toList.length) :
    s.queue.isEmpty = true := by
  have hsent := congrArg List.length h.timetable
  have hall : (LossyLink.timetable plan).length = (planned plan).length :=
    List.length_mergeSort _
  have hdelivered := h.perm.length_eq
  rw [List.length_append] at hsent hdelivered
  rw [List.length_map] at hdelivered
  have htimetable : s.queue.timetable = [] := List.eq_nil_of_length_eq_zero (by omega)
  have hflight : inFlight s = [] := List.eq_nil_of_length_eq_zero (by omega)
  have htransit : s.queue.inTransit .receiver = [] := List.map_eq_nil_iff.mp hflight
  apply Queue.isEmpty_iff.mpr
  apply List.eq_nil_iff_forall_not_mem.mpr
  rintro e he
  rcases h.waiting e he with ⟨data, hw⟩ | ⟨p, hw⟩
  · have hnone := List.filterMap_eq_nil_iff.mp htimetable e he
    simp [Event.timed?, Event.submission?, hw] at hnone
  · have hnone := List.filterMap_eq_nil_iff.mp htransit e he
    rw [Event.packetTo?_eq_some_iff.mpr hw] at hnone
    cases hnone

theorem of_isEmpty (h : Flowing config plan past s) (hempty : s.queue.isEmpty = true) :
    past = LossyLink.timetable plan ∧ inFlight s = [] := by
  have hnil := Queue.isEmpty_iff.mp hempty
  have htimetable : s.queue.timetable = [] := by
    unfold Queue.timetable
    rw [hnil]
    rfl
  constructor
  · rw [← h.timetable, htimetable, List.append_nil]
  · unfold inFlight Queue.inTransit
    rw [hnil]
    rfl

theorem exists_walk_eq_ok (h : Flowing config plan past s) (hloss : IsZero config.lossRate)
    (hv : config.minLatency ≤ config.maxLatency)
    (hclock : ∀ x ∈ planned plan, x.1 + config.maxLatency < clockLimit) (n : Nat) :
    ∃ r, s.walk ends n = .ok r := by
  induction n generalizing s past with
  | zero => exact ⟨_, rfl⟩
  | succ n ih =>
    have hstep : ∃ r, s.step ends = .ok r := by
      apply exists_step_eq_ok
      rintro e queue hq -
      have he := Queue.first_mem_of_pop?_eq_some hq
      rcases h.waiting e he with ⟨data, hw⟩ | ⟨p, hw⟩
      · have hmem : (e.time, data) ∈ s.queue.timetable := by
          apply List.mem_filterMap.mpr
          exact ⟨e, he, by simp [Event.timed?, Event.submission?, hw]⟩
        have hall : (e.time, data) ∈ LossyLink.timetable plan :=
          h.timetable ▸ List.mem_append_right _ hmem
        have htime := hclock _ ((List.mergeSort_perm _ _).mem_iff.mp hall)
        rw [hw]
        apply exists_handle_eq_ok
        · exact h.config_eq ▸ hv
        · exact h.config_eq ▸ htime
      · rw [hw]
        exact ⟨_, rfl⟩
    obtain ⟨⟨o, t⟩, ht⟩ := hstep
    obtain ⟨⟨turns, s'⟩, hs⟩ := ih (h.step hloss hv ht).1
    exact ⟨(⟨s, o⟩ :: turns, s'), by simp only [Simulation.walk, ht, hs]⟩

end Flowing

theorem flowing_of_init (config : Config) (hdrops : scripted plan = []) :
    ∃ s, ((fresh config ends).prepare plan).init ends = .ok s ∧ Flowing config plan [] s := by
  obtain ⟨s, hinit, hsituation, hledger⟩ := exists_started ((fresh config ends).prepare plan)
  rw [ledger_prepare_fresh, hdrops] at hledger
  have hqueue : s.queue = ((fresh config ends).prepare plan).queue :=
    congrArg Situation.queue hsituation
  have hwaits : ∀ e ∈ s.queue.toList, ∃ data, e.what = .submission data := by
    rw [hqueue]
    exact submission_of_mem_prepare_fresh plan
  have hdelivered : s.delivered.toList = [] := by
    have hfresh : ((fresh config ends).prepare plan).delivered = #[] :=
      (records_prepare (fresh config ends) plan).2.1
    rw [show s.delivered.toList = _ from congrArg Situation.delivered hsituation]
    exact congrArg Array.toList hfresh
  have hflight : inFlight s = [] := List.map_eq_nil_iff.mpr (Queue.inTransit_eq_nil hwaits)
  refine ⟨s, hinit, ?_⟩
  constructor
  · exact (congrArg Situation.config hsituation).trans (config_prepare _ plan)
  · rw [hledger]
    rfl
  · rintro e he
    exact .inl (hwaits e he)
  · rw [hqueue]
    exact timetable_prepare config ends plan
  · exact congrArg Ledger.senderPackets hledger
  · rw [hdelivered, hflight]
    exact .refl _
  · rintro e he
    obtain ⟨he, harrival⟩ := List.mem_filter.mp he
    obtain ⟨data, hw⟩ := hwaits e he
    simp [Event.isArrival, hw] at harrival
  · rintro -
    rw [hdelivered, hflight]
    rfl

/-- On a link that loses nothing, whatever it damages and however long it takes: a run ends by
itself within two events for each message, the sender has sent one packet for each, and the
messages are delivered in some order, which is that of their submission if they are spaced. -/
theorem delivers_submitted_of_lossless {config : Config} {s : Simulation Unit Unit}
    (hs : create config ends = .ok s) (hloss : IsZero config.lossRate)
    (plan : List Preparation) (hdrops : scripted plan = [])
    (hcount : (planned plan).length < 2 ^ 32) {limit : Nat}
    (hl : 2 * (planned plan).length ≤ limit) :
    (∀ n turns s', (s.prepare plan).history ends n = .ok (turns, s') →
      s'.senderPackets < 2 ^ 32) ∧
    (∀ completed s', (s.prepare plan).run ends limit = .ok (completed, s') →
      completed = true ∧ s'.senderPackets = (planned plan).length ∧
      s'.delivered.toList.Perm (outgoing plan) ∧
      ((timetable plan).IsChain (fun a b =>
        config.maxLatency - config.minLatency ≤ b.1 - a.1) →
        s'.delivered.toList = outgoing plan)) ∧
    ((∀ x ∈ planned plan, x.1 + config.maxLatency < clockLimit) →
      ∃ s', (s.prepare plan).run ends limit = .ok (true, s')) := by
  obtain ⟨hvalid, rfl⟩ := create_eq_ok_iff.mp hs
  obtain ⟨s₀, hinit, hstart⟩ := flowing_of_init config hdrops
  have hrun : ((fresh config ends).prepare plan).run ends limit =
      (s₀.walk ends limit).map fun x =>
        (x.2.queue.isEmpty, x.2.close limit x.2.queue.isEmpty) := by
    rw [run_eq_history]
    unfold history
    rw [hinit]
  have hend : ∀ {turns s₁}, s₀.walk ends limit = .ok (turns, s₁) →
      Flowing config plan (timetabled turns) s₁ ∧ s₁.queue.isEmpty = true := by
    rintro turns s₁ hwalk
    obtain ⟨hflow, hempty | hcount⟩ := hstart.walk hloss hvalid.latency hwalk
    · exact ⟨hflow, hempty⟩
    · exact ⟨hflow, hflow.isEmpty_of_le (Nat.le_trans hl hcount)⟩
  rw [hrun]
  refine ⟨?_, ?_, ?_⟩
  · intro n turns s' h
    obtain ⟨s₁, hinit', hwalk⟩ := history_eq_ok h
    obtain rfl : s₀ = s₁ := Except.ok.inj (hinit.symm.trans hinit')
    exact Nat.lt_of_le_of_lt (hstart.walk hloss hvalid.latency hwalk).1.senderPackets_le hcount
  · rintro completed s' hs'
    obtain ⟨⟨turns, s₁⟩, hwalk, hs'⟩ := exists_of_map_eq_ok hs'
    obtain ⟨hflow, hempty⟩ := hend hwalk
    obtain ⟨hall, hflight⟩ := hflow.of_isEmpty hempty
    rw [hempty] at hs'
    cases hs'
    have hperm := hflow.perm
    have hinOrder := hflow.inOrder
    have hpackets := hflow.senderPackets
    rw [hflight, List.append_nil, hall] at hperm hinOrder
    rw [hall] at hpackets
    exact ⟨rfl, hpackets.trans (List.length_mergeSort _), hperm, hinOrder⟩
  · rintro hclock
    obtain ⟨⟨turns, s₁⟩, hwalk⟩ := hstart.exists_walk_eq_ok hloss hvalid.latency hclock limit
    obtain ⟨-, hempty⟩ := hend hwalk
    rw [hwalk]
    exact ⟨s₁.close limit true, by simp only [Except.map, hempty]⟩

/-- A link that damages about every second packet. -/
def damaging (minLatency maxLatency : Nat) : Config where
  corruptRate := 0.5
  minLatency
  maxLatency
  seed := 13

/-- Three messages as far apart as latencies between 10 and 90 differ, out of order. -/
def spacedOut : List Preparation := [.submit 160 [3], .submit 0 [1, 2], .submit 80 [9]]

theorem create_damaging {m n : Nat} (h : m ≤ n) :
    create (damaging m n) ends = .ok (fresh (damaging m n) ends) := by
  have hloss : isProbability 0.0 = true := by decide +kernel
  have hcorrupt : isProbability 0.5 = true := by decide +kernel
  exact create_eq_ok_iff.mpr ⟨⟨hloss, hcorrupt, h⟩, rfl⟩

theorem delivers_submitted_over_damaging_link : ∃ s' : Simulation Unit Unit,
    ((fresh (damaging 10 90) ends).prepare spacedOut).run ends 6 = .ok (true, s') ∧
      s'.senderPackets = 3 ∧ s'.delivered.toList = [[1, 2], [9], [3]] := by
  have htimetable : timetable spacedOut = [(0, [1, 2]), (80, [9]), (160, [3])] := by
    show List.mergeSort [(160, [3]), (0, [1, 2]), (80, [9])] notLater = _
    simp [List.mergeSort, notLater]
  obtain ⟨-, hall, htotal⟩ := delivers_submitted_of_lossless
    (create_damaging (by decide : 10 ≤ 90)) (.inl rfl) spacedOut rfl (by decide)
    (by decide : 2 * (planned spacedOut).length ≤ 6)
  obtain ⟨s', hrun⟩ := htotal (by decide)
  obtain ⟨-, hpackets, -, hinOrder⟩ := hall true s' hrun
  have hdelivered := hinOrder (by rw [htimetable]; decide)
  refine ⟨s', hrun, hpackets, hdelivered.trans ?_⟩
  rw [outgoing, htimetable]
  rfl

/-- Messages that are less far apart may overtake each other. -/
example : (((fresh (damaging 0 1) ends).prepare [.submit 0 [1], .submit 0 [2]]).run ends 4).map
    (fun x => x.2.delivered.toList) = .ok [[2], [1]] := by
  decide +kernel

end LossyLink.Ideal
