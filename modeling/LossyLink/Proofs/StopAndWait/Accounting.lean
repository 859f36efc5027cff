import LossyLink.Proofs.StopAndWait.Following

/-! # Transfers keep to their courses

A submission is sent at once or kept for later, a packet that reaches the receiver is
answered, an answer brings the transfer on or makes the sender try again, and the timer makes
up for what was lost. Each of these is one move of the course.
-/

namespace LossyLink

open Situation Simulation

variable {σ ρ : Type} {F : Format} {A : SendingSide F σ} {B : ReceivingSide F ρ}
  {s s' t : Simulation σ ρ} {x y : Course} {log : List (σ × Stimulus)} {last : Nat} {e : Event}
  {queue : Queue} {node : Node} {p : Packet} {s₁ : σ} {z : Stimulus} {eager : Prop}

/-- A transfer over a channel that is fast beside the timer, on its course. -/
structure Accounted (A : SendingSide F σ) (B : ReceivingSide F ρ) (log : List (σ × Stimulus))
    (last : Nat) (s : Simulation σ ρ) (x : Course) : Prop where
  latency : s.config.minLatency ≤ s.config.maxLatency
  running : Running A B log s.situation
  solitary : s.situation.Solitary A
  untimed : s.situation.Untimed
  follows : Follows A log last s x

theorem Accounted.sound (h : Accounted A B log last s x) : A.Sound s.sender :=
  h.running.sound.sender

theorem Accounted.now_le (h : Accounted A B log last s x)
    (hq : s.queue.pop? = some (e, queue)) : x.now ≤ e.time := by
  rw [h.follows.now]
  exact h.running.coherent.clock_le_of_pop? hq

theorem Accounted.arrivals (h : Accounted A B log last s x)
    (hq : s.queue.pop? = some (e, queue)) (hw : e.what = .arrival node p) :
    queue.arrivals = [] ∧ s.queue.arrivals = [e] := by
  have ha : e.isArrival = true := Event.isArrival_iff.mpr ⟨node, p, hw⟩
  have hnil : queue.arrivals = [] := h.solitary.alone hq (.inl ha)
  exact ⟨hnil, by rw [Queue.arrivals_of_pop?_eq_some hq, hnil, if_pos ha]⟩

theorem arrivals_of_not_arrival (hq : s.queue.pop? = some (e, queue))
    (ha : e.isArrival = false) : queue.arrivals = s.queue.arrivals := by
  rw [Queue.arrivals_of_pop?_eq_some hq, ha]
  rfl

theorem Accounted.idle_of_drained (h : Accounted A B log last s x) (hq : s.queue.isEmpty) :
    x.stage = .idle :=
  h.follows.stage.eq_idle (h.running.ticking.current_eq_none hq)

/-- A step after which the same packet is under way leaves its timer alone. -/
theorem Accounted.sentAt (h : Accounted A B log last s x) (hq : s.queue.pop? = some (e, queue))
    (hbit : A.bit s'.sender = A.bit s.sender) (hcurrent : A.current s'.sender = A.current s.sender)
    (hgenerations : s'.generations = s.generations)
    (hmem : ∀ d ∈ s'.queue.toList, d.isArrival = false → d ∈ queue.toList) :
    (A.current s'.sender).isSome → ∀ d ∈ s'.queue.toList, s'.situation.Armed A d →
      d.time = x.sentAt + A.timeout := by
  intro hwait d hd ha
  have hwhat : d.what = .expiry .sender (A.timerId (A.bit s'.sender))
      (s'.generations.get (.sender, A.timerId (A.bit s'.sender))) := ha
  have hd := hmem d hd (by simp [Event.isArrival, hwhat])
  rw [hbit, hgenerations] at hwhat
  exact h.follows.sentAt (hcurrent ▸ hwait) d (Queue.mem_of_mem_rest hq hd) hwhat

/-- A sender that only looks at an event, without an answer to the link, leaves the channel and
its timer to themselves. -/
theorem Accounted.unmoved {log' : List (σ × Stimulus)} {last' : Nat}
    (h : Accounted A B log last s x) (hq : s.queue.pop? = some (e, queue))
    (bit : A.bit s₁ = A.bit s.sender) (current : A.current s₁ = A.current s.sender)
    (hs : s'.situation = { s.situation.reach e queue with sender := s₁ })
    (htally : s'.tally = s.tally) (hstage : s'.situation.Stands A y.stage) (hnow : y.now = e.time)
    (hlast : y.last = last') (hsentAt : y.sentAt = x.sentAt) (htally' : y.tally = x.tally)
    (haccepted : y.accepted = (A.admitted log').length)
    (hbacklog : y.backlog = (A.backlog s₁).length) : Follows A log' last' s' y := by
  have hsender : s'.sender = s₁ := congrArg Situation.sender hs
  have hqueue : s'.queue = queue := congrArg Situation.queue hs
  refine ⟨hstage, ?_, hlast, ?_, ?_, haccepted, ?_⟩
  · rw [hnow]
    exact (congrArg Situation.clock hs).symm
  · rw [hsentAt]
    exact h.sentAt hq (hsender ▸ bit) (hsender ▸ current) (congrArg Situation.generations hs)
      fun d hd _ => hqueue ▸ hd
  · rw [htally', htally]
    exact h.follows.tally
  · rw [hsender, hbacklog]

/-- While a message is under way the event that it depends on waits in the queue. -/
theorem Accounted.exists_due (h : Accounted A B log last s x)
    (hwait : (A.current s.sender).isSome) : ∃ d ∈ s.queue.toList, d.time = x.due A.timeout := by
  have hstands := h.follows.stage
  unfold Course.due
  generalize x.stage = stage at hstands
  cases hstands with
  | idle current =>
    rw [show A.current s.sender = none from current] at hwait
    cases hwait
  | lost current arrivals =>
    obtain ⟨d, -, hiff⟩ := h.running.ticking.waiting hwait
    obtain ⟨hd, ha⟩ := (hiff _ d).mpr ⟨rfl, rfl⟩
    exact ⟨d, hd, h.follows.sentAt hwait d hd ha⟩
  | @outbound d m damaged current arrivals what =>
    exact ⟨d, List.mem_of_mem_filter (arrivals ▸ List.mem_singleton_self d), rfl⟩
  | @inbound d p good current arrivals what =>
    exact ⟨d, List.mem_of_mem_filter (arrivals ▸ List.mem_singleton_self d), rfl⟩

theorem exists_sent_of_conveyed {m : Payload} {g : Generations} {w : Passage}
    (hcoh : (s.situation.reach e queue).Coherent) (hnil : queue.arrivals = [])
    (current : A.current s₁ = some m)
    (lt : s.generations.get (packetTimer A s₁) < g.get (packetTimer A s₁))
    (ht : t.situation = { s.situation.reach e queue with sender := s₁, generations := g }.enqueue
      (e.time + A.timeout) (.expiry .sender (A.timerId (A.bit s₁)) (g.get (packetTimer A s₁))))
    (hc : Conveyed .sender [⟨F.data (A.bit s₁) m, w⟩] t s') (htally : x.tally = t.tally)
    (hlast : x.last = last) (haccepted : x.accepted = (A.admitted log).length)
    (hbacklog : x.backlog = (A.backlog s₁).length) :
    ∃ y, Course.Sent s.config.maxLatency e.time x y ∧ Follows A log last s' y := by
  have htally' := tally_of_conveyed hc
  rw [← htally] at htally'
  have hconfig : t.config = s.config := congrArg Situation.config ht
  have htime : t.clock = e.time := congrArg Situation.clock ht
  have hqueue : t.queue = queue.schedule (e.time + A.timeout) (.expiry .sender
      (A.timerId (A.bit s₁)) (g.get (packetTimer A s₁))) := congrArg Situation.queue ht
  have hnil' : t.queue.arrivals = [] := by
    rw [hqueue, Queue.arrivals_schedule_of_not rfl, hnil]
  obtain ⟨sender, clock, generations, mem, arrivals⟩ := lone_of_conveyed hc hnil'
  have hsender : s'.sender = s₁ := sender.trans (congrArg Situation.sender ht)
  have hgenerations : s'.generations = g := generations.trans (congrArg Situation.generations ht)
  have hclock : e.time = s'.clock := (clock.trans htime).symm
  have hcurrent : A.current s'.sender = some m := hsender ▸ current
  have hbacklog : x.backlog = (A.backlog s'.sender).length := hsender ▸ hbacklog
  have hsentAt : ∀ d ∈ s'.queue.toList, s'.situation.Armed A d → d.time = e.time + A.timeout := by
    intro d hd ha
    have hwhat : d.what = .expiry .sender (A.timerId (A.bit s'.sender))
        (s'.generations.get (.sender, A.timerId (A.bit s'.sender))) := ha
    have hd := mem d hd (by simp [Event.isArrival, hwhat])
    rw [hqueue] at hd
    rw [hsender, hgenerations] at hwhat
    exact hcoh.time_eq_of_started lt hd hwhat
  rcases arrivals with ⟨reason, rfl, hnone⟩ | ⟨damaged, latency, id, rfl, hle, hone⟩
  · exact ⟨_, .dropped, .lost (Option.isSome_of_mem hcurrent) hnone, hclock, hlast,
      fun _ => hsentAt, htally'.symm, haccepted, hbacklog⟩
  · rw [hconfig] at hle
    refine ⟨_, .carried ?_, .outbound hcurrent hone ?_, hclock, hlast, fun _ => hsentAt,
      htally'.symm, haccepted, hbacklog⟩
    · rw [htime]
      exact Nat.add_le_add_left hle _
    · rw [show s'.situation.sender = s₁ from hsender]
      rfl

theorem Accounted.backlog_of_idle (hL : A.Accountable B eager) (h : Accounted A B log last s x)
    (hidle : A.current s.sender = none) : x.stage = .idle ∧ x.backlog = 0 := by
  refine ⟨h.follows.stage.eq_idle hidle, ?_⟩
  rw [h.follows.backlog, hL.sending.backlog_eq_nil h.sound hidle]
  rfl

theorem Accounted.keep (hL : A.Accountable B eager) (h : Accounted A B log last s x)
    (hq : s.queue.pop? = some (e, queue)) (ha : e.isArrival = false) (hsound : A.Sound s₁)
    (bit : A.bit s₁ = A.bit s.sender) (current : A.current s₁ = A.current s.sender)
    (hbacklog : A.backlog s₁ = A.backlog s.sender ++ (A.accepted? s.sender z).toList)
    (hs : s'.situation = { s.situation.reach e queue with sender := s₁ })
    (htally : s'.tally = s.tally) :
    ∃ y, Course.Move A.timeout s.config.maxLatency eager x y ∧
      Follows A (log ++ [(s.sender, z)]) e.time s' y := by
  have hlength := congrArg List.length hbacklog
  rw [List.length_append] at hlength
  have hnew : x.stage = .idle ∨ eager → (A.accepted? s.sender z).toList.length = 0 := by
    rintro (hidle | heager)
    · have hnone : A.current s.sender = none := (hidle ▸ h.follows.stage).current_eq_none
      rw [hL.sending.backlog_eq_nil hsound (current.trans hnone), List.length_nil] at hlength
      omega
    · rw [(hL.eager heager).backlog, List.length_nil] at hlength
      omega
  have hstage : s'.situation.Stands A x.stage := by
    rw [hs]
    exact h.follows.stage.congr current bit (arrivals_of_not_arrival hq ha)
  refine ⟨_, .keep (h.now_le hq) hnew, ?_⟩
  refine h.unmoved hq bit current hs htally hstage rfl rfl rfl rfl ?_ ?_
  · simp only [A.admitted_append, List.length_append, h.follows.accepted]
  · simp only [hlength, h.follows.backlog]

theorem Accounted.submission_step (hL : A.Accountable B eager)
    (h : Accounted A B log last s x) (hq : s.queue.pop? = some (e, queue)) {data : Payload}
    (hw : e.what = .submission data)
    (hh : { s with queue, clock := e.time }.handle (A.ends B) .sender (.app data) = .ok s') :
    ∃ y, Course.Move A.timeout s.config.maxLatency eager x y ∧
      Follows A (log ++ [(s.sender, .app data)]) e.time s' y := by
  have ha : e.isArrival = false := by simp [Event.isArrival, hw]
  have hz : Stimulus.app data ≠ .init := by rintro ⟨⟩
  obtain ⟨s₁, hsound, hchange, -, hresponse⟩ :=
    exists_response_of_handle hL.sending h.sound hz h.latency hh
  have hbacklog : (A.current s₁).toList ++ A.backlog s₁ = (A.current s.sender).toList ++
      A.backlog s.sender ++ (A.accepted? s.sender (.app data)).toList := by
    cases hchange with
    | stay bit current backlog confirms => exact backlog
    | advance packet => cases packet
  cases hresponse with
  | silent bit current expiry sent situation tally =>
    rw [current, List.append_assoc, List.append_cancel_left_eq] at hbacklog
    exact h.keep hL hq ha hsound bit current hbacklog situation tally
  | released packet => cases packet
  | sending current occasion lt situation tally conveyed =>
    have hnone : A.current s.sender = none := by
      rcases occasion with hnone | ⟨p, happ⟩ | happ
      · exact hnone
      · cases happ
      · cases happ
    have hnil : queue.arrivals = [] :=
      (arrivals_of_not_arrival hq ha).trans (h.solitary.idle hnone)
    obtain ⟨hidle, hempty⟩ := h.backlog_of_idle hL hnone
    have hlength := congrArg List.length hbacklog
    rw [current, hnone, hL.sending.backlog_eq_nil h.sound hnone] at hlength
    simp only [Option.toList_some, Option.toList_none, List.length_append, List.length_cons,
      List.length_nil] at hlength
    have hone : (A.accepted? s.sender (.app data)).toList.length ≤ 1 := Option.length_toList_le
    have haccepted : x.accepted + 1 = (A.admitted (log ++ [(s.sender, .app data)])).length := by
      rw [A.admitted_append, List.length_append, h.follows.accepted]
      omega
    have hkept : x.backlog = (A.backlog s₁).length := by omega
    obtain ⟨y, hy, hfollows⟩ := exists_sent_of_conveyed
      (x := { x with accepted := x.accepted + 1, last := e.time }) (h.running.coherent.reach hq)
      hnil current lt situation conveyed (h.follows.tally.trans tally.symm) rfl haccepted hkept
    exact ⟨y, .submit hidle (h.now_le hq) hy, hfollows⟩

theorem backlog_eq_of_stay {s : σ} (hwait : (A.current s).isSome)
    (hnone : A.accepted? s z = none) (same : A.current s = none ∨ A.current s₁ = A.current s)
    (backlog : (A.current s₁).toList ++ A.backlog s₁ =
      (A.current s).toList ++ A.backlog s ++ (A.accepted? s z).toList) :
    A.current s₁ = A.current s ∧ A.backlog s₁ = A.backlog s := by
  have hsame : A.current s₁ = A.current s :=
    same.resolve_left (Option.isSome_iff_ne_none.mp hwait)
  rw [hsame, hnone, Option.toList_none, List.append_nil] at backlog
  exact ⟨hsame, List.append_cancel_left backlog⟩

theorem Accounted.accepted_eq (hL : A.Accountable B eager) (h : Accounted A B log last s x)
    (hz : z.submission? = none) :
    A.accepted? s.sender z = none ∧
      x.accepted = (A.admitted (log ++ [(s.sender, z)])).length := by
  have hnone : A.accepted? s.sender z = none := hL.faithful.accepts hz
  refine ⟨hnone, ?_⟩
  rw [A.admitted_append, hnone, h.follows.accepted]
  simp

theorem Accounted.expiry_step (hL : A.Accountable B eager)
    (h : Accounted A B log last s x) (hq : s.queue.pop? = some (e, queue))
    (hst : s.isStale e = false) {id : UInt32} {generation : Nat}
    (hw : e.what = .expiry .sender id generation)
    (hh : { s with queue, clock := e.time }.handle (A.ends B) .sender (.timer id) = .ok s') :
    ∃ y, Course.Move A.timeout s.config.maxLatency eager x y ∧
      Follows A (log ++ [(s.sender, .timer id)]) last s' y := by
  have hmem : e ∈ s.queue.toList := Queue.first_mem_of_pop?_eq_some hq
  have ha : e.isArrival = false := by simp [Event.isArrival, hw]
  obtain ⟨hwait, hid⟩ : (A.current s.sender).isSome ∧ id = A.timerId (A.bit s.sender) :=
    h.running.ticking.eq_of_pending (pending_of_not_stale hmem hw hst)
  subst hid
  have harmed : s.situation.Armed A e := armed_of_stimulus hst (by rw [hw]; rfl) (by rw [hw]; rfl)
  have htime : e.time = x.sentAt + A.timeout := h.follows.sentAt hwait e hmem harmed
  have hnil : queue.arrivals = [] := h.solitary.alone hq (.inr (.inr harmed))
  have hlost : x.stage = .lost :=
    h.follows.stage.eq_lost hwait ((arrivals_of_not_arrival hq ha).symm.trans hnil)
  obtain ⟨hnone, haccepted⟩ :=
    h.accepted_eq hL (z := .timer (A.timerId (A.bit s.sender))) rfl
  have hz : Stimulus.timer (A.timerId (A.bit s.sender)) ≠ .init := by rintro ⟨⟩
  obtain ⟨s₁, hsound, hchange, -, hresponse⟩ :=
    exists_response_of_handle hL.sending h.sound hz h.latency hh
  cases hresponse with
  | silent bit current expiry =>
    rw [expiry rfl] at hwait
    cases hwait
  | released packet => cases packet
  | sending current occasion lt situation tally conveyed =>
    cases hchange with
    | advance packet => cases packet
    | stay bit same backlog confirms =>
      obtain ⟨-, hkept⟩ := backlog_eq_of_stay hwait hnone same backlog
      obtain ⟨y, hy, hfollows⟩ := exists_sent_of_conveyed (h.running.coherent.reach hq) hnil
        current lt situation conveyed (h.follows.tally.trans tally.symm) h.follows.last haccepted
        (by rw [hkept, h.follows.backlog])
      exact ⟨y, .expire hlost (htime ▸ h.now_le hq) (htime ▸ hy), hfollows⟩

theorem Accounted.confirms_eq (hL : A.Accountable B eager) (h : Accounted A B log last s x)
    {b : SeqBit} {good : Bool} (hwait : (A.current s.sender).isSome) (hcopy : (F.ack b).IsCopy p)
    (hgood : good = true ↔ p = F.ack (A.bit s.sender))
    (hchange : A.Change s.sender (.packet p) s₁) : A.confirms s.sender (.packet p) = good := by
  refine Bool.eq_iff_iff.mpr (Iff.trans ?_ hgood.symm)
  constructor
  · intro hconfirms
    cases hchange with
    | stay bit current backlog confirms => exact absurd (hconfirms.symm.trans confirms) nofun
    | advance packet ack =>
      cases packet
      obtain rfl := ack b hcopy
      rcases hcopy with rfl | rfl
      · rfl
      · exact absurd (hconfirms.symm.trans (hL.checks _ _)) nofun
  · rintro rfl
    exact hL.faithful.confirms h.sound hwait

theorem Accounted.ignore (h : Accounted A B log last s x) (hq : s.queue.pop? = some (e, queue))
    (hnil : queue.arrivals = []) (hwait : (A.current s.sender).isSome)
    (hstage : x.stage = .inbound e.time false) (heager : ¬ eager)
    (bit : A.bit s₁ = A.bit s.sender) (current : A.current s₁ = A.current s.sender)
    (hkept : A.backlog s₁ = A.backlog s.sender)
    (haccepted : x.accepted = (A.admitted (log ++ [(s.sender, z)])).length)
    (hs : s'.situation = { s.situation.reach e queue with sender := s₁ })
    (htally : s'.tally = s.tally) :
    ∃ y, Course.Move A.timeout s.config.maxLatency eager x y ∧
      Follows A (log ++ [(s.sender, z)]) last s' y := by
  have hstage' : s'.situation.Stands A .lost := by
    rw [hs]
    exact .lost (current.symm ▸ hwait) hnil
  refine ⟨_, .ignore hstage (h.now_le hq) heager, ?_⟩
  refine h.unmoved hq bit current hs htally hstage' rfl h.follows.last rfl rfl haccepted ?_
  rw [h.follows.backlog, hkept]

theorem Accounted.finish (hL : A.Accountable B eager) (h : Accounted A B log last s x)
    (hq : s.queue.pop? = some (e, queue)) (hstage : x.stage = .inbound e.time true)
    (hsound : A.Sound s₁) (current : A.current s₁ = none)
    (backlog : (A.current s₁).toList ++ A.backlog s₁ = A.backlog s.sender)
    (haccepted : x.accepted = (A.admitted (log ++ [(s.sender, z)])).length) {g : Generations}
    (hs : s'.situation = { s.situation.reach e queue with sender := s₁, generations := g })
    (htally : s'.tally = s.tally) :
    ∃ y, Course.Move A.timeout s.config.maxLatency eager x y ∧
      Follows A (log ++ [(s.sender, z)]) last s' y := by
  have hsender : s'.sender = s₁ := congrArg Situation.sender hs
  have hcurrent : A.current s'.sender = none := hsender ▸ current
  have hempty : A.backlog s₁ = [] := hL.sending.backlog_eq_nil hsound current
  rw [current, hempty] at backlog
  have hbacklog : x.backlog = 0 := h.follows.backlog.trans (congrArg List.length backlog.symm)
  refine ⟨_, .finish hstage (h.now_le hq) hbacklog, .idle hcurrent, ?_, h.follows.last, ?_, ?_,
    haccepted, ?_⟩
  · exact (congrArg Situation.clock hs).symm
  · intro hwait
    rw [hcurrent] at hwait
    cases hwait
  · exact h.follows.tally.trans htally.symm
  · rw [hbacklog, hsender, hempty]
    rfl

theorem Accounted.answer_step (hL : A.Accountable B eager)
    (h : Accounted A B log last s x) (hq : s.queue.pop? = some (e, queue))
    (hw : e.what = .arrival .sender p)
    (hh : { s with queue, clock := e.time }.handle (A.ends B) .sender (.packet p) = .ok s') :
    ∃ y, Course.Move A.timeout s.config.maxLatency eager x y ∧
      Follows A (log ++ [(s.sender, .packet p)]) last s' y := by
  obtain ⟨hnil, hone⟩ := h.arrivals hq hw
  obtain ⟨hwait, good, hstage, hgood⟩ := h.follows.stage.inbound_of_arrivals h.solitary hone hw
  have hwait : (A.current s.sender).isSome := hwait
  obtain ⟨hnone, haccepted⟩ := h.accepted_eq hL (z := .packet p) rfl
  obtain ⟨exchange, -, hshows, -⟩ := h.running.tracks
  obtain ⟨b, acks, -, hcopy, -⟩ := hshows.head_ack hq hw
  have hz : Stimulus.packet p ≠ .init := by rintro ⟨⟩
  obtain ⟨s₁, hsound, hchange, hreact, hresponse⟩ :=
    exists_response_of_handle hL.sending h.sound hz h.latency hh
  have hconfirms := h.confirms_eq hL hwait hcopy hgood hchange
  have hcoh := h.running.coherent.reach hq
  cases hchange with
  | stay bit same backlog confirms =>
    obtain rfl : good = false := hconfirms.symm.trans confirms
    obtain ⟨hsame, hkept⟩ := backlog_eq_of_stay hwait hnone same backlog
    cases hresponse with
    | silent _ current _ sent situation tally =>
      refine h.ignore hq hnil hwait hstage (fun heager => ?_) bit current hkept haccepted situation
        tally
      exact (hL.eager heager).resends h.sound hwait hcopy hconfirms hreact sent
    | released packet current =>
      rw [← hsame, current] at hwait
      cases hwait
    | sending current occasion lt situation tally conveyed =>
      obtain ⟨y, hy, hfollows⟩ := exists_sent_of_conveyed hcoh hnil current lt situation conveyed
        (h.follows.tally.trans tally.symm) h.follows.last haccepted
        (by rw [hkept, h.follows.backlog])
      exact ⟨y, .again hstage (h.now_le hq) hy, hfollows⟩
  | advance packet ack waiting flipped backlog accepted confirms =>
    obtain rfl : good = true := hconfirms.symm.trans confirms
    cases hresponse with
    | silent bit => exact absurd (flipped.symm.trans bit) (SeqBit.flip_ne _)
    | released packet current situation tally =>
      exact h.finish hL hq hstage hsound current backlog haccepted situation tally
    | sending current occasion lt situation tally conveyed =>
      have hbacklog : x.backlog = (A.backlog s₁).length + 1 := by
        rw [h.follows.backlog, ← backlog, current]
        rfl
      obtain ⟨y, hy, hfollows⟩ := exists_sent_of_conveyed
        (x := { x with confirmed := x.confirmed + 1, backlog := (A.backlog s₁).length })
        hcoh hnil current lt situation conveyed (h.follows.tally.trans tally.symm) h.follows.last
        haccepted rfl
      exact ⟨y, .next hstage (h.now_le hq) hbacklog hy, hfollows⟩

theorem SendingSide.Accountable.decide_received {s : σ} (hL : A.Accountable B eager)
    (hs : A.Sound s) (hwait : (A.current s).isSome) (damaged : Bool) :
    decide ((F.ack (A.bit s)).received damaged = F.ack (A.bit s)) = !damaged := by
  cases damaged with
  | false => exact decide_eq_true rfl
  | true =>
    refine decide_eq_false fun h => ?_
    have hconfirms := hL.faithful.confirms hs hwait
    rw [← h] at hconfirms
    exact absurd (hconfirms.symm.trans (hL.checks s _)) nofun

/-- What the receiver takes for the message under way it answers with its acknowledgement, and
that is good unless it is damaged. -/
theorem SendingSide.Accountable.decide_answer {s : σ} {r r' : ρ} {m : Payload} {damaged : Bool}
    {now : Nat} {actions : List Action} (hL : A.Accountable B eager) (hs : A.Sound s)
    (hcurrent : A.current s = some m) (hr : B.Sound r) (htaken : eager ∨ damaged = false)
    (hreact : B.endpoint.react now (.packet ((F.data (A.bit s) m).received damaged)) r =
      (r', actions)) (damaged' : Bool) :
    decide ((F.ack (B.expected r').flip).received damaged' = F.ack (A.bit s)) = !damaged' := by
  have hexpected : B.expected r' = (A.bit s).flip := by
    rcases htaken with heager | rfl
    · exact (hL.eager heager).expected hr (Packet.isCopy_received _ damaged) hreact
    · exact hL.faithful.expected hr hreact
  rw [hexpected, SeqBit.flip_flip]
  exact hL.decide_received hs (Option.isSome_of_mem hcurrent) damaged'

theorem Accounted.packet_step (hL : A.Accountable B eager) (h : Accounted A B log last s x)
    (hq : s.queue.pop? = some (e, queue)) (hw : e.what = .arrival .receiver p)
    (hh : { s with queue, clock := e.time }.handle (A.ends B) .receiver (.packet p) = .ok s') :
    ∃ y, Course.Move A.timeout s.config.maxLatency eager x y ∧ Follows A log last s' y := by
  obtain ⟨hnil, hone⟩ := h.arrivals hq hw
  obtain ⟨m, damaged, hcurrent, hstage, rfl⟩ :=
    h.follows.stage.outbound_of_arrivals h.solitary hone hw
  have hcurrent : A.current s.sender = some m := hcurrent
  obtain ⟨receiver, actions, t, w, hreact, ht, htally, hc⟩ :=
    exists_conveyed_of_receiver_handle hL.receiving h.running.sound.receiver
      (Packet.isCopy_received _ damaged) h.latency hh
  have htally' := tally_of_conveyed hc
  rw [htally, ← h.follows.tally] at htally'
  have hconfig : t.config = s.config := congrArg Situation.config ht
  have htime : t.clock = e.time := congrArg Situation.clock ht
  have hqueue : t.queue = queue := congrArg Situation.queue ht
  obtain ⟨sender, clock, generations, mem, arrivals⟩ :=
    lone_of_conveyed hc (show t.queue.arrivals = [] from hqueue ▸ hnil)
  have hsender : s'.sender = s.sender := sender.trans (congrArg Situation.sender ht)
  have hgenerations : s'.generations = s.generations :=
    generations.trans (congrArg Situation.generations ht)
  have hclock : e.time = s'.clock := (clock.trans htime).symm
  have hsentAt := h.sentAt hq (congrArg A.bit hsender) (congrArg A.current hsender) hgenerations
    (hqueue ▸ mem)
  have hwait : (A.current s'.sender).isSome := by
    rw [hsender]
    exact Option.isSome_of_mem hcurrent
  have hbacklog : x.backlog = (A.backlog s'.sender).length := by
    rw [hsender, h.follows.backlog]
  rcases arrivals with ⟨reason, rfl, hnone⟩ | ⟨damaged', latency, id, rfl, hle, hone'⟩
  · exact ⟨_, .answerDropped hstage (h.now_le hq), .lost hwait hnone, hclock, h.follows.last,
      hsentAt, htally'.symm, h.follows.accepted, hbacklog⟩
  · rw [hconfig] at hle
    generalize hgood : decide ((F.ack (B.expected receiver).flip).received damaged' =
      F.ack (A.bit s.sender)) = good
    have htaken : eager ∨ damaged = false → good = !damaged' := by
      intro htaken
      rw [← hgood]
      exact hL.decide_answer h.sound hcurrent h.running.sound.receiver htaken hreact damaged'
    have hmove : Course.Move A.timeout s.config.maxLatency eager x { x with
        stage := .inbound (t.clock + latency) good, now := e.time,
        damagedAcks := x.damagedAcks + damaged'.toNat } := by
      refine .answerCarried hstage (h.now_le hq) ?_ htaken
      rw [htime]
      exact Nat.add_le_add_left hle _
    refine ⟨_, hmove, .inbound hwait hone' rfl ?_, hclock, h.follows.last, hsentAt,
      htally'.symm, h.follows.accepted, hbacklog⟩
    rw [show s'.situation.sender = s.sender from hsender, ← hgood]
    exact decide_eq_true_iff

theorem Accounted.stale (h : Accounted A B log last s x) (hq : s.queue.pop? = some (e, queue))
    (hst : s.isStale e = true) : Follows A log last { s with queue } x := by
  have ha : e.isArrival = false := by
    cases hw : e.what with
    | arrival node p => simp [Simulation.isStale, hw] at hst
    | expiry node id generation => simp [Event.isArrival, hw]
    | submission data => simp [Event.isArrival, hw]
  have hstage : (situation { s with queue }).Stands A x.stage :=
    h.follows.stage.congr rfl rfl (arrivals_of_not_arrival hq ha)
  exact ⟨hstage, h.follows.now, h.follows.last,
    fun hwait d hd => h.follows.sentAt hwait d (Queue.mem_of_mem_rest hq hd),
    h.follows.tally, h.follows.accepted, h.follows.backlog⟩

theorem Accounted.exists_moves {o : Outcome} (hL : A.Accountable B eager)
    (h : Accounted A B log last s x) (hs : s.step (A.ends B) = .ok (o, s')) :
    ∃ y, Course.Moves A.timeout s.config.maxLatency eager x y ∧
      Follows A (log ++ (o.toSender?.map fun z => (s.sender, z)).toList)
        (o.lastTime last) s' y := by
  rcases step_eq_ok hs with ⟨hq, rfl, rfl⟩ | ⟨e, queue, hq, hst, rfl, rfl⟩ |
    ⟨e, queue, hq, hst, rfl, hh⟩
  · exact ⟨x, .refl, (List.append_nil log).symm ▸ h.follows⟩
  · exact ⟨x, .refl, (List.append_nil log).symm ▸ h.stale hq hst⟩
  · obtain ⟨time, number, what⟩ := e
    cases what with
    | submission data =>
      obtain ⟨y, hy, hfollows⟩ := h.submission_step hL hq rfl hh
      exact ⟨y, .single hy, hfollows⟩
    | expiry node id generation =>
      cases node with
      | receiver =>
        have hmem := Queue.first_mem_of_pop?_eq_some hq
        exact absurd (pending_of_not_stale (c := s.situation) hmem rfl hst) (h.untimed id _)
      | sender =>
        obtain ⟨y, hy, hfollows⟩ := h.expiry_step hL hq hst rfl hh
        exact ⟨y, .single hy, hfollows⟩
    | arrival node p =>
      cases node with
      | receiver =>
        obtain ⟨y, hy, hfollows⟩ := h.packet_step hL hq rfl hh
        exact ⟨y, .single hy, (List.append_nil log).symm ▸ hfollows⟩
      | sender =>
        obtain ⟨y, hy, hfollows⟩ := h.answer_step hL hq rfl hh
        exact ⟨y, .single hy, hfollows⟩

theorem Accounted.step {o : Outcome} (hL : A.Accountable B eager)
    (h : Accounted A B log last s x) (hs : s.step (A.ends B) = .ok (o, s')) :
    ∃ y, Course.Moves A.timeout s.config.maxLatency eager x y ∧
      Accounted A B (log ++ (o.toSender?.map fun z => (s.sender, z)).toList) (o.lastTime last)
        s' y := by
  obtain ⟨y, hy, hfollows⟩ := h.exists_moves hL hs
  have hc := situation_step h.latency hs
  have hR : Regime A B s.config (Solitary A) :=
    regime_solitary hL.sending hL.receiving h.solitary.bound
  have hconfig : s'.config = s.config := hc.config_eq
  refine ⟨y, hy, hconfig ▸ h.latency, ?_, ?_, ?_, hfollows⟩
  · exact h.running.step hL.sending hL.receiving hR h.solitary hc
  · exact h.solitary.step hL.sending hL.receiving h.running hc
  · exact h.untimed.step hL.receiving h.running hc

theorem tally_of_quiet {actions : List Action} (hquiet : Quiet actions)
    (hv : s.config.minLatency ≤ s.config.maxLatency) (h : s.perform node actions = .ok s') :
    s'.tally = s.tally := by
  obtain ⟨t, posts, -, hlinks, hpackets, hposts, hc⟩ := exists_conveyed_of_perform hv h
  rw [hquiet.sent] at hposts
  obtain rfl := List.map_eq_nil_iff.mp hposts
  exact (tally_of_conveyed_nil hc).2.trans (tally_of_deliveries hlinks hpackets)

theorem tally_of_init (hA : A.Lawful) (hB : B.Lawful)
    (hv : s.config.minLatency ≤ s.config.maxLatency) (h : s.init (A.ends B) = .ok s') :
    s'.tally = s.tally := by
  obtain ⟨t, hs, ht⟩ := init_eq_ok h
  have hconfig : t.config = s.config := (situation_handle hv hs).config_eq
  obtain ⟨s₀, actions, hreact, -, -, -, -, hquiet⟩ := hA.init s.clock s.sender
  obtain ⟨r₀, actions', hreact', -, -, hquiet'⟩ := hB.init t.clock t.receiver
  simp only [handle, SendingSide.ends, hreact] at hs
  simp only [handle, SendingSide.ends, hreact'] at ht
  have hfirst : t.tally = s.tally := tally_of_quiet (s := { s with sender := s₀ }) hquiet hv hs
  have hsecond : s'.tally = t.tally :=
    tally_of_quiet (s := { t with receiver := r₀ }) hquiet' (by exact hconfig ▸ hv) ht
  exact hsecond.trans hfirst

variable {config : Config} {plan : List Preparation} {turns : List (Turn σ ρ)} {n : Nat}

theorem accounted_of_init (hL : A.Accountable B eager) (hvalid : config.Valid)
    (hlatency : 2 * config.maxLatency < A.timeout)
    (h : ((fresh config (A.ends B)).prepare plan).init (A.ends B) = .ok s) :
    s.config = config ∧ Accounted A B [] 0 s .start := by
  have hv : ((fresh config (A.ends B)).prepare plan).config.minLatency ≤
      ((fresh config (A.ends B)).prepare plan).config.maxLatency := by
    rw [config_prepare]
    exact hvalid.latency
  obtain ⟨c, h₁, h₂⟩ := situation_init hv h
  obtain ⟨hrun, hconfig, harrivals⟩ := running_of_start hL.sending hL.receiving h₁ h₂
  obtain ⟨s₀, r₀, hframe, -, -, hcurrent, hbacklog, -⟩ := eq_of_init hL.sending hL.receiving h₁ h₂
  have hconfig : s.config = config := hconfig
  have hsender : s.sender = s₀ := congrArg Situation.sender hframe
  have hclock : s.clock = 0 := (congrArg Situation.clock hframe).trans
    (congrArg Situation.clock (situation_prepare (fresh config (A.ends B)) plan))
  have hsubmissions : ∀ e ∈ s.queue.toList, ∃ data, e.what = .submission data := by
    rw [show s.queue = _ from congrArg Situation.queue hframe]
    exact submission_of_mem_prepare_fresh plan
  have htally : s.tally = ⟨0, 0, 0, 0⟩ := by
    obtain ⟨hlinks, -, hpackets⟩ := records_prepare (fresh config (A.ends B)) plan
    rw [tally_of_init hL.sending hL.receiving hv h]
    simp only [Simulation.tally, dropCount, damageCount, hlinks, hpackets]
    rfl
  rw [← hsender] at hcurrent hbacklog
  refine ⟨hconfig, hconfig ▸ hvalid.latency, hrun, ?_, ?_, ?_⟩
  · exact solitary_of_nil (by rw [show s.situation.config = config from hconfig]; exact hlatency)
      harrivals
  · rintro id e hpending
    exact not_pending_of_submissions hsubmissions hpending
  · refine ⟨.idle hcurrent, hclock.symm, rfl, ?_, htally.symm, rfl, ?_⟩
    · intro hwait
      rw [hcurrent] at hwait
      cases hwait
    · rw [hbacklog]
      rfl

/-- Every history follows a course. -/
theorem exists_accounted_of_history (hL : A.Accountable B eager)
    (hlatency : 2 * config.maxLatency < A.timeout)
    (hs : Simulation.create config (A.ends B) = .ok s)
    (h : (s.prepare plan).history (A.ends B) n = .ok (turns, s')) :
    ∃ x, Course.Moves A.timeout config.maxLatency eager .start x ∧
      Accounted A B (heard turns) (lastTime (timetabled turns)) s' x := by
  obtain ⟨hvalid, rfl⟩ := create_eq_ok_iff.mp hs
  obtain ⟨s₁, hinit, hwalk⟩ := history_eq_ok h
  obtain ⟨hconfig, hstart⟩ := accounted_of_init hL hvalid hlatency hinit
  have hall := walk_induction (P := fun past t => t.config = config ∧
    ∃ x, Course.Moves A.timeout config.maxLatency eager .start x ∧
      Accounted A B (heard past) (lastTime (timetabled past)) t x)
    ?_ [] ⟨hconfig, .start, .refl, hstart⟩ hwalk
  · exact hall.2
  · rintro past t o t' ⟨ht, x, hx, haccounted⟩ hstep
    obtain ⟨y, hy, haccounted'⟩ := haccounted.step hL hstep
    refine ⟨(situation_step haccounted.latency hstep).config_eq.trans ht, y, ?_, ?_⟩
    · exact hx.trans (ht ▸ hy)
    · rw [heard_append, lastTime_timetabled_append]
      exact haccounted'

end LossyLink
