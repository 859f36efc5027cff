import LossyLink.Proofs.Simulation.Agenda
import LossyLink.Proofs.Simulation.Bisimulation
import LossyLink.Proofs.Simulation.Records
import LossyLink.Proofs.Queued.Delivery
import LossyLink.Protocol.Catalog

/-! # Simulations that are used again

A run that empties the queue leaves no event behind that could disturb a later one. What else it
leaves are the states of the ends, the generations of timers and the numbers of events. Ends that
start over do not look at the first, and of the others nothing counts but differences. So the next
run goes as in a new simulation that takes over the clock, the generator and the drop rules.
-/

namespace LossyLink

variable {σ ρ : Type}

/-- At its start the end forgets everything. -/
def Endpoint.Resets (e : Endpoint σ) : Prop :=
  ∀ now s s', e.react now .init s = e.react now .init s'

namespace Protocol

theorem sender_resets (p : Protocol) : p.sender.endpoint.Resets := by
  cases p <;> exact fun now s s' => rfl

theorem receiver_resets (p : Protocol) : p.receiver.endpoint.Resets := by
  cases p <;> exact fun now s s' => rfl

/-- The sender of a protocol and the receiver of another one. -/
def ends (p q : Protocol) : Ends p.sender.State q.receiver.State :=
  ⟨p.sender.endpoint, q.receiver.endpoint⟩

end Protocol

namespace Simulation

theorem keepsActions_receiver (receiver : ρ) :
    KeepsActions fun s t : Simulation σ ρ => t = { s with receiver } := by
  have hafter : ∀ (s : Simulation σ ρ) (delay : Nat) (what : Happening),
      Alike (fun s t : Simulation σ ρ => t = { s with receiver }) (s.after delay what)
        ({ s with receiver }.after delay what) := by
    intro s delay what
    unfold Simulation.after
    split
    · exact .ok rfl
    · exact .error _
  constructor
  · constructor
    · rintro s _ name value rfl
      rfl
    · rintro s _ n rfl
      rfl
    · rintro s _ node data rfl
      rfl
  · rintro s _ node op rfl
    cases op with
    | cancel id => exact .ok rfl
    | start delay id => exact hafter { s with generations := _ } delay _
  · rintro s _ node p rfl
    have hdecided : ({ s with receiver } : Simulation σ ρ).decided node (s.decision node p) =
        { s.decided node (s.decision node p) with receiver } := by
      cases node <;> rfl
    rw [transmit_eq, transmit_eq,
      show ({ s with receiver } : Simulation σ ρ).decision node p = s.decision node p from rfl,
      hdecided]
    apply alike_pass (R := fun s t => t = { s with receiver }) rfl
    rintro s _ rfl delay p
    exact hafter s delay _

variable {ends : Ends σ ρ}

theorem handle_sender_of_resets (h : ends.sender.Resets) (s : Simulation σ ρ) (sender : σ) :
    { s with sender }.handle ends .sender .init = s.handle ends .sender .init :=
  congrArg (fun x : σ × List Action => ({ s with sender := x.1 } : Simulation σ ρ).perform
    .sender x.2) (h s.clock sender s.sender)

theorem handle_receiver_of_resets (h : ends.receiver.Resets) (s : Simulation σ ρ)
    (receiver : ρ) : { s with receiver }.handle ends .receiver .init =
      s.handle ends .receiver .init :=
  congrArg (fun x : ρ × List Action => ({ s with receiver := x.1 } : Simulation σ ρ).perform
    .receiver x.2) (h s.clock receiver s.receiver)

/-- Where the ends start over, it does not matter in which states they were. -/
theorem init_of_resets (hsender : ends.sender.Resets) (hreceiver : ends.receiver.Resets)
    (s : Simulation σ ρ) (sender : σ) (receiver : ρ) :
    { s with sender, receiver }.init ends = s.init ends := by
  have hfirst : Alike (fun s t : Simulation σ ρ => t = { s with receiver })
      (s.handle ends .sender .init) ({ s with receiver }.handle ends .sender .init) := by
    rw [handle_eq, handle_eq]
    exact (keepsActions_receiver receiver).perform rfl _
  have hboth : Alike (fun s t : Simulation σ ρ => s = t) (s.init ends)
      ({ s with receiver }.init ends) := by
    apply hfirst.bind
    rintro t _ rfl
    rw [handle_receiver_of_resets hreceiver t receiver]
    cases t.handle ends .receiver .init with
    | error o => exact .error o
    | ok u => exact .ok rfl
  rw [hboth.eq]
  unfold init
  rw [← handle_sender_of_resets hsender { s with receiver } sender]

end Simulation

/-- The same, but every timer is some generations ahead. -/
def Happening.later (offset : Generations) : Happening → Happening
  | .arrival node p => .arrival node p
  | .expiry node id generation => .expiry node id (generation + offset.get (node, id))
  | .submission data => .submission data

section

variable (offset : Generations) (w : Happening)

@[simp] theorem Happening.node_later : (w.later offset).node = w.node := by cases w <;> rfl

@[simp] theorem Happening.stimulus_later : (w.later offset).stimulus = w.stimulus := by
  cases w <;> rfl

end

def Entry.later (offset : Generations) (x : Entry) : Entry := (x.1, x.2.later offset)

/-- The same simulation with other numbers of events and with timers some generations ahead. -/
structure Renumbered (offset : Generations) (s t : Simulation σ ρ) : Prop where
  rest : ∃ queue generations completed, t = { s with queue, generations, completed }
  agenda : t.queue.agenda = s.queue.agenda.map (Entry.later offset)
  generations : ∀ k, t.generations.get k = s.generations.get k + offset.get k

namespace Renumbered

open Simulation

variable {offset : Generations} {s t : Simulation σ ρ} {node : Node}

theorem map {f : Simulation σ ρ → Simulation σ ρ}
    (hf : ∀ s queue generations completed, f { s with queue, generations, completed } =
      { f s with queue, generations, completed })
    (h : Renumbered offset s t) : Renumbered offset (f s) (f t) := by
  obtain ⟨⟨queue, generations, completed, rfl⟩, hagenda, hgenerations⟩ := h
  have hself : f s = { f s with
      queue := s.queue, generations := s.generations, completed := s.completed } :=
    hf s s.queue s.generations s.completed
  have hqueue : (f s).queue = s.queue := by rw [hself]
  have htimers : (f s).generations = s.generations := by rw [hself]
  rw [hf s queue generations completed]
  constructor
  · exact ⟨queue, generations, completed, rfl⟩
  · exact hqueue ▸ hagenda
  · exact htimers ▸ hgenerations

theorem enqueue (h : Renumbered offset s t) (time : Nat) (what : Happening) :
    Renumbered offset (s.enqueue time what) (t.enqueue time (what.later offset)) := by
  obtain ⟨⟨queue, generations, completed, rfl⟩, hagenda, hgenerations⟩ := h
  constructor
  · exact ⟨_, generations, completed, rfl⟩
  · unfold Simulation.enqueue
    simp only at hagenda ⊢
    rw [Queue.agenda_schedule, Queue.agenda_schedule, hagenda,
      Entry.map_insert (f := Entry.later offset) fun _ _ => Iff.rfl]
    rfl
  · exact hgenerations

theorem after (h : Renumbered offset s t) (delay : Nat) (what : Happening) :
    Alike (Renumbered offset) (s.after delay what) (t.after delay (what.later offset)) := by
  have hnext := h.enqueue (s.clock + delay) what
  obtain ⟨⟨queue, generations, completed, rfl⟩, -, -⟩ := h
  unfold Simulation.after
  split
  · exact .ok hnext
  · exact .error _

theorem pass (h : Renumbered offset s t) (x : Post) :
    Alike (Renumbered offset) (s.pass node x) (t.pass node x) := by
  apply alike_pass
  · exact h.map (f := fun s => { s with links := s.links ++ x.events s.clock node })
      fun _ _ _ _ => rfl
  · exact fun h delay p => h.after delay (.arrival node.peer p)

theorem transmit (h : Renumbered offset s t) (p : Packet) :
    Alike (Renumbered offset) (s.transmit node p) (t.transmit node p) := by
  have hdecision : t.decision node p = s.decision node p := by
    obtain ⟨⟨queue, generations, completed, rfl⟩, -, -⟩ := h
    rfl
  rw [transmit_eq, transmit_eq, hdecision]
  generalize s.decision node p = d
  apply Renumbered.pass
  apply h.map (f := fun s => s.decided node d)
  rintro s queue generations completed
  cases node <;> rfl

theorem bump (h : Renumbered offset s t) (k : TimerKey) :
    Renumbered offset { s with generations := s.generations.bump k }
      { t with generations := t.generations.bump k } := by
  obtain ⟨⟨queue, generations, completed, rfl⟩, hagenda, hgenerations⟩ := h
  constructor
  · exact ⟨queue, _, completed, rfl⟩
  · exact hagenda
  · intro k'
    have hk := hgenerations k
    have hk' := hgenerations k'
    simp only at hk hk'
    simp only [Generations.get_bump, hk, hk']
    split
    · rename_i heq
      rw [heq, Nat.add_right_comm]
    · rfl

theorem timer (h : Renumbered offset s t) (op : TimerOp) :
    Alike (Renumbered offset) (s.timer node op) (t.timer node op) := by
  cases op with
  | cancel id => exact .ok (h.bump (node, id))
  | start delay id =>
    have hbump := h.bump (node, id)
    have hexpiry := hbump.after delay
      (.expiry node id ((s.generations.bump (node, id)).get (node, id)))
    have hlater : (Happening.expiry node id
        ((s.generations.bump (node, id)).get (node, id))).later offset =
          .expiry node id ((t.generations.bump (node, id)).get (node, id)) :=
      congrArg (Happening.expiry node id) (hbump.generations (node, id)).symm
    rw [hlater] at hexpiry
    exact hexpiry

theorem isStale_eq (h : Renumbered offset s t) {e e' : Event}
    (hwhat : e'.what = e.what.later offset) : t.isStale e' = s.isStale e := by
  unfold Simulation.isStale
  rw [hwhat]
  cases e.what with
  | arrival node p => rfl
  | expiry node id generation =>
    simp only [Happening.later, h.generations]
    rw [bne, bne]
    congr 1
    apply Bool.eq_iff_iff.mpr
    simp
  | submission data => rfl

theorem bisimulation (offset : Generations) :
    Bisimulation (Renumbered offset : Simulation σ ρ → Simulation σ ρ → Prop) where
  sample name value h := h.map (f := fun s => s.sample name value) fun _ _ _ _ => rfl
  notify n h := h.map (f := fun s => s.notify n) fun _ _ _ _ => rfl
  deliver node data h := h.map (f := fun s => s.deliver node data) fun _ _ _ _ => rfl
  timer _ op h := h.timer op
  transmit _ p h := h.transmit p
  clock_eq h := by
    obtain ⟨⟨queue, generations, completed, rfl⟩, -, -⟩ := h
    rfl
  sender_eq h := by
    obtain ⟨⟨queue, generations, completed, rfl⟩, -, -⟩ := h
    rfl
  receiver_eq h := by
    obtain ⟨⟨queue, generations, completed, rfl⟩, -, -⟩ := h
    rfl
  size_eq h := Queue.size_eq_of_agenda_eq_map h.agenda
  clock clock h := h.map (f := fun s => { s with clock }) fun _ _ _ _ => rfl
  sender sender h := h.map (f := fun s => { s with sender }) fun _ _ _ _ => rfl
  receiver receiver h := h.map (f := fun s => { s with receiver }) fun _ _ _ _ => rfl
  complete completed h := by
    obtain ⟨⟨queue, generations, _, rfl⟩, hagenda, hgenerations⟩ := h
    exact ⟨⟨queue, generations, completed, rfl⟩, hagenda, hgenerations⟩
  take {s t e queue} h hq := by
    have hagenda := h.agenda
    rw [Queue.agenda_of_pop?_eq_some hq, List.map_cons] at hagenda
    obtain ⟨e', queue', hq', hentry, hrest⟩ := Queue.exists_pop?_of_agenda_eq_cons hagenda
    obtain ⟨htime, hwhat⟩ := Prod.mk.inj hentry
    refine ⟨e', queue', hq', ⟨htime, ?_, ?_⟩, h.isStale_eq hwhat, ?_⟩
    · rw [hwhat, Happening.node_later]
      rfl
    · rw [hwhat, Happening.stimulus_later]
      rfl
    · obtain ⟨⟨queue₀, generations, completed, rfl⟩, -, hgenerations⟩ := h
      exact ⟨⟨queue', generations, completed, rfl⟩, hrest, hgenerations⟩

theorem prepare (h : Renumbered offset s t) (plan : List Preparation) :
    Renumbered offset (s.prepare plan) (t.prepare plan) := by
  induction plan generalizing s t with
  | nil => exact h
  | cons p plan ih =>
    rw [prepare_cons, prepare_cons]
    apply ih
    cases p with
    | submit time data => exact h.enqueue time (.submission data)
    | dropSeq seq => exact h.map (f := fun s => s.dropSeq seq) fun _ _ _ _ => rfl
    | dropAck ack => exact h.map (f := fun s => s.dropAck ack) fun _ _ _ _ => rfl

end Renumbered

/-- The one simulation has the records of the other one behind earlier records, and nothing else
that can be seen of them is different. -/
structure Simulation.Resumes (earlier : Records) (s t : Simulation σ ρ) : Prop where
  records : t.records = earlier.append s.records
  clock : t.clock = s.clock
  generator : t.generator = s.generator
  drops : t.drops = s.drops
  sender : t.sender = s.sender
  receiver : t.receiver = s.receiver
  config : t.config = s.config
  size : t.queue.size = s.queue.size

theorem Renumbered.resumes {offset : Generations} {earlier : Records} {s t : Simulation σ ρ}
    (h : Renumbered offset (s.preceded earlier) t) : s.Resumes earlier t := by
  have hsize := (Renumbered.bisimulation offset).size_eq h
  obtain ⟨⟨queue, generations, completed, rfl⟩, -, -⟩ := h
  exact ⟨rfl, rfl, rfl, rfl, rfl, rfl, rfl, hsize⟩

namespace Simulation

variable {ends : Ends σ ρ} {s₀ s₁ : Simulation σ ρ}

/-- A new simulation that goes on with the clock, the generator and the drop rules. -/
def renewed (ends : Ends σ ρ) (s : Simulation σ ρ) : Simulation σ ρ :=
  { fresh s.config ends with generator := s.generator, clock := s.clock, drops := s.drops }

theorem preceded_prepare (r : Records) (s : Simulation σ ρ) (plan : List Preparation) :
    (s.preceded r).prepare plan = (s.prepare plan).preceded r := by
  induction plan generalizing s with
  | nil => rfl
  | cons p plan ih =>
    rw [prepare_cons, prepare_cons, ← ih]
    cases p <;> rfl

theorem ends_prepare (s : Simulation σ ρ) (sender : σ) (receiver : ρ) (plan : List Preparation) :
    { s with sender, receiver }.prepare plan = { s.prepare plan with sender, receiver } := by
  induction plan generalizing s with
  | nil => rfl
  | cons p plan ih =>
    rw [prepare_cons, prepare_cons, ← ih]
    cases p <;> rfl

/-- A simulation with an empty queue is the new one, but for the states of its ends, its timers
and its records. -/
theorem renumbered_renewed (ends : Ends σ ρ) {s : Simulation σ ρ} (h : s.queue.isEmpty = true) :
    Renumbered s.generations { (s.renewed ends).preceded s.records with
      sender := s.sender, receiver := s.receiver } s := by
  constructor
  · exact ⟨s.queue, s.generations, s.completed, by
      simp [renewed, preceded, records, fresh]⟩
  · have hnil : s.queue.agenda = [] := congrArg (List.map Event.entry) (Queue.isEmpty_iff.mp h)
    rw [hnil]
    rfl
  · rintro k
    exact (Nat.zero_add _).symm

section

variable (hsender : ends.sender.Resets) (hreceiver : ends.receiver.Resets)

include hsender hreceiver

theorem history_of_resets (s : Simulation σ ρ) (sender : σ) (receiver : ρ) (n : Nat) :
    { s with sender, receiver }.history ends n = s.history ends n := by
  rw [history_eq, history_eq, init_of_resets hsender hreceiver]

theorem run_of_resets (s : Simulation σ ρ) (sender : σ) (receiver : ρ) (limit : Nat) :
    { s with sender, receiver }.run ends limit = s.run ends limit := by
  rw [run_eq, run_eq, init_of_resets hsender hreceiver]

end

theorem renumbered_prepare (ends : Ends σ ρ) {s : Simulation σ ρ} (h : s.queue.isEmpty = true)
    (plan : List Preparation) :
    Renumbered s.generations { ((s.renewed ends).prepare plan).preceded s.records with
      sender := s.sender, receiver := s.receiver } (s.prepare plan) := by
  rw [← preceded_prepare, ← ends_prepare]
  exact (renumbered_renewed ends h).prepare plan

/-- When a run of any two protocols has emptied the queue, whatever happened before, then another
run goes as in a new simulation that takes over the clock, the generator and the drop rules. It
fails with the same error or ends in the same way, it adds the same records, and every step is
taken at the same time and shows the same to the ends. -/
theorem resumes_as_renewed (p q : Protocol) {s₀ s₁ : Simulation p.sender.State q.receiver.State}
    {first : Nat} (h : s₀.run (p.ends q) first = .ok (true, s₁)) (plan : List Preparation) :
    (∀ limit, Alike
      (fun x y => y.1 = x.1 ∧ y.2.completed = x.2.completed ∧ x.2.Resumes s₁.records y.2)
      ((((s₁.renewed (p.ends q)).prepare plan).run (p.ends q) limit).mapError
        fun o => o.preceded s₁.notices.toList)
      ((s₁.prepare plan).run (p.ends q) limit)) ∧
    ∀ n, Alike
      (fun x y => y.1.map Turn.glimpse = x.1.map Turn.glimpse ∧ x.2.Resumes s₁.records y.2)
      ((((s₁.renewed (p.ends q)).prepare plan).history (p.ends q) n).mapError
        fun o => o.preceded s₁.notices.toList)
      ((s₁.prepare plan).history (p.ends q) n) := by
  obtain ⟨-, -, -, s, -, hempty, rfl⟩ := history_of_run h
  have hrenumbered := renumbered_prepare (p.ends q) (s := s.close first true) hempty plan
  have hR := Renumbered.bisimulation (σ := p.sender.State) (ρ := q.receiver.State)
    (s.close first true).generations
  have hsender : (p.ends q).sender.Resets := p.sender_resets
  have hreceiver : (p.ends q).receiver.Resets := q.receiver_resets
  constructor
  · intro limit
    have hrun := hR.run hrenumbered (p.ends q) limit
    rw [run_of_resets hsender hreceiver, preceded_run] at hrun
    apply Records.alike_of_before hrun
    rintro x y ⟨hresult, hcompleted, h⟩
    exact ⟨hresult, hcompleted, h.resumes⟩
  · intro n
    have hhistory := hR.history hrenumbered (p.ends q) n
    rw [history_of_resets hsender hreceiver, preceded_history] at hhistory
    apply Records.alike_of_before hhistory
    rintro x y ⟨hturns, h⟩
    refine ⟨hturns.trans ?_, h.resumes⟩
    rw [List.map_map]
    rfl

/-- Messages that come when the workload is done. -/
def overtime : List Preparation := [.submit 40000 [5], .submit 36000 [4]]

/-- The first run leaves timers that were touched and the other bit next at both ends. -/
theorem resumes_as_renewed_over_noisy_link :
    ∃ s₁ s₂ t : Simulation Queued.Sender Queued.Receiver,
      ((fresh (noisy 10 90) Queued.ends).prepare workload).run Queued.ends 100 = .ok (true, s₁) ∧
      (s₁.prepare overtime).run Queued.ends 100 = .ok (true, s₂) ∧
      ((s₁.renewed Queued.ends).prepare overtime).run Queued.ends 100 = .ok (true, t) ∧
      t.Resumes s₁.records s₂ ∧
      s₁.delivered = #[[1, 2], [9], [3]] ∧ t.delivered = #[[4], [5]] := by
  have hruns : (((fresh (noisy 10 90) Queued.ends).prepare workload).run Queued.ends 100 >>=
      fun x => (((x.2.renewed Queued.ends).prepare overtime).run Queued.ends 100).map fun y =>
        (x.1, x.2.delivered, y.1, y.2.delivered)) =
        .ok (true, #[[1, 2], [9], [3]], true, #[[4], [5]]) := by
    decide +kernel
  obtain ⟨⟨b, s₁⟩, hfirst, hruns⟩ := exists_of_bind_eq_ok hruns
  obtain ⟨⟨b', t⟩, hrenewed, hend⟩ := exists_of_map_eq_ok hruns
  obtain ⟨rfl, hend⟩ := Prod.mk.inj hend
  obtain ⟨hdelivered, hend⟩ := Prod.mk.inj hend
  obtain ⟨rfl, hdelivered'⟩ := Prod.mk.inj hend
  have hresumes := (resumes_as_renewed .queued .queued hfirst overtime).1 100
  have hrenewed' : ((s₁.renewed (Protocol.ends .queued .queued)).prepare overtime).run
      (Protocol.ends .queued .queued) 100 = .ok (true, t) := hrenewed
  rw [hrenewed'] at hresumes
  obtain ⟨⟨b, s₂⟩, hsecond, rfl, -, hresumes⟩ := hresumes.of_eq_ok rfl
  exact ⟨s₁, s₂, t, hfirst, hsecond, hrenewed, hresumes, hdelivered, hdelivered'⟩

end Simulation

end LossyLink
