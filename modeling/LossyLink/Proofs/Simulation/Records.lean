import LossyLink.Proofs.Simulation.Channel
import LossyLink.Proofs.Simulation.Operation

/-! # Records

What a simulation records it never reads again. With earlier records in front of its own it
goes on in the same way, and the earlier ones stay in front.
-/

namespace LossyLink

variable {σ ρ : Type}

/-- What was recorded of a simulation. -/
structure Records where
  senderPackets : Nat
  delivered : Array Payload
  links : Array LinkEvent
  samples : Array Sample
  notices : Array Notice
  deriving DecidableEq, Repr

namespace Records

variable {α β γ δ : Type} {r : Records}

/-- Earlier records and later ones. -/
def append (r r' : Records) : Records where
  senderPackets := r.senderPackets + r'.senderPackets
  delivered := r.delivered ++ r'.delivered
  links := r.links ++ r'.links
  samples := r.samples ++ r'.samples
  notices := r.notices ++ r'.notices

/-- The result of a computation that had these records from the start. -/
def before (r : Records) (f : α → β) (x : Except ClockOverflow α) : Except ClockOverflow β :=
  (x.map f).mapError fun o => o.preceded r.notices.toList

theorem before_bind {f : α → β} {f' : γ → δ} {g : α → Except ClockOverflow γ}
    {g' : β → Except ClockOverflow δ} (h : ∀ a, g' (f a) = r.before f' (g a))
    (x : Except ClockOverflow α) : r.before f x >>= g' = r.before f' (x >>= g) := by
  cases x with
  | error o => rfl
  | ok a => exact h a

theorem before_foldlM {f : α → β} {g : α → γ → Except ClockOverflow α}
    {g' : β → γ → Except ClockOverflow β} (h : ∀ a c, g' (f a) c = r.before f (g a c))
    (cs : List γ) (a : α) : cs.foldlM g' (f a) = r.before f (cs.foldlM g a) := by
  induction cs generalizing a with
  | nil => rfl
  | cons c cs ih =>
    rw [List.foldlM_cons, List.foldlM_cons, h]
    exact before_bind ih _

theorem alike_of_before {R : β → γ → Prop} {S : α → γ → Prop} {f : α → β}
    {x : Except ClockOverflow α} {y : Except ClockOverflow γ} (h : Alike R (r.before f x) y)
    (hR : ∀ {a c}, R (f a) c → S a c) :
    Alike S (x.mapError fun o => o.preceded r.notices.toList) y := by
  cases x with
  | error o =>
    obtain ⟨⟩ := h
    exact .error _
  | ok a =>
    obtain - | h := h
    exact .ok (hR h)

theorem map_before (f : α → β) (f' : β → γ) (x : Except ClockOverflow α) :
    (r.before f x).map f' = r.before (f' ∘ f) x := by
  cases x <;> rfl

theorem before_map (f : α → β) (f' : β → γ) (x : Except ClockOverflow α) :
    r.before f' (x.map f) = r.before (f' ∘ f) x := by
  cases x <;> rfl

end Records

namespace Simulation

def records (s : Simulation σ ρ) : Records where
  senderPackets := s.senderPackets
  delivered := s.delivered
  links := s.links
  samples := s.samples
  notices := s.notices

/-- The same with earlier records in front. -/
def preceded (r : Records) (s : Simulation σ ρ) : Simulation σ ρ :=
  { s with
    senderPackets := r.senderPackets + s.senderPackets
    delivered := r.delivered ++ s.delivered
    links := r.links ++ s.links
    samples := r.samples ++ s.samples
    notices := r.notices ++ s.notices }

variable {ends : Ends σ ρ} (r : Records) (s : Simulation σ ρ)

theorem preceded_after (delay : Nat) (what : Happening) :
    (s.preceded r).after delay what = r.before (preceded r) (s.after delay what) := by
  unfold after
  show (if s.clock + delay < clockLimit then _ else _) = _
  split
  · rfl
  · have hnotices : (s.preceded r).notices.toList = r.notices.toList ++ s.notices.toList :=
      Array.toList_append
    rw [hnotices]
    rfl

theorem preceded_notify (n : Notice) :
    (s.preceded r).notify n = (s.notify n).preceded r := by
  simp only [notify, preceded, Array.push_append]

theorem preceded_sample (name : String) (value : Float) :
    (s.preceded r).sample name value = (s.sample name value).preceded r := by
  simp only [sample, preceded, Array.push_append]

theorem preceded_link (node : Node) (change : LinkChange) :
    (s.preceded r).link node change = (s.link node change).preceded r := by
  simp only [link, preceded, Array.push_append]

theorem preceded_deliver (node : Node) (data : Payload) :
    (s.preceded r).deliver node data = (s.deliver node data).preceded r := by
  simp only [deliver, link, notify, preceded, Array.push_append]

theorem preceded_foldl {α : Type} {f : Simulation σ ρ → α → Simulation σ ρ}
    (hf : ∀ s a, f (s.preceded r) a = (f s a).preceded r) (xs : List α) :
    xs.foldl f (s.preceded r) = (xs.foldl f s).preceded r := by
  induction xs generalizing s with
  | nil => rfl
  | cons x xs ih => rw [List.foldl_cons, List.foldl_cons, hf, ih]

theorem preceded_record (node : Node) (actions : List Action) :
    (s.preceded r).record node actions = (s.record node actions).preceded r := by
  unfold record
  simp only
  rw [preceded_foldl r s fun s (m : String × Float) => preceded_sample r s m.1 m.2,
    preceded_foldl r _ fun s text => preceded_notify r s (.ofNode node text),
    preceded_foldl r _ fun s data => preceded_deliver r s node data]

theorem preceded_timer (node : Node) (op : TimerOp) :
    (s.preceded r).timer node op = r.before (preceded r) (s.timer node op) := by
  cases op with
  | cancel id => rfl
  | start delay id => exact preceded_after r { s with generations := _ } delay _

theorem preceded_pass (node : Node) (x : Post) :
    (s.preceded r).pass node x = r.before (preceded r) (s.pass node x) := by
  unfold pass
  rw [preceded_foldl r s fun s change => preceded_link r s node change]
  cases x.passage with
  | dropped reason => rfl
  | carried damaged latency => exact preceded_after r _ latency _

theorem preceded_transmit (node : Node) (p : Packet) :
    (s.preceded r).transmit node p = r.before (preceded r) (s.transmit node p) := by
  rw [transmit_eq, transmit_eq, ← preceded_pass]
  cases node <;> rfl

theorem preceded_perform (node : Node) (actions : List Action) :
    (s.preceded r).perform node actions = r.before (preceded r) (s.perform node actions) := by
  rw [perform_eq, perform_eq, preceded_record,
    Records.before_foldlM fun s op => preceded_timer r s node op]
  apply Records.before_bind
  intro s
  exact Records.before_foldlM (fun s p => preceded_transmit r s node p) _ s

theorem preceded_handle (node : Node) (x : Stimulus) :
    (s.preceded r).handle ends node x = r.before (preceded r) (s.handle ends node x) := by
  rw [handle_eq, handle_eq, ← preceded_perform]
  cases node <;> rfl

theorem preceded_init : (s.preceded r).init ends = r.before (preceded r) (s.init ends) := by
  unfold init
  rw [preceded_handle]
  apply Records.before_bind
  intro s
  exact preceded_handle r s .receiver .init

theorem preceded_step : (s.preceded r).step ends =
    r.before (fun x => (x.1, x.2.preceded r)) (s.step ends) := by
  cases hq : s.queue.pop? with
  | none =>
    have hstep : s.step ends = .ok (.drained, s) := by simp only [step, hq]
    have hstep' : (s.preceded r).step ends = .ok (.drained, s.preceded r) := by
      simp only [step, preceded, hq]
    rw [hstep, hstep']
    rfl
  | some x =>
    obtain ⟨e, queue⟩ := x
    have hq' : (s.preceded r).queue.pop? = some (e, queue) := hq
    cases hs : s.isStale e with
    | true =>
      have hs' : (s.preceded r).isStale e = true := hs
      rw [step_of_stale hq hs, step_of_stale hq' hs']
      rfl
    | false =>
      have hs' : (s.preceded r).isStale e = false := hs
      have hhandle : ({ s.preceded r with queue, clock := e.time } : Simulation σ ρ).handle ends
          e.what.node e.what.stimulus = r.before (preceded r) (({ s with queue, clock := e.time } :
            Simulation σ ρ).handle ends e.what.node e.what.stimulus) :=
        preceded_handle r { s with queue, clock := e.time } _ _
      rw [step_of_not_stale hq hs, step_of_not_stale hq' hs', hhandle, Records.map_before,
        Records.before_map]
      rfl

end Simulation

def Turn.preceded (r : Records) (t : Turn σ ρ) : Turn σ ρ :=
  { t with before := t.before.preceded r }

namespace Simulation

variable {ends : Ends σ ρ} (r : Records) (s : Simulation σ ρ)

theorem preceded_walk (n : Nat) : (s.preceded r).walk ends n =
    r.before (fun x => (x.1.map (Turn.preceded r), x.2.preceded r)) (s.walk ends n) := by
  induction n generalizing s with
  | zero => rfl
  | succ n ih =>
    rw [walk_succ, walk_succ, preceded_step]
    apply Records.before_bind
    rintro ⟨o, t⟩
    rw [ih, Records.map_before, Records.before_map]
    rfl

theorem preceded_history (n : Nat) : (s.preceded r).history ends n =
    r.before (fun x => (x.1.map (Turn.preceded r), x.2.preceded r)) (s.history ends n) := by
  rw [history_eq, history_eq, preceded_init]
  apply Records.before_bind
  intro t
  exact preceded_walk r t n

theorem preceded_close (limit : Nat) (completed : Bool) :
    (s.preceded r).close limit completed = (s.close limit completed).preceded r := by
  cases completed with
  | true => rfl
  | false => exact preceded_notify r { s with completed := false } _

/-- A run goes the same way whatever was recorded before. -/
theorem preceded_run (limit : Nat) : (s.preceded r).run ends limit =
    r.before (fun x => (x.1, x.2.preceded r)) (s.run ends limit) := by
  rw [run_eq_history, run_eq_history, preceded_history, Records.map_before, Records.before_map]
  congr 1
  funext x
  exact Prod.ext rfl (preceded_close r x.2 limit _)

end Simulation

end LossyLink
