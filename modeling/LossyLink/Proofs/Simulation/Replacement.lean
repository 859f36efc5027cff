import LossyLink.Proofs.Simulation.Lockstep
import LossyLink.Proofs.Simulation.TimerLog

/-! # Timers are replaced and reset

Generations and stale expiries implement alarms: whatever the two ends are, a simulation
shows them the same, at the same times, as one that keeps a single alarm for every timer,
and leaves the same records behind. So a timer goes off only as its last start asked for,
every start that is not taken back is answered in the end, and to cancel a timer that does
not run changes nothing.
-/

namespace LossyLink

variable {σ ρ : Type} {ends : Ends σ ρ} {config : Config} {plan : List Preparation}
  {s s' : Simulation σ ρ} {r : Reference σ ρ} {turns : List (Turn σ ρ)} {n : Nat}

/-- The same simulation with alarms, before any is set. -/
def Simulation.toReference (s : Simulation σ ρ) : Reference σ ρ := { base := s }

/-- The two have the same records, and from here on they show the ends the same; only stale
expiries may take the first one more steps. -/
structure InLockstep (ends : Ends σ ρ) (s : Simulation σ ρ) (r : Reference σ ρ) : Prop where
  agrees : Agrees s r
  links : r.base.links = s.links
  delivered : r.base.delivered = s.delivered
  samples : r.base.samples = s.samples
  drained : s.queue.isEmpty → r.next? = none
  forth : ∀ {n turns s'}, s.walk ends n = .ok (turns, s') →
    ∃ m ≤ n, ∃ r', r.walk ends m = .ok (calls turns, r') ∧ Agrees s' r'
  back : ∀ {m cs r'}, r.walk ends m = .ok (cs, r') →
    ∃ n turns s', s.walk ends n = .ok (turns, s') ∧ calls turns = cs ∧ Agrees s' r' ∧
      (r'.next? = none → s'.queue.isEmpty)

theorem Agrees.inLockstep (h : Agrees s r) (ends : Ends σ ρ) : InLockstep ends s r := by
  obtain ⟨queue, generations, hb⟩ := h.mirrors.rest
  exact ⟨h, by rw [hb], by rw [hb], by rw [hb], h.next?_eq_none, h.walk, h.walk_of_reference⟩

theorem Agrees.cancel_of_lookup_eq_none (h : Agrees s r) {node : Node} {id : UInt32}
    (hr : r.alarms.lookup (node, id) = none) :
    ∃ s', s.timer node (.cancel id) = .ok s' ∧ Agrees s' r := by
  obtain ⟨r', hcancel, hagree⟩ := (h.cancel node id).of_eq_ok rfl
  cases hcancel
  refine ⟨_, rfl, hagree.mirrors, fun k a => ?_, hagree.coherent, hagree.latency⟩
  rw [← hagree.alarm k a]
  by_cases hk : k = (node, id)
  · subst hk
    simp [hr]
  · rw [AList.lookup_erase_ne hk]

theorem agrees_prepare (ends : Ends σ ρ) (plan : List Preparation) (hvalid : config.Valid) :
    Agrees ((Simulation.fresh config ends).prepare plan)
      ((Simulation.fresh config ends).prepare plan).toReference := by
  have hq : ∀ e ∈ ((Simulation.fresh config ends).prepare plan).queue.toList,
      ∃ data, e.what = .submission data := Simulation.submission_of_mem_prepare_fresh plan
  have hconfig : ((Simulation.fresh config ends).prepare plan).config = config :=
    Simulation.config_prepare _ plan
  refine ⟨⟨⟨_, _, rfl⟩, ?_, rfl⟩, fun k a => ?_, Simulation.coherent_prepare_fresh plan, ?_⟩
  · refine (List.filter_eq_self.mpr fun e he => ?_).symm
    obtain ⟨data, hd⟩ := hq e he
    simp [Event.isExpiry, hd]
  · simp only [Simulation.toReference, AList.lookup_empty, reduceCtorEq, false_iff]
    rintro ⟨e, hp, -⟩
    exact Situation.not_pending_of_submissions hq hp
  · rw [hconfig]
    exact hvalid.latency

theorem Agrees.history (h : Agrees s r) (hw : s.history ends n = .ok (turns, s')) :
    ∃ m ≤ n, ∃ r', r.history ends m = .ok (calls turns, r') ∧ Agrees s' r' := by
  obtain ⟨s₁, hs, hw⟩ := Simulation.history_eq_ok hw
  obtain ⟨r₁, hr, hagree⟩ := h.init.of_eq_ok hs
  obtain ⟨m, hm, r', hr', hagree'⟩ := hagree.walk hw
  exact ⟨m, hm, r', by simp only [Reference.history, hr, hr'], hagree'⟩

theorem Agrees.history_of_reference (h : Agrees s r) {m : Nat} {cs : List Call}
    {r' : Reference σ ρ} (hw : r.history ends m = .ok (cs, r')) :
    ∃ n turns s', s.history ends n = .ok (turns, s') ∧ calls turns = cs ∧ Agrees s' r' ∧
      (r'.next? = none → s'.queue.isEmpty) := by
  obtain ⟨r₁, hr, hw⟩ := Reference.history_eq_ok hw
  obtain ⟨s₁, hs, hagree⟩ := h.init.of_eq_ok' hr
  obtain ⟨n, turns, s', hs', hcalls, hagree', hempty⟩ := hagree.walk_of_reference hw
  exact ⟨n, turns, s', by simp only [Simulation.history, hs, hs'], hcalls, hagree', hempty⟩

/-- Every run is matched by one with alarms, and the other way round. Its log says of each
timer that it fired only as its last start asked for and, once the queue is empty, that
every start was answered. -/
theorem timers_replaced_and_reset (ends : Ends σ ρ) (plan : List Preparation)
    (hs : Simulation.create config ends = .ok s) :
    (∀ {n turns s'}, (s.prepare plan).history ends n = .ok (turns, s') →
      (∃ m ≤ n, ∃ r, (s.prepare plan).toReference.history ends m = .ok (calls turns, r) ∧
        InLockstep ends s' r ∧ ∀ node id, r.alarms.lookup (node, id) = none →
          ∃ s'', s'.timer node (.cancel id) = .ok s'' ∧ InLockstep ends s'' r) ∧
      ∀ k, FiresLastStart (ofTimer k ((s.prepare plan).timerLog ends turns)) ∧
        (s'.queue.isEmpty →
          AnswersStarts (ofTimer k ((s.prepare plan).timerLog ends turns)))) ∧
    ∀ {m cs r}, (s.prepare plan).toReference.history ends m = .ok (cs, r) →
      ∃ n turns s', (s.prepare plan).history ends n = .ok (turns, s') ∧ calls turns = cs ∧
        InLockstep ends s' r ∧ (r.next? = none → s'.queue.isEmpty) := by
  obtain ⟨hvalid, rfl⟩ := Simulation.create_eq_ok_iff.mp hs
  have hstart := agrees_prepare ends plan hvalid
  constructor
  · intro n turns s' h
    refine ⟨?_, fun k => ?_⟩
    · obtain ⟨m, hm, r, hr, hagree⟩ := hstart.history h
      refine ⟨m, hm, r, hr, hagree.inLockstep ends, fun node id hnone => ?_⟩
      obtain ⟨s'', hcancel, hagree'⟩ := hagree.cancel_of_lookup_eq_none hnone
      exact ⟨s'', hcancel, hagree'.inLockstep ends⟩
    · have hlog := Simulation.logged_of_history hs h k
      exact ⟨hlog.firesLastStart, hlog.answersStarts⟩
  · intro m cs r h
    obtain ⟨n, turns, s', hs', hcalls, hagree, hempty⟩ := hstart.history_of_reference h
    exact ⟨n, turns, s', hs', hcalls, hagree.inLockstep ends, hempty⟩

/-- The sender starts three timers, one of them twice, and notes when they go off; when the
second one does it cancels the first one and one that was never started. -/
def alarmed : Ends (List (Nat × UInt32)) Unit where
  sender :=
    { start := []
      react := fun now x fired =>
        match x with
        | .init => ([], [.start 10 0, .start 5 1, .start 7 2, .start 20 2])
        | .timer id => (fired ++ [(now, id)], if id = 1 then [.cancel 0, .cancel 99] else [])
        | .packet _ => (fired, [])
        | .app _ => (fired, []) }
  receiver := Endpoint.silent

/-- Two of the steps are stale. -/
theorem timers_replaced_and_reset_in_four_steps :
    ∃ s turns s', Simulation.create {} alarmed = .ok s ∧
      (s.prepare []).history alarmed 4 = .ok (turns, s') ∧
      s'.queue.isEmpty = true ∧ s'.sender = [(5, 1), (20, 2)] ∧
      (∃ m ≤ 4, ∃ r, (s.prepare []).toReference.history alarmed m = .ok (calls turns, r) ∧
        InLockstep alarmed s' r) ∧
      ∀ k, FiresLastStart (ofTimer k ((s.prepare []).timerLog alarmed turns)) ∧
        AnswersStarts (ofTimer k ((s.prepare []).timerLog alarmed turns)) := by
  have hvalid : Config.Valid {} := ⟨by decide, by decide, by decide⟩
  have hs : Simulation.create {} alarmed = .ok (Simulation.fresh {} alarmed) :=
    Simulation.create_eq_ok_iff.mpr ⟨hvalid, rfl⟩
  have hrun : (((Simulation.fresh {} alarmed).prepare []).history alarmed 4).map
      (fun x => (x.2.queue.isEmpty, x.2.sender)) = .ok (true, [(5, 1), (20, 2)]) := by
    decide +kernel
  obtain ⟨⟨turns, s'⟩, hrun, hend⟩ := exists_of_map_eq_ok hrun
  obtain ⟨hempty, hfired⟩ := Prod.mk.inj hend
  have h := (timers_replaced_and_reset alarmed [] hs).1 hrun
  obtain ⟨⟨m, hm, r, hr, hlock, -⟩, hlog⟩ := h
  exact ⟨_, turns, s', hs, hrun, hempty, hfired, ⟨m, hm, r, hr, hlock⟩,
    fun k => ⟨(hlog k).1, (hlog k).2 hempty⟩⟩

end LossyLink
