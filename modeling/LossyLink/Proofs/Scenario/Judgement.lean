import LossyLink.Proofs.Scenario.Order

/-! # Judging scenarios

A scenario passes if its channel is valid and its assertions hold of the report that its run leaves.
Otherwise it fails for one reason: the first fault of its channel, for which no run takes place, or
the first clause of an assertion, in the order of the list, that the report does not meet. Further
assertions behind the others can make a scenario fail that passed, and change nothing else.
-/

namespace LossyLink

/-- The first fault of channel parameters, in the order of the fields. -/
inductive Config.Faulty (c : Config) : ConfigError → Prop where
  | lossRate (loss : isProbability c.lossRate = false) :
    c.Faulty (.rateOutOfRange "loss_rate" c.lossRate)
  | corruptRate (loss : isProbability c.lossRate = true)
    (corrupt : isProbability c.corruptRate = false) :
    c.Faulty (.rateOutOfRange "corrupt_rate" c.corruptRate)
  | latency (loss : isProbability c.lossRate = true) (corrupt : isProbability c.corruptRate = true)
    (latency : c.maxLatency < c.minLatency) : c.Faulty (.latencyRange c.minLatency c.maxLatency)

namespace Config

variable {c : Config} {e : ConfigError}

theorem validate_eq_error_iff : c.validate = .error e ↔ c.Faulty e := by
  unfold validate
  constructor
  · intro h
    split at h
    · rename_i hloss
      cases h
      exact .lossRate (by simpa using hloss)
    · rename_i hloss
      split at h
      · rename_i hcorrupt
        cases h
        exact .corruptRate (by simpa using hloss) (by simpa using hcorrupt)
      · rename_i hcorrupt
        split at h
        · rename_i hlatency
          cases h
          exact .latency (by simpa using hloss) (by simpa using hcorrupt) hlatency
        · cases h
  · intro h
    cases h with
    | lossRate loss => simp [loss]
    | corruptRate loss corrupt => simp [loss, corrupt]
    | latency loss corrupt latency => simp [loss, corrupt, latency]

/-- A rate that is not a number is a fault. -/
example : ({ lossRate := 0.0 / 0.0 } : Config).validate =
    .error (.rateOutOfRange "loss_rate" (0.0 / 0.0)) := by decide +kernel

theorem Faulty.not_valid (h : c.Faulty e) : ¬ c.Valid := by
  rw [← validate_eq_ok_iff, validate_eq_error_iff.mpr h]
  simp

end Config

namespace Scenario

/-- The first clause of an assertion that a report does not meet. -/
inductive Assertion.Violates (r : Report) : Assertion → Violation → Prop where
  | notDelivered {data : String} (h : Text.encodeUtf8 data ∉ r.delivered) :
    Violates r (.dataDelivered data) (.notDelivered data r.deliveredTexts)
  | tooFewPackets {min : Nat} {max : Option Nat} (h : r.senderPackets < min) :
    Violates r (.senderPackets min max) (.tooFewPackets r.senderPackets min)
  | tooManyPackets {min max : Nat} (enough : min ≤ r.senderPackets) (h : max < r.senderPackets) :
    Violates r (.senderPackets min (some max)) (.tooManyPackets r.senderPackets max)
  | unfinished {limit : Nat} (h : r.completed = false) : Violates r (.maxDuration limit) .unfinished
  | tooLong {limit : Nat} (completed : r.completed = true) (h : limit < r.duration) :
    Violates r (.maxDuration limit) (.tooLong r.duration limit)

/-- The violation of an assertion before which all others hold. -/
def FirstViolation (r : Report) (assertions : List Assertion) (v : Violation) : Prop :=
  ∃ past a rest, assertions = past ++ a :: rest ∧ (∀ b ∈ past, b.Holds r) ∧ a.Violates r v

variable {r : Report} {a : Assertion} {as bs : List Assertion} {v : Violation}

theorem Assertion.check_eq_error_iff : a.check r = .error v ↔ a.Violates r v := by
  constructor
  · intro h
    cases a with
    | dataDelivered data =>
      simp only [check] at h
      split at h
      · cases h
      · rename_i hdata
        cases h
        exact .notDelivered hdata
    | senderPackets min max =>
      simp only [check] at h
      split at h
      · rename_i hmin
        cases h
        exact .tooFewPackets hmin
      · rename_i hmin
        split at h
        · cases h
        · split at h
          · rename_i hmax
            cases h
            exact .tooManyPackets (Nat.le_of_not_lt hmin) hmax
          · cases h
    | maxDuration limit =>
      simp only [check] at h
      split at h
      · rename_i hcompleted
        cases h
        exact .unfinished hcompleted
      · rename_i hcompleted
        split at h
        · rename_i hlimit
          cases h
          exact .tooLong (Bool.eq_true_of_not_eq_false hcompleted) hlimit
        · cases h
  · intro h
    cases h with
    | notDelivered h => simp [check, h]
    | tooFewPackets h => simp [check, h]
    | tooManyPackets enough h => simp [check, Nat.not_lt.mpr enough, h]
    | unfinished h => simp [check, h]
    | tooLong completed h => simp [check, completed, h]

theorem judge_cons (r : Report) (a : Assertion) (as : List Assertion) :
    judge r (a :: as) = a.check r >>= fun _ => judge r as := by
  rw [judge]
  cases a.check r <;> rfl

theorem judge_append (r : Report) (as bs : List Assertion) :
    judge r (as ++ bs) = judge r as >>= fun _ => judge r bs := by
  induction as with
  | nil => rfl
  | cons a as ih =>
    rw [List.cons_append, judge_cons, judge_cons, ih]
    cases a.check r <;> rfl

theorem judge_eq_error_iff : judge r as = .error v ↔ FirstViolation r as v := by
  constructor
  · intro h
    induction as with
    | nil => cases h
    | cons a as ih =>
      rw [judge_cons] at h
      cases ha : a.check r with
      | error w =>
        rw [ha] at h
        cases h
        exact ⟨[], a, as, rfl, nofun, Assertion.check_eq_error_iff.mp ha⟩
      | ok u =>
        rw [ha] at h
        obtain ⟨past, b, rest, rfl, hpast, hb⟩ := ih h
        have hfirst : a.Holds r := (Assertion.check_eq_ok_iff r a).mp ha
        exact ⟨a :: past, b, rest, rfl, List.forall_mem_cons.mpr ⟨hfirst, hpast⟩, hb⟩
  · rintro ⟨past, a, rest, rfl, hpast, ha⟩
    rw [judge_append, (judge_eq_ok_iff r past).mpr hpast]
    show judge r (a :: rest) = _
    rw [judge_cons, Assertion.check_eq_error_iff.mpr ha]
    rfl

variable {σ ρ : Type} {c : Scenario} {ends : Ends σ ρ} {o : Outcome}

/-- The default channel with what the scenario changes about it. -/
def channel (c : Scenario) : Config := Config.override {} c.config

/-- The run of the scenario leaves this report when its queue is empty or the limit is reached. -/
def Leaves (c : Scenario) (ends : Ends σ ρ) (r : Report) : Prop :=
  ∃ s completed t, c.build ends = .ok s ∧
    s.run ends Simulation.defaultLimit = .ok (completed, t) ∧ t.report = r

/-- The result for a report, with the log of the run that left it. -/
def conclude (c : Scenario) (r : Report) (log : List Notice) : Outcome :=
  match judge r c.assertions with
  | .error v => ⟨.error (.violation c.name v), .scenarioStarted c.name c.description :: log⟩
  | .ok () => ⟨.ok r, .scenarioStarted c.name c.description :: log ++ [.scenarioPassed c.name]⟩

theorem build_eq_error_iff {e : ConfigError} : c.build ends = .error e ↔ c.channel.Faulty e := by
  rw [build, ← Config.validate_eq_error_iff]
  unfold Simulation.create
  show (((Config.validate c.channel).map _).map _ = _) ↔ _
  cases c.channel.validate <;> simp [Except.map]

theorem valid_of_build {s : Simulation σ ρ} (h : c.build ends = .ok s) : c.channel.Valid := by
  rw [build] at h
  obtain ⟨t, ht, -⟩ := exists_of_map_eq_ok h
  exact (Simulation.create_eq_ok_iff.mp ht).1

/-- What the run of a scenario can come to. -/
theorem run_eq_ok (h : c.run ends = .ok o) :
    (∃ e, c.build ends = .error e ∧
      o = ⟨.error (.config c.name e), [.scenarioStarted c.name c.description]⟩) ∨
    ∃ s completed t, c.build ends = .ok s ∧
      s.run ends Simulation.defaultLimit = .ok (completed, t) ∧
      o = c.conclude t.report t.notices.toList := by
  unfold run at h
  split at h
  · rename_i e hbuild
    cases h
    exact .inl ⟨e, hbuild, rfl⟩
  · rename_i s hbuild
    split at h
    · cases h
    · rename_i completed t hrun
      refine .inr ⟨s, completed, t, hbuild, hrun, ?_⟩
      unfold conclude
      cases hjudge : judge t.report c.assertions with
      | error v =>
        simp only [hjudge] at h
        cases h
        rfl
      | ok u =>
        simp only [hjudge] at h
        cases h
        rfl

theorem run_of_build {s t : Simulation σ ρ} {completed : Bool} (hbuild : c.build ends = .ok s)
    (hrun : s.run ends Simulation.defaultLimit = .ok (completed, t)) :
    c.run ends = .ok (c.conclude t.report t.notices.toList) := by
  unfold run conclude
  simp only [hbuild, hrun]
  cases judge t.report c.assertions <;> rfl

theorem run_of_faulty {e : ConfigError} (h : c.build ends = .error e) :
    c.run ends = .ok ⟨.error (.config c.name e), [.scenarioStarted c.name c.description]⟩ := by
  unfold run
  simp only [h]

theorem Leaves.eq {s t : Simulation σ ρ} {completed : Bool} (h : c.Leaves ends r)
    (hbuild : c.build ends = .ok s)
    (hrun : s.run ends Simulation.defaultLimit = .ok (completed, t)) : r = t.report := by
  obtain ⟨s', completed', t', hbuild', hrun', rfl⟩ := h
  obtain rfl : s' = s := Except.ok.inj (hbuild'.symm.trans hbuild)
  obtain ⟨-, rfl⟩ := Prod.mk.inj (Except.ok.inj (hrun'.symm.trans hrun))
  rfl

theorem result_conclude_eq_ok_iff {r' : Report} {log : List Notice} :
    (c.conclude r log).result = .ok r' ↔ r' = r ∧ ∀ a ∈ c.assertions, a.Holds r := by
  rw [← judge_eq_ok_iff]
  unfold conclude
  cases judge r c.assertions with
  | error v => simp
  | ok u => simp [eq_comm]

theorem result_conclude_eq_error_iff {f : Failure} {log : List Notice} :
    (c.conclude r log).result = .error f ↔
      ∃ v, FirstViolation r c.assertions v ∧ f = .violation c.name v := by
  simp only [← judge_eq_error_iff]
  unfold conclude
  cases judge r c.assertions with
  | error v => simp [eq_comm]
  | ok u => simp

theorem conclude_append {f : Failure} {log : List Notice}
    (h : (c.conclude r log).result = .error f) (more : List Assertion) :
    { c with assertions := c.assertions ++ more }.conclude r log = c.conclude r log := by
  obtain ⟨v, hv, -⟩ := result_conclude_eq_error_iff.mp h
  have hjudge := judge_eq_error_iff.mpr hv
  unfold conclude
  simp only [judge_append, hjudge]
  rfl

theorem passes_iff (h : c.run ends = .ok o) : o.result = .ok r ↔
    c.channel.Valid ∧ c.Leaves ends r ∧ ∀ a ∈ c.assertions, a.Holds r := by
  rcases run_eq_ok h with ⟨e, hbuild, rfl⟩ | ⟨s, completed, t, hbuild, hrun, rfl⟩
  · have hfaulty : c.channel.Faulty e := build_eq_error_iff.mp hbuild
    simp [hfaulty.not_valid]
  · rw [result_conclude_eq_ok_iff]
    constructor
    · rintro ⟨rfl, hall⟩
      exact ⟨valid_of_build hbuild, ⟨s, completed, t, hbuild, hrun, rfl⟩, hall⟩
    · rintro ⟨-, hr, hall⟩
      obtain rfl := hr.eq hbuild hrun
      exact ⟨rfl, hall⟩

theorem fails_iff {f : Failure} (h : c.run ends = .ok o) : o.result = .error f ↔
    (∃ e, c.channel.Faulty e ∧ f = .config c.name e) ∨
    c.channel.Valid ∧ ∃ r, c.Leaves ends r ∧
      ∃ v, FirstViolation r c.assertions v ∧ f = .violation c.name v := by
  rcases run_eq_ok h with ⟨e, hbuild, rfl⟩ | ⟨s, completed, t, hbuild, hrun, rfl⟩
  · have hfaulty : c.channel.Faulty e := build_eq_error_iff.mp hbuild
    constructor
    · intro hf
      exact .inl ⟨e, hfaulty, (Except.error.inj hf).symm⟩
    · rintro (⟨e', he', rfl⟩ | ⟨hvalid, -⟩)
      · have hbuild' : c.build ends = .error e' := build_eq_error_iff.mpr he'
        rw [Except.error.inj (hbuild.symm.trans hbuild')]
      · exact absurd hvalid hfaulty.not_valid
  · have hvalid : c.channel.Valid := valid_of_build hbuild
    rw [result_conclude_eq_error_iff]
    constructor
    · rintro ⟨v, hv, rfl⟩
      exact .inr ⟨hvalid, t.report, ⟨s, completed, t, hbuild, hrun, rfl⟩, v, hv, rfl⟩
    · rintro (⟨e, he, -⟩ | ⟨-, r, hr, v, hv, rfl⟩)
      · exact absurd hvalid he.not_valid
      · obtain rfl := hr.eq hbuild hrun
        exact ⟨v, hv, rfl⟩

theorem unrun_of_not_valid (h : c.run ends = .ok o) (hinvalid : ¬ c.channel.Valid) :
    (∀ s, c.build ends ≠ .ok s) ∧ o.notices = [.scenarioStarted c.name c.description] := by
  rcases run_eq_ok h with ⟨e, hbuild, rfl⟩ | ⟨s, completed, t, hbuild, hrun, rfl⟩
  · exact ⟨fun s hs => hinvalid (valid_of_build hs), rfl⟩
  · exact absurd (valid_of_build hbuild) hinvalid

theorem exists_run_append (h : c.run ends = .ok o) (more : List Assertion) :
    ∃ o', { c with assertions := c.assertions ++ more }.run ends = .ok o' ∧
      (∀ f, o.result = .error f → o' = o) ∧ ∀ r, o'.result = .ok r → o.result = .ok r := by
  rcases run_eq_ok h with ⟨e, hbuild, rfl⟩ | ⟨s, completed, t, hbuild, hrun, rfl⟩
  · exact ⟨_, run_of_faulty (c := { c with assertions := c.assertions ++ more }) hbuild,
      fun _ _ => rfl, fun _ hr => hr⟩
  · refine ⟨_, run_of_build (c := { c with assertions := c.assertions ++ more }) hbuild hrun,
      fun f hf => conclude_append hf more, ?_⟩
    intro r hr
    obtain ⟨rfl, hall⟩ := result_conclude_eq_ok_iff.mp hr
    refine result_conclude_eq_ok_iff.mpr ⟨rfl, ?_⟩
    exact fun a ha => hall a (List.mem_append_left more ha)

/-- A scenario that does not end in an overflow passes exactly if its channel is valid and all its
assertions hold of the report that the run leaves, and then it gives this report. Otherwise it
fails with the fault of its channel, and nothing is run, or with the first clause of an assertion
that the report does not meet. Further assertions leave a failure as it is, and they let a scenario
pass only if it passed without them, with the same report. -/
theorem passes_when_assertions_hold (c : Scenario) (ends : Ends σ ρ) {o : Outcome}
    (h : c.run ends = .ok o) :
    (∀ r, o.result = .ok r ↔
      c.channel.Valid ∧ c.Leaves ends r ∧ ∀ a ∈ c.assertions, a.Holds r) ∧
    (∀ f, o.result = .error f ↔
      (∃ e, c.channel.Faulty e ∧ f = .config c.name e) ∨
      c.channel.Valid ∧ ∃ r, c.Leaves ends r ∧
        ∃ v, FirstViolation r c.assertions v ∧ f = .violation c.name v) ∧
    (¬ c.channel.Valid → (∀ s, c.build ends ≠ .ok s) ∧
      o.notices = [.scenarioStarted c.name c.description]) ∧
    ∀ more, ∃ o', { c with assertions := c.assertions ++ more }.run ends = .ok o' ∧
      (∀ f, o.result = .error f → o' = o) ∧ ∀ r, o'.result = .ok r → o.result = .ok r := by
  refine ⟨?_, ?_, ?_, ?_⟩
  · exact fun _ => passes_iff h
  · exact fun _ => fails_iff h
  · exact unrun_of_not_valid h
  · exact exists_run_append h

/-- The first assertion holds, the second fails in its second clause, and so would the third. -/
def audit : Scenario :=
  { errands with assertions := [.dataDelivered "a", .senderPackets 3 (some 6), .maxDuration 1] }

theorem passes_when_assertions_hold_of_audit : ∃ o r,
    audit.run AlternatingBit.ends = .ok o ∧
      o.result = .error (.violation "errands" (.tooManyPackets 7 6)) ∧
      audit.channel.Valid ∧ audit.Leaves AlternatingBit.ends r ∧
      FirstViolation r audit.assertions (.tooManyPackets 7 6) ∧
      { audit with assertions := audit.assertions ++ [Assertion.dataDelivered "b"] }.run
        AlternatingBit.ends = .ok o := by
  have hrun : (audit.run AlternatingBit.ends).map (fun o => o.result.map fun _ => ()) =
      .ok (.error (.violation "errands" (.tooManyPackets 7 6))) := by
    decide +kernel
  obtain ⟨o, h, hresult⟩ := exists_of_map_eq_ok hrun
  have hfails : o.result = .error (.violation "errands" (.tooManyPackets 7 6)) := by
    cases ho : o.result with
    | error f =>
      rw [ho] at hresult
      exact congrArg Except.error (Except.error.inj hresult)
    | ok r =>
      rw [ho] at hresult
      cases hresult
  obtain ⟨-, hreason, -, hmore⟩ := passes_when_assertions_hold audit AlternatingBit.ends h
  obtain ⟨o', hrun', hsame, -⟩ := hmore [.dataDelivered "b"]
  obtain rfl := hsame _ hfails
  rcases (hreason _).mp hfails with ⟨e, -, he⟩ | ⟨hvalid, r, hleaves, v, hv, heq⟩
  · cases he
  · obtain ⟨-, rfl⟩ := Failure.violation.inj heq
    exact ⟨o', r, h, hfails, hvalid, hleaves, hv, hrun'⟩

end Scenario

end LossyLink
