import LossyLink.Proofs.AlternatingBit.Delivery
import LossyLink.Proofs.Simulation.Channel
import LossyLink.Proofs.Simulation.Operation
import LossyLink.Protocol.Ideal

/-! # The choices of the channel

What becomes of the packets of a session can be read off the log of the link, one packet
after another and both directions together. The random choices are spent on the packets that
no rule drops and on nothing else. So the seed and the places of the packets that rules
dropped decide what becomes of all others, whatever the ends are and whatever they say.
-/

namespace LossyLink

/-- A rule dropped the packet. -/
def Passage.isScripted : Passage → Bool
  | .dropped .scriptedSeq => true
  | .dropped .scriptedAck => true
  | .dropped .random => false
  | .carried _ _ => false

@[simp] theorem Passage.isScripted_ofFate (f : Fate) : (ofFate f).isScripted = false := by
  cases f <;> rfl

theorem DropRules.isScripted_of_take?_eq_some {r r' : DropRules} {node : Node} {h : Header}
    {reason : DropReason} (ht : r.take? node h = some (reason, r')) :
    (Passage.dropped reason).isScripted = true := by
  cases node with
  | sender =>
    obtain ⟨-, ht⟩ := Option.ite_none_right_eq_some.mp ht
    obtain ⟨rfl, -⟩ := Prod.mk.inj (Option.some.inj ht)
    rfl
  | receiver =>
    obtain ⟨-, ht⟩ := Option.ite_none_right_eq_some.mp ht
    obtain ⟨rfl, -⟩ := Prod.mk.inj (Option.some.inj ht)
    rfl

namespace Config

variable {c : Config} {drops : DropRules} {g : Generator} {node : Node} {h : Header}

/-- The generator that is left when packets passed, of which some were dropped by a rule. -/
def advance (c : Config) (g : Generator) (scripted : List Bool) : Generator :=
  scripted.foldl (fun g b => if b then g else (c.drawFate g).2) g

theorem isScripted_decision :
    (c.decision drops g node h).passage.isScripted = (drops.take? node h).isSome := by
  unfold decision
  cases ht : drops.take? node h with
  | none => simp
  | some x => exact DropRules.isScripted_of_take?_eq_some ht

/-- A packet that a rule drops costs no random choice. -/
theorem generator_decision :
    (c.decision drops g node h).generator =
      c.advance g [(c.decision drops g node h).passage.isScripted] := by
  rw [isScripted_decision]
  unfold decision
  cases ht : drops.take? node h <;> rfl

theorem passage_decision (hd : (c.decision drops g node h).passage.isScripted = false) :
    (c.decision drops g node h).passage = .ofFate (c.drawFate g).1 := by
  rw [isScripted_decision] at hd
  unfold decision
  cases ht : drops.take? node h with
  | none => rfl
  | some x => simp [ht] at hd

end Config

theorem getElem?_concat_eq_some {α : Type} {xs : List α} {x y : α} {i : Nat}
    (h : (xs ++ [x])[i]? = some y) :
    (i < xs.length ∧ xs[i]? = some y) ∨ (i = xs.length ∧ x = y) := by
  rcases Nat.lt_or_ge i xs.length with hi | hi
  · rw [List.getElem?_append_left hi] at h
    exact .inl ⟨hi, h⟩
  · rw [List.getElem?_append_right hi, List.getElem?_singleton] at h
    obtain ⟨hzero, h⟩ := Option.ite_none_right_eq_some.mp h
    exact .inr ⟨Nat.le_antisymm (Nat.le_of_sub_eq_zero hzero) hi, Option.some.inj h⟩

/-- What the log of the link told so far: the packets that passed, and whether the next one
to be sent was damaged. -/
structure Reading where
  passages : List Passage := []
  damaged : Bool := false
  deriving DecidableEq, Repr

def Reading.next (r : Reading) : LinkChange → Reading
  | .delivered _ => r
  | .dropped reason _ _ => { r with passages := r.passages ++ [.dropped reason] }
  | .corrupted _ _ => { r with damaged := true }
  | .sent _ _ latency => { passages := r.passages ++ [.carried r.damaged latency] }

namespace Simulation

variable {σ ρ : Type} {s s' : Simulation σ ρ} {node : Node} {p : Packet}

def reading (s : Simulation σ ρ) : Reading :=
  s.links.toList.foldl (fun r e => r.next e.change) {}

/-- What became of the packets that were handed to the channel, in this order. -/
def transmissions (s : Simulation σ ρ) : List Passage := s.reading.passages

@[simp] theorem reading_link (s : Simulation σ ρ) (node : Node) (change : LinkChange) :
    (s.link node change).reading = s.reading.next change := by
  simp [reading, link]

theorem next_changes {r : Reading} (hr : r.damaged = false) (x : Post) :
    x.changes.foldl Reading.next r = { passages := r.passages ++ [x.passage] } := by
  obtain ⟨p, reason | ⟨_ | _, latency⟩⟩ := x <;> simp [Post.changes, Reading.next, hr]

theorem reading_pass {x : Post} (hr : s.reading.damaged = false)
    (hs : s.pass node x = .ok s') :
    s'.reading = { passages := s.transmissions ++ [x.passage] } := by
  obtain ⟨queue, rfl⟩ := pass_frame hs
  rw [transmissions, ← next_changes hr]
  simp [reading, Post.events, List.foldl_map]

theorem reading_transmit (hr : s.reading.damaged = false)
    (hs : s.transmit node p = .ok s') :
    s'.reading = { passages := s.transmissions ++ [(s.decision node p).passage] } := by
  have hdecided : (s.decided node (s.decision node p)).reading = s.reading := by
    cases node <;> rfl
  rw [transmit_eq] at hs
  rw [reading_pass (hdecided ▸ hr) hs, transmissions, hdecided, transmissions]

theorem generator_transmit (hs : s.transmit node p = .ok s') :
    s'.config = s.config ∧ s'.generator = (s.decision node p).generator := by
  rw [transmit_eq] at hs
  obtain ⟨queue, rfl⟩ := pass_frame hs
  cases node <;> exact ⟨rfl, rfl⟩

end Simulation

/-- The generator was used for the packets that no rule dropped, one after another, and what
became of these is what it said. -/
structure Fated (config : Config) {σ ρ : Type} (s : Simulation σ ρ) : Prop where
  config_eq : s.config = config
  complete : s.reading.damaged = false
  generator : s.generator = config.advance (Generator.ofSeed config.seed)
    (s.transmissions.map Passage.isScripted)
  passage : ∀ (i : Nat) (w : Passage), s.transmissions[i]? = some w → w.isScripted = false →
    w = .ofFate (config.drawFate (config.advance (Generator.ofSeed config.seed)
      ((s.transmissions.take i).map Passage.isScripted))).1

namespace Fated

open Simulation

variable {config : Config} {σ ρ : Type} {s s' : Simulation σ ρ} {node : Node} {p : Packet}

theorem congr {t : Simulation σ ρ} (h : Fated config s) (hc : t.config = s.config)
    (hg : t.generator = s.generator) (hr : t.reading = s.reading) : Fated config t :=
  ⟨hc.trans h.config_eq, hr ▸ h.complete, hg.trans (by rw [transmissions, hr]; exact h.generator),
    by rw [transmissions, hr]; exact h.passage⟩

theorem transmissions_transmit (h : Fated config s) (hs : s.transmit node p = .ok s') :
    s'.transmissions = s.transmissions ++ [(s.decision node p).passage] := by
  rw [transmissions, reading_transmit h.complete hs]

theorem transmit (h : Fated config s) (hs : s.transmit node p = .ok s') : Fated config s' := by
  have htransmissions := h.transmissions_transmit hs
  obtain ⟨hconfig, hgenerator⟩ := generator_transmit hs
  have hdecision : s.decision node p = config.decision s.drops s.generator node p.header := by
    rw [Simulation.decision, h.config_eq]
  refine ⟨hconfig.trans h.config_eq, by rw [reading_transmit h.complete hs], ?_, ?_⟩
  · rw [hgenerator, htransmissions, hdecision, Config.generator_decision, ← hdecision, h.generator,
      List.map_append, Config.advance, Config.advance, Config.advance, List.foldl_append]
    rfl
  · intro i w hw hscripted
    rw [htransmissions] at hw ⊢
    rcases getElem?_concat_eq_some hw with ⟨hi, hw⟩ | ⟨rfl, rfl⟩
    · rw [List.take_append_of_le_length (Nat.le_of_lt hi)]
      exact h.passage i w hw hscripted
    · rw [List.take_left, ← h.generator, hdecision]
      exact Config.passage_decision (hdecision ▸ hscripted)

theorem after {delay : Nat} {what : Happening} (h : Fated config s)
    (hs : s.after delay what = .ok s') : Fated config s' := by
  rw [after_eq_ok hs]
  exact h.congr rfl rfl rfl

theorem timer {op : TimerOp} (h : Fated config s) (hs : s.timer node op = .ok s') :
    Fated config s' :=
  timer_keeps (fun _ h => h.congr rfl rfl rfl) (fun h hs => h.after hs) h hs

theorem permanent (config : Config) :
    Permanent (Fated config : Simulation σ ρ → Prop) where
  sample _ _ h := h.congr rfl rfl rfl
  notify _ h := h.congr rfl rfl rfl
  deliver node data h := by
    refine h.congr rfl rfl ?_
    exact reading_link _ node (.delivered data.length)
  timer _ _ h hs := h.timer hs
  transmit _ _ h hs := h.transmit hs
  absorb _ _ h := h.congr rfl rfl rfl
  arrange p h := by cases p <;> exact h.congr rfl rfl rfl
  take h _ := h.congr rfl rfl rfl
  reach h _ := h.congr rfl rfl rfl
  complete _ h := h.congr rfl rfl rfl

theorem operateAll {ends : Ends σ ρ} {ops : List Operation} (hs : create config ends = .ok s)
    (h : s.operateAll ends ops = .ok s') : Fated config s' := by
  obtain ⟨-, rfl⟩ := create_eq_ok_iff.mp hs
  refine (permanent config).operateAll ops ⟨rfl, rfl, rfl, ?_⟩ h
  intro i w hw
  simp [transmissions, reading, fresh] at hw

end Fated

namespace Simulation

variable {σ ρ σ' ρ' : Type}

/-- Two sessions over the same channel, each with any ends and any operations. A packet that
no rule drops fares the same in both if its number is the same and rules dropped the same of
the packets before it. In each session the packets handed over are numbered as they come, and
one that a rule drops leaves the generator as it was. -/
theorem fate_independent_of_ends {config : Config} {ends : Ends σ ρ} {ends' : Ends σ' ρ'}
    {s t : Simulation σ ρ} {s' t' : Simulation σ' ρ'} {ops ops' : List Operation}
    (hs : create config ends = .ok s) (hs' : create config ends' = .ok s')
    (h : s.operateAll ends ops = .ok t) (h' : s'.operateAll ends' ops' = .ok t') :
    (∀ (i : Nat) (w w' : Passage), t.transmissions[i]? = some w → t'.transmissions[i]? = some w' →
      (t.transmissions.take i).map Passage.isScripted =
        (t'.transmissions.take i).map Passage.isScripted →
      w.isScripted = false → w'.isScripted = false → w = w') ∧
    ∀ node p t₁, t.transmit node p = .ok t₁ → ∃ w, t₁.transmissions = t.transmissions ++ [w] ∧
      w.isScripted = (t.drops.take? node p.header).isSome ∧
      (w.isScripted = true → t₁.generator = t.generator) := by
  have hf := Fated.operateAll hs h
  have hf' := Fated.operateAll hs' h'
  constructor
  · intro i w w' hw hw' hsame hscripted hscripted'
    rw [hf.passage i w hw hscripted, hf'.passage i w' hw' hscripted', hsame]
  · intro node p t₁ ht
    refine ⟨_, hf.transmissions_transmit ht, Config.isScripted_decision, fun hscripted => ?_⟩
    rw [(generator_transmit ht).2, decision, Config.generator_decision]
    rw [decision] at hscripted
    rw [hscripted]
    rfl

/-- The third packet of two sessions, an acknowledgement in the first and a bare packet of the
sender in the second. In both a rule dropped the first packet. -/
theorem fate_independent_of_ends_for_third_packet :
    ∃ t t', (fresh (noisy 10 90) AlternatingBit.ends).operateAll AlternatingBit.ends
        [.arrange (.submit 0 [1, 2]), .arrange (.dropSeq 0), .run 100] = .ok t ∧
      (fresh (noisy 10 90) ⟨Ideal.sender, Ideal.receiver⟩).operateAll
        ⟨Ideal.sender, Ideal.receiver⟩ [.arrange (.submit 0 [6]), .arrange (.submit 7 []),
          .arrange (.dropSeq 0), .init, .step, .step, .arrange (.submit 3 [9]), .step] = .ok t' ∧
      t.transmissions = [.dropped .scriptedSeq, .carried true 47, .carried true 31,
        .carried false 29, .carried false 27] ∧
      t'.transmissions[2]? = some (.carried true 31) := by
  have hrun : ((fresh (noisy 10 90) AlternatingBit.ends).operateAll AlternatingBit.ends
      [.arrange (.submit 0 [1, 2]), .arrange (.dropSeq 0), .run 100]).map transmissions =
        .ok [.dropped .scriptedSeq, .carried true 47, .carried true 31, .carried false 29,
          .carried false 27] := by
    decide +kernel
  have hrun' : ((fresh (noisy 10 90) ⟨Ideal.sender, Ideal.receiver⟩).operateAll
      ⟨Ideal.sender, Ideal.receiver⟩ [.arrange (.submit 0 [6]), .arrange (.submit 7 []),
        .arrange (.dropSeq 0), .init, .step, .step, .arrange (.submit 3 [9]), .step]).map
          (fun t => t.transmissions.map Passage.isScripted) = .ok [true, false, false] := by
    decide +kernel
  obtain ⟨t, hrun, ht⟩ := exists_of_map_eq_ok hrun
  obtain ⟨t', hrun', ht'⟩ := exists_of_map_eq_ok hrun'
  obtain ⟨w, hw, hscripted⟩ : ∃ w, t'.transmissions[2]? = some w ∧ w.isScripted = false := by
    have hthird := congrArg (fun bs : List Bool => bs[2]?) ht'
    simpa using hthird
  have hle : 10 ≤ 90 := by decide
  have hsame := (fate_independent_of_ends (create_noisy hle) (create_noisy hle) hrun hrun').1 2
    (.carried true 31) w (by rw [ht]; rfl) hw
    (by rw [List.map_take, List.map_take, ht, ht']; rfl) rfl hscripted
  exact ⟨t, t', hrun, hrun', ht, hsame ▸ hw⟩

end Simulation

end LossyLink
