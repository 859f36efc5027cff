import LossyLink.Proofs.Simulation.Congruence
import LossyLink.Proofs.Simulation.Passage

/-! # What the channel decides

About every packet the channel decides by a drop rule if one matches, and by its random
choices otherwise. Nothing else of the simulation enters into the decision, and all that
comes of it are entries in the log of the link and an arrival.
-/

namespace LossyLink

def Passage.ofFate : Fate → Passage
  | .lost => .dropped .random
  | .arrives damaged latency => .carried damaged latency

/-- What becomes of a packet, with the rules and the generator that are left. -/
structure Decision where
  passage : Passage
  drops : DropRules
  generator : Generator

def Config.decision (c : Config) (drops : DropRules) (g : Generator) (node : Node)
    (h : Header) : Decision :=
  match drops.take? node h with
  | some (reason, drops) => ⟨.dropped reason, drops, g⟩
  | none => ⟨.ofFate (c.drawFate g).1, drops, (c.drawFate g).2⟩

namespace Simulation

variable {σ ρ : Type}

/-- The decision about a packet that is handed over now. -/
def decision (s : Simulation σ ρ) (node : Node) (p : Packet) : Decision :=
  s.config.decision s.drops s.generator node p.header

theorem exists_carried_of_isZero {s : Simulation σ ρ} {node : Node} {p : Packet}
    (hloss : IsZero s.config.lossRate) (hv : s.config.minLatency ≤ s.config.maxLatency)
    (hrule : s.drops.take? node p.header = none) : ∃ damaged latency generator,
      s.decision node p = ⟨.carried damaged latency, s.drops, generator⟩ ∧
      s.config.minLatency ≤ latency ∧ latency ≤ s.config.maxLatency := by
  unfold decision Config.decision
  rw [hrule]
  cases hf : (s.config.drawFate s.generator).1 with
  | lost =>
    unfold Config.drawFate at hf
    simp [Generator.hits_of_isZero hloss] at hf
  | arrives damaged latency =>
    obtain ⟨hmin, hmax⟩ := Config.latency_of_drawFate hv hf
    exact ⟨damaged, latency, _, rfl, hmin, hmax⟩

/-- The packet is counted, and the channel goes on from its decision. -/
def decided (s : Simulation σ ρ) (node : Node) (d : Decision) : Simulation σ ρ :=
  { s.countSent node with drops := d.drops, generator := d.generator }

/-- The link tells what becomes of a packet, and what arrives of it is put into the queue. -/
def pass (s : Simulation σ ρ) (node : Node) (x : Post) :
    Except ClockOverflow (Simulation σ ρ) :=
  let s := x.changes.foldl (fun s change => s.link node change) s
  match x.passage with
  | .dropped _ => .ok s
  | .carried damaged latency =>
    s.after latency (.arrival node.peer (x.packet.received damaged))

theorem transmit_eq (s : Simulation σ ρ) (node : Node) (p : Packet) :
    s.transmit node p =
      (s.decided node (s.decision node p)).pass node ⟨p, (s.decision node p).passage⟩ := by
  have hconfig : (s.countSent node).config = s.config := by cases node <;> rfl
  have hdrops : (s.countSent node).drops = s.drops := by cases node <;> rfl
  have hgenerator : (s.countSent node).generator = s.generator := by cases node <;> rfl
  unfold transmit carry decided decision Config.decision
  simp only [hconfig, hdrops, hgenerator]
  cases s.drops.take? node p.header with
  | some x => rfl
  | none =>
    cases hf : (s.config.drawFate s.generator).1 with
    | lost => rfl
    | arrives damaged latency => cases damaged <;> rfl

theorem links_eq (s : Simulation σ ρ) (node : Node) (changes : List LinkChange) :
    changes.foldl (fun s change => s.link node change) s =
      { s with
        links := s.links ++ changes.map fun change => (⟨s.clock, node, change⟩ : LinkEvent) } := by
  induction changes generalizing s with
  | nil => simp
  | cons change changes ih =>
    rw [List.foldl_cons, ih]
    simp [link]

/-- A packet that passes leaves nothing but entries in the log and an arrival. -/
theorem pass_frame {s s' : Simulation σ ρ} {node : Node} {x : Post}
    (hs : s.pass node x = .ok s') :
    ∃ queue, s' = { s with queue, links := s.links ++ x.events s.clock node } := by
  unfold pass at hs
  simp only [links_eq] at hs
  split at hs
  · cases hs
    exact ⟨s.queue, rfl⟩
  · exact ⟨_, after_eq_ok hs⟩

theorem alike_pass {R : Simulation σ ρ → Simulation σ ρ → Prop} {s t : Simulation σ ρ}
    {node : Node} {x : Post}
    (hlinks : R { s with links := s.links ++ x.events s.clock node }
      { t with links := t.links ++ x.events t.clock node })
    (hafter : ∀ {s t}, R s t → ∀ delay p, Alike R (s.after delay (.arrival node.peer p))
      (t.after delay (.arrival node.peer p))) :
    Alike R (s.pass node x) (t.pass node x) := by
  unfold pass
  rw [links_eq, links_eq]
  cases x.passage with
  | dropped reason => exact .ok hlinks
  | carried damaged latency => exact hafter hlinks latency _

end Simulation

end LossyLink
