import LossyLink.Proofs.Simulation.Pending

/-! # Answers, action by action

An answer of an end is carried out one action after another. What every action keeps, of a
simulation or of two that are to do the same, the whole answer keeps as well. Two computations
are alike if they fail in the same way or succeed with results that are related.
-/

namespace LossyLink

/-- Two computations fail in the same way, or succeed with related results. -/
inductive Alike {ε α β : Type} (R : α → β → Prop) : Except ε α → Except ε β → Prop
  | error (x : ε) : Alike R (.error x) (.error x)
  | ok {a : α} {b : β} (h : R a b) : Alike R (.ok a) (.ok b)

namespace Alike

variable {ε α β γ α' β' : Type} {R : α → β → Prop} {S : α' → β' → Prop} {x : Except ε α}
  {y : Except ε β}

theorem bind {f : α → Except ε α'} {g : β → Except ε β'} (h : Alike R x y)
    (hf : ∀ {a b}, R a b → Alike S (f a) (g b)) : Alike S (x >>= f) (y >>= g) := by
  cases h with
  | error e => exact .error e
  | ok h => exact hf h

theorem map_right {S : α → β' → Prop} {g : β → β'} (h : Alike R x y)
    (hg : ∀ {a b}, x = .ok a → R a b → S a (g b)) : Alike S x (y.map g) := by
  cases h with
  | error e => exact .error e
  | ok h => exact .ok (hg rfl h)

theorem map {f : α → α'} {g : β → β'} (h : Alike R x y) (hf : ∀ {a b}, R a b → S (f a) (g b)) :
    Alike S (x.map f) (y.map g) := by
  cases h with
  | error e => exact .error e
  | ok h => exact .ok (hf h)

theorem eq {x y : Except ε α} (h : Alike (fun a b => a = b) x y) : x = y := by
  cases h with
  | error e => rfl
  | ok h => exact congrArg Except.ok h

theorem foldlM {f : α → γ → Except ε α} {g : β → γ → Except ε β}
    (hf : ∀ {a b} c, R a b → Alike R (f a c) (g b c)) (cs : List γ) {a : α} {b : β} (h : R a b) :
    Alike R (cs.foldlM f a) (cs.foldlM g b) := by
  induction cs generalizing a b with
  | nil => exact .ok h
  | cons c cs ih =>
    rw [List.foldlM_cons, List.foldlM_cons]
    exact (hf c h).bind ih

theorem of_eq_ok {a : α} (h : Alike R x y) (hx : x = .ok a) : ∃ b, y = .ok b ∧ R a b := by
  subst hx
  obtain - | h := h
  exact ⟨_, rfl, h⟩

theorem of_eq_ok' {b : β} (h : Alike R x y) (hy : y = .ok b) : ∃ a, x = .ok a ∧ R a b := by
  subst hy
  obtain - | h := h
  exact ⟨_, rfl, h⟩

end Alike

variable {σ ρ σ' ρ' : Type}

namespace Simulation

variable {R : Simulation σ ρ → Simulation σ' ρ' → Prop} {s : Simulation σ ρ}
  {t : Simulation σ' ρ'} {node : Node}

/-- Both simulations may record the same. -/
structure KeepsRecords (R : Simulation σ ρ → Simulation σ' ρ' → Prop) : Prop where
  sample : ∀ {s t} (name : String) (value : Float),
    R s t → R (s.sample name value) (t.sample name value)
  notify : ∀ {s t} (n : Notice), R s t → R (s.notify n) (t.notify n)
  deliver : ∀ {s t} (node : Node) (data : Payload),
    R s t → R (s.deliver node data) (t.deliver node data)

/-- Both simulations may carry out the same action. -/
structure KeepsActions (R : Simulation σ ρ → Simulation σ' ρ' → Prop) : Prop
    extends KeepsRecords R where
  timer : ∀ {s t} (node : Node) (op : TimerOp),
    R s t → Alike R (s.timer node op) (t.timer node op)
  transmit : ∀ {s t} (node : Node) (p : Packet),
    R s t → Alike R (s.transmit node p) (t.transmit node p)

theorem KeepsRecords.record (hR : KeepsRecords R) (h : R s t) (actions : List Action) :
    R (s.record node actions) (t.record node actions) := by
  have hfoldl : ∀ {α : Type} {f : Simulation σ ρ → α → Simulation σ ρ}
      {g : Simulation σ' ρ' → α → Simulation σ' ρ'}, (∀ {s t} a, R s t → R (f s a) (g t a)) →
      ∀ (xs : List α) {s t}, R s t → R (xs.foldl f s) (xs.foldl g t) := by
    intro α f g hf xs
    induction xs with
    | nil => exact fun h => h
    | cons x xs ih => exact fun h => ih (hf x h)
  refine hfoldl (fun data h => hR.deliver node data h) _ (hfoldl (fun text h => ?_) _
    (hfoldl (fun m h => hR.sample m.1 m.2 h) _ h))
  exact hR.notify _ h

theorem KeepsActions.perform (hR : KeepsActions R) (h : R s t) (actions : List Action) :
    Alike R (s.perform node actions) (t.perform node actions) := by
  rw [perform_eq, perform_eq]
  refine (Alike.foldlM (fun op h => hR.timer node op h) _
    (hR.toKeepsRecords.record h actions)).bind fun h => ?_
  exact Alike.foldlM (fun p h => hR.transmit node p h) _ h

/-- The end takes on the state in which an event leaves it. -/
def absorb (ends : Ends σ ρ) (s : Simulation σ ρ) (node : Node) (x : Stimulus) :
    Simulation σ ρ :=
  match node with
  | .sender => { s with sender := (ends.sender.react s.clock x s.sender).1 }
  | .receiver => { s with receiver := (ends.receiver.react s.clock x s.receiver).1 }

section Absorb

variable (ends : Ends σ ρ) (s : Simulation σ ρ) (node : Node) (x : Stimulus)

@[simp] theorem config_absorb : (s.absorb ends node x).config = s.config := by cases node <;> rfl

@[simp] theorem clock_absorb : (s.absorb ends node x).clock = s.clock := by cases node <;> rfl

@[simp] theorem senderPackets_absorb : (s.absorb ends node x).senderPackets = s.senderPackets := by
  cases node <;> rfl

end Absorb

theorem handle_eq (ends : Ends σ ρ) (s : Simulation σ ρ) (node : Node) (x : Stimulus) :
    s.handle ends node x =
      (s.absorb ends node x).perform node (ends.answer node s.clock x s.sender s.receiver) := by
  cases node <;> rfl

/-- Every action keeps it. -/
structure Invariant (P : Simulation σ ρ → Prop) : Prop where
  sample : ∀ {s} (name : String) (value : Float), P s → P (s.sample name value)
  notify : ∀ {s} (n : Notice), P s → P (s.notify n)
  deliver : ∀ {s} (node : Node) (data : Payload), P s → P (s.deliver node data)
  timer : ∀ {s s'} (node : Node) (op : TimerOp), P s → s.timer node op = .ok s' → P s'
  transmit : ∀ {s s'} (node : Node) (p : Packet), P s → s.transmit node p = .ok s' → P s'

theorem timer_keeps {P : Simulation σ ρ → Prop} {s s' : Simulation σ ρ} {op : TimerOp}
    (hreset : ∀ {s} (generations : Generations), P s → P { s with generations })
    (hafter : ∀ {s s' : Simulation σ ρ} {delay : Nat} {what : Happening},
      P s → s.after delay what = .ok s' → P s')
    (h : P s) (hs : s.timer node op = .ok s') : P s' := by
  cases op with
  | cancel id =>
    cases hs
    exact hreset _ h
  | start delay id => exact hafter (hreset _ h) hs

theorem Invariant.keepsActions {P : Simulation σ ρ → Prop} (hP : Invariant P) :
    KeepsActions fun s t => s = t ∧ P s := by
  have hself : ∀ {x : Except ClockOverflow (Simulation σ ρ)}, (∀ s, x = .ok s → P s) →
      Alike (fun s t => s = t ∧ P s) x x := by
    intro x hx
    cases x with
    | error o => exact .error o
    | ok s => exact .ok ⟨rfl, hx s rfl⟩
  refine ⟨⟨?_, ?_, ?_⟩, ?_, ?_⟩
  · rintro s _ name value ⟨rfl, h⟩
    exact ⟨rfl, hP.sample name value h⟩
  · rintro s _ n ⟨rfl, h⟩
    exact ⟨rfl, hP.notify n h⟩
  · rintro s _ node data ⟨rfl, h⟩
    exact ⟨rfl, hP.deliver node data h⟩
  · rintro s _ node op ⟨rfl, h⟩
    exact hself fun s' hs => hP.timer node op h hs
  · rintro s _ node p ⟨rfl, h⟩
    exact hself fun s' hs => hP.transmit node p h hs

theorem Invariant.perform {P : Simulation σ ρ → Prop} (hP : Invariant P) {s s' : Simulation σ ρ}
    (h : P s) {actions : List Action} (hs : s.perform node actions = .ok s') : P s' := by
  obtain ⟨_, ht, rfl, h'⟩ := (hP.keepsActions.perform ⟨rfl, h⟩ actions).of_eq_ok hs
  exact h'

/-- What the states of the ends and all actions leave alone, an answer leaves alone. -/
theorem Invariant.handle {P : Simulation σ ρ → Prop} (hP : Invariant P)
    (hends : ∀ {s} (sender : σ) (receiver : ρ), P s → P { s with sender, receiver })
    {ends : Ends σ ρ} {s s' : Simulation σ ρ} {x : Stimulus} (h : P s)
    (hs : s.handle ends node x = .ok s') : P s' := by
  rw [handle_eq] at hs
  refine hP.perform ?_ hs
  cases node with
  | sender => exact hends _ s.receiver h
  | receiver => exact hends s.sender _ h

end Simulation

end LossyLink
