import LossyLink.Simulation.Event

/-! # Timer generations

Every start and every cancellation of a timer begins a new generation of it. An
expiry belongs to the generation of its start and is stale once another one has
begun, so only the last start of a timer can fire.
-/

namespace LossyLink

abbrev TimerKey := Node × UInt32

/-- The current generation of every timer that was ever touched. -/
structure Generations where
  entries : List (TimerKey × Nat) := []
  deriving DecidableEq, Repr

namespace Generations

/-- An untouched timer is in generation zero. -/
def get (g : Generations) (k : TimerKey) : Nat := (g.entries.lookup k).getD 0

def bumpEntries (k : TimerKey) : List (TimerKey × Nat) → List (TimerKey × Nat)
  | [] => [(k, 1)]
  | (k', n) :: rest => if k' = k then (k', n + 1) :: rest else (k', n) :: bumpEntries k rest

/-- Begin the next generation of a timer. -/
def bump (g : Generations) (k : TimerKey) : Generations := ⟨bumpEntries k g.entries⟩

theorem get_bump (g : Generations) (k k' : TimerKey) :
    (g.bump k).get k' = if k' = k then g.get k + 1 else g.get k' := by
  obtain ⟨entries⟩ := g
  unfold get bump
  simp only
  induction entries with
  | nil =>
    by_cases h : k' = k
    · simp [bumpEntries, h]
    · simp [bumpEntries, List.lookup_cons, h, beq_eq_false_iff_ne.mpr h]
  | cons e rest ih =>
    obtain ⟨k₀, n⟩ := e
    by_cases h₀ : k₀ = k
    · subst h₀
      by_cases h : k' = k₀
      · subst h; simp [bumpEntries]
      · simp [bumpEntries, List.lookup_cons, h, beq_eq_false_iff_ne.mpr h]
    · by_cases h : k' = k₀
      · subst h
        simp [bumpEntries, h₀]
      · have hk : ¬ k = k₀ := fun e => h₀ e.symm
        simp only [bumpEntries, h₀, if_false, List.lookup_cons, beq_eq_false_iff_ne.mpr h,
          beq_eq_false_iff_ne.mpr hk]
        simpa using ih

@[simp] theorem get_bump_self (g : Generations) (k : TimerKey) :
    (g.bump k).get k = g.get k + 1 := by
  simp [get_bump]

theorem get_bump_of_ne (g : Generations) {k k' : TimerKey} (h : k' ≠ k) :
    (g.bump k).get k' = g.get k' := by
  simp [get_bump, h]

end Generations

end LossyLink
