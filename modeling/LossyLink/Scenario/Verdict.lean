import LossyLink.Report
import LossyLink.Scenario.Basic
import LossyLink.Text.Quoted

/-! # The verdict on a report

Assertions are checked in order, and each of them clause by clause. The verdict
is the first violation, if there is one.
-/

namespace LossyLink.Scenario

/-- A clause that a report does not meet. -/
inductive Violation where
  | notDelivered (data : String) (delivered : List String)
  | tooFewPackets (count min : Nat)
  | tooManyPackets (count max : Nat)
  | unfinished
  | tooLong (duration limit : Nat)
  deriving DecidableEq, Repr

def Violation.message : Violation → String
  | notDelivered data delivered =>
    s!"expected {Text.quote data} to be delivered, got {Text.quoteList delivered}"
  | tooFewPackets count min => s!"sender sent {count} packets, expected at least {min}"
  | tooManyPackets count max => s!"sender sent {count} packets, expected at most {max}"
  | unfinished => "simulation did not finish"
  | tooLong duration limit => s!"simulation took {duration}ms, limit {limit}ms"

namespace Assertion

/-- What an assertion says of a report. -/
def Holds (r : Report) : Assertion → Prop
  | dataDelivered data => Text.encodeUtf8 data ∈ r.delivered
  | senderPackets min max => min ≤ r.senderPackets ∧ ∀ m ∈ max, r.senderPackets ≤ m
  | maxDuration limit => r.completed = true ∧ r.duration ≤ limit

def check (r : Report) : Assertion → Except Violation Unit
  | dataDelivered data =>
    if Text.encodeUtf8 data ∈ r.delivered then .ok ()
    else .error (.notDelivered data r.deliveredTexts)
  | senderPackets min max =>
    if r.senderPackets < min then .error (.tooFewPackets r.senderPackets min)
    else
      match max with
      | none => .ok ()
      | some max =>
        if max < r.senderPackets then .error (.tooManyPackets r.senderPackets max) else .ok ()
  | maxDuration limit =>
    if r.completed = false then .error .unfinished
    else if limit < r.duration then .error (.tooLong r.duration limit)
    else .ok ()

theorem check_eq_ok_iff (r : Report) (a : Assertion) : a.check r = .ok () ↔ a.Holds r := by
  cases a with
  | dataDelivered data => by_cases h : Text.encodeUtf8 data ∈ r.delivered <;> simp [check, Holds, h]
  | senderPackets min max =>
    by_cases h : r.senderPackets < min
    · simp [check, Holds, h, Nat.not_le.2 h]
    · cases max with
      | none => simp [check, Holds, h, Nat.not_lt.1 h]
      | some max =>
        by_cases hm : max < r.senderPackets
        · simp [check, Holds, h, hm]
        · simp [check, Holds, h, hm, Nat.not_lt.1 h, Nat.not_lt.1 hm]
  | maxDuration limit =>
    cases hc : r.completed
    · simp [check, Holds, hc]
    · by_cases h : limit < r.duration
      · simp [check, Holds, hc, h]
      · simp [check, Holds, hc, h, Nat.not_lt.1 h]

end Assertion

/-- The first violation of a list of assertions. -/
def judge (r : Report) : List Assertion → Except Violation Unit
  | [] => .ok ()
  | a :: rest =>
    match a.check r with
    | .ok () => judge r rest
    | .error v => .error v

theorem judge_eq_ok_iff (r : Report) (as : List Assertion) :
    judge r as = .ok () ↔ ∀ a ∈ as, a.Holds r := by
  induction as with
  | nil => simp [judge]
  | cons a rest ih =>
    rw [judge, List.forall_mem_cons, ← Assertion.check_eq_ok_iff]
    cases a.check r with
    | ok u => simpa using ih
    | error v => simp

end LossyLink.Scenario
