import Mathlib.Algebra.Order.Ring.Nat

/-! # A 32-bit millisecond counter

True time is an unbounded natural number of milliseconds; the counter shows it
modulo `2^32`.  Elapsed time is measured by one wrapping subtraction.  A gate that
compares it with a delay never opens early, however often the counter has
wrapped, and it measures exactly as long as less than one period has passed.
-/

namespace HomeAutomation.Lib.WrapClock

/-- What the counter shows at a true time. -/
def counter (time : Nat) : UInt32 := UInt32.ofNat time

@[simp] theorem toNat_counter (time : Nat) : (counter time).toNat = time % 2 ^ 32 := rfl

theorem toNat_elapsed {earlier later : Nat} (ordered : earlier ≤ later) :
    (counter later - counter earlier).toNat = (later - earlier) % 2 ^ 32 := by
  rw [UInt32.toNat_sub, toNat_counter, toNat_counter]
  omega

/-- A gate that is open now was passed by more than its delay in true time. -/
theorem delay_passed {earlier later : Nat} {delay : UInt32} (ordered : earlier ≤ later)
    (gate : delay < counter later - counter earlier) : earlier + delay.toNat < later := by
  rw [UInt32.lt_iff_toNat_lt, toNat_elapsed ordered] at gate
  have shortened := Nat.mod_le (later - earlier) (2 ^ 32)
  omega

/-- Within one period of the counter the gate opens as soon as the delay has passed. -/
theorem gate_open {earlier later : Nat} {delay : UInt32} (passed : earlier + delay.toNat < later)
    (period : later - earlier < 2 ^ 32) : delay < counter later - counter earlier := by
  rw [UInt32.lt_iff_toNat_lt, toNat_elapsed (by omega), Nat.mod_eq_of_lt period]
  omega

/-- Whatever time is stored, of two readings further apart than the delay, and less than
    a period by as much, one finds the gate open. -/
theorem either_gate_open {earlier later : Nat} {delay : UInt32} (stored : UInt32)
    (apart : earlier + delay.toNat < later) (period : later - earlier + delay.toNat < 2 ^ 32) :
    delay < counter earlier - stored ∨ delay < counter later - stored := by
  rw [UInt32.lt_iff_toNat_lt, UInt32.lt_iff_toNat_lt, UInt32.toNat_sub, UInt32.toNat_sub,
    toNat_counter, toNat_counter]
  have bound := stored.toNat_lt
  omega

/-! ## Acts of a periodic loop -/

/-- What bounds the first pass that acts after `j` from below bounds every later one. -/
theorem lt_of_first (acts : Nat → Prop) {begins : Nat → Nat}
    (ordered : ∀ i k, i < k → begins i ≤ begins k) {j bound : Nat}
    (first : ∀ k, j < k → acts k → (∀ i, j < i → i < k → ¬ acts i) → bound < begins k) {k : Nat}
    (before : j < k) (act : acts k) : bound < begins k := by
  induction k using Nat.strong_induction_on with
  | h k inductionHypothesis =>
    by_cases between : ∃ i, j < i ∧ i < k ∧ acts i
    case pos =>
      obtain ⟨i, after, below, earlier⟩ := between
      exact Nat.lt_of_lt_of_le (inductionHypothesis i below after earlier) (ordered i k below)
    case neg =>
      apply first k before act
      intro i after below earlier
      exact between ⟨i, after, below, earlier⟩

end HomeAutomation.Lib.WrapClock
