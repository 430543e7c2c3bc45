import HomeAutomation.WifiSwitch.Sketch

/-! # Accepted presses and requests

A flag remembers that a press is waiting, not how many.  `Balanced` counts, for every
button and at every statement, where its accepted presses went: into a request, into
the flag, into a request that is about to be sent, or into a flag that already stood
for an earlier press.
-/

namespace HomeAutomation.WifiSwitch

open HomeAutomation.Lib.Transition Sketch

variable {n : Nat}

/-! ## Counting -/

def isAccept (i : Fin n) : Event n → Bool
  | .accept button _ _ _ => button = i
  | .request _ _ => false

def isMerged (i : Fin n) : Event n → Bool
  | .accept button _ _ waiting => button = i && waiting
  | .request _ _ => false

def isRequest (i : Fin n) : Event n → Bool
  | .accept _ _ _ _ => false
  | .request button _ => button = i

def accepted (i : Fin n) (s : Sketch n) : Nat := s.history.countP (isAccept i)
def merged (i : Fin n) (s : Sketch n) : Nat := s.history.countP (isMerged i)
def requests (i : Fin n) (s : Sketch n) : Nat := s.history.countP (isRequest i)

/-- The statements between `noInterrupts` and `interrupts`. -/
def Pc.InSection : Pc n → Prop
  | .clear _ | .sendRequest _ | .interrupts _ => True
  | .attachInterrupt _ | .wifiWait | .test _ | .noInterrupts _ => False

/-- The flag of the button has been tested, and not been cleared yet. -/
def Pc.Tested (i : Fin n) : Pc n → Prop
  | .noInterrupts button | .clear button => button = i
  | _ => False

/-- The flag of the button has been cleared, and its request not been sent yet. -/
def Pc.owed (i : Fin n) : Pc n → Nat
  | .sendRequest button => if button = i then 1 else 0
  | _ => 0

/-! ## The invariant -/

structure Balanced (s : Sketch n) : Prop where
  tested : ∀ i, s.pc.Tested i → s.buttonWasPressed i = true
  counts : ∀ i, accepted i s =
    requests i s + (s.buttonWasPressed i).toNat + merged i s + s.pc.owed i

theorem balanced_powerOn : Balanced (powerOn : Sketch n) where
  tested _ tested := tested.elim
  counts _ := rfl

/-- Steps that only move on to a statement with nothing tested and nothing owed. -/
theorem Balanced.goto {s : Sketch n} (balanced : Balanced s) {pc : Pc n} (enabled : Bool)
    (untested : ∀ i, ¬ pc.Tested i) (same : ∀ i, pc.owed i = s.pc.owed i) :
    Balanced { s with pc, interruptsEnabled := enabled } where
  tested i tested := absurd tested (untested i)
  counts i := by
    have counts := balanced.counts i
    rw [← same] at counts
    exact counts

theorem Balanced.setPressedFlag {s : Sketch n} (balanced : Balanced s) (index : Fin n)
    (between : Nat) :
    Balanced (s.setPressedFlag index true between) := by
  unfold Sketch.setPressedFlag
  split
  case isFalse => exact balanced
  case isTrue =>
    refine ⟨fun i tested => ?_, fun i => ?_⟩
    · dsimp only
      by_cases same : i = index
      · rw [same, Function.update_self]
      · rw [Function.update_of_ne same]
        exact balanced.tested i tested
    · have counts := balanced.counts i
      simp only [accepted, merged, requests] at counts ⊢
      simp only [List.countP_append, List.countP_singleton, isAccept, isMerged, isRequest]
      by_cases same : i = index
      · -- either the flag comes up, or the press is merged into it
        subst same
        cases waiting : s.buttonWasPressed i <;> simp [waiting] at counts ⊢ <;> omega
      · simp [Function.update_of_ne same, Ne.symm same, counts]

theorem Balanced.clear {s : Sketch n} (balanced : Balanced s) {i : Fin n} (here : s.pc = .clear i) :
    Balanced { s with
      pc := .sendRequest i
      buttonWasPressed := Function.update s.buttonWasPressed i false } where
  tested _ tested := tested.elim
  counts j := by
    have counts := balanced.counts j
    simp only [here, Pc.owed, accepted, requests, merged] at counts ⊢
    by_cases same : j = i
    · subst same
      -- the press moves from the flag to the request that is owed
      have pressed : s.buttonWasPressed j = true := balanced.tested j (by rw [here]; rfl)
      rw [pressed] at counts
      rw [Function.update_self, if_pos rfl, counts]
      simp only [Bool.toNat_true, Bool.toNat_false]
      omega
    · rw [Function.update_of_ne same, if_neg (Ne.symm same), counts]

theorem Balanced.sendRequest {s : Sketch n} (balanced : Balanced s) {i : Fin n}
    (here : s.pc = .sendRequest i) :
    Balanced { s.sendRequestToApi i with pc := .interrupts i } where
  tested _ tested := tested.elim
  counts j := by
    have counts := balanced.counts j
    simp only [here, Pc.owed, accepted, requests, merged, Sketch.sendRequestToApi,
      List.countP_append, List.countP_singleton, isAccept, isMerged, isRequest,
      decide_eq_true_eq] at counts ⊢
    rw [counts]
    simp only [Bool.false_eq_true, if_false]
    omega

theorem Balanced.advance {s : Sketch n} (balanced : Balanced s) (connected : Bool) :
    Balanced (s.advance connected) := by
  unfold Sketch.advance
  cases here : s.pc with
  | attachInterrupt i =>
    dsimp only
    split
    · exact balanced.goto _ (fun _ => id) (fun _ => by rw [here]; rfl)
    · exact balanced.goto _ (fun _ => id) (fun _ => by rw [here]; rfl)
  | wifiWait =>
    dsimp only
    split
    · exact balanced.goto _ (fun _ => id) (fun _ => by rw [here]; rfl)
    · exact balanced
  | test i =>
    dsimp only
    split
    case isFalse => exact balanced.goto _ (fun _ => id) (fun _ => by rw [here]; rfl)
    split
    case isFalse => exact balanced.goto _ (fun _ => id) (fun _ => by rw [here]; rfl)
    case isTrue pressed =>
      -- interrupts only raise flags, so this one is still up when it is cleared
      refine ⟨?_, fun j => ?_⟩
      · rintro j rfl
        exact pressed
      · have counts := balanced.counts j
        rw [here] at counts
        exact counts
  | noInterrupts i =>
    refine ⟨?_, fun j => ?_⟩
    · rintro j rfl
      exact balanced.tested _ (by rw [here]; rfl)
    · have counts := balanced.counts j
      rw [here] at counts
      exact counts
  | clear i => exact balanced.clear here
  | sendRequest i => exact balanced.sendRequest here
  | interrupts i => exact balanced.goto _ (fun _ => id) (fun _ => by rw [here]; rfl)

theorem Balanced.step {s next : Sketch n} (balanced : Balanced s) (label : Label n)
    (stepped : s.step label = some next) : Balanced next := by
  cases label with
  | elapse milliseconds =>
    cases stepped
    exact ⟨balanced.tested, balanced.counts⟩
  | interrupt i between =>
    simp only [Sketch.step] at stepped
    split at stepped
    case isTrue =>
      cases stepped
      exact balanced.setPressedFlag i between
    case isFalse => cases stepped
  | advance connected =>
    cases stepped
    exact balanced.advance connected

theorem balanced_run {labels : List (Label n)} {s : Sketch n}
    (reached : run Sketch.step powerOn labels = some s) : Balanced s :=
  run_invariant Balanced balanced_powerOn
    (fun _ label _ balanced stepped => balanced.step label stepped) reached

/-! ## Presses -/

/-- In every reachable state outside the section without interrupts, and for every
    button, each accepted press has led to a request of its own, is the one its flag
    stands for, or found that flag already up. -/
theorem accepted_presses (labels : List (Label n)) (s : Sketch n)
    (reached : run Sketch.step powerOn labels = some s) (outside : ¬ s.pc.InSection) (i : Fin n) :
    accepted i s = requests i s + (s.buttonWasPressed i).toNat + merged i s := by
  have counts := (balanced_run reached).counts i
  cases here : s.pc with
  | sendRequest button =>
    rw [here] at outside
    exact absurd trivial outside
  | attachInterrupt attached => rw [counts, here]; rfl
  | wifiWait => rw [counts, here]; rfl
  | test button => rw [counts, here]; rfl
  | noInterrupts button => rw [counts, here]; rfl
  | clear button => rw [counts, here]; rfl
  | interrupts button => rw [counts, here]; rfl

/-- Two presses of one button, more than `minimal_delay` apart, while the loop waits
    for the network. -/
def pressedTwice : List (Label 1) :=
  [.advance false, .advance false, .elapse 3000, .interrupt 0 1, .elapse 3000, .interrupt 0 1,
    .advance false]

/-- The second of them is merged into the flag of the first. -/
theorem accepted_presses_pressedTwice : ∃ s, run Sketch.step powerOn pressedTwice = some s ∧
    merged 0 s = 1 ∧ accepted 0 s = requests 0 s + (s.buttonWasPressed 0).toNat + merged 0 s := by
  obtain ⟨s, reached⟩ : ∃ s, run Sketch.step powerOn pressedTwice = some s := ⟨_, rfl⟩
  refine ⟨s, reached, ?_, accepted_presses pressedTwice s reached ?_ 0⟩
  · cases reached
    decide
  · cases reached
    exact id

/-- A press that is accepted while its flag is up gets no request of its own. -/
theorem accepted_press_lost :
    ¬ ∀ (labels : List (Label 1)) (s : Sketch 1), run Sketch.step powerOn labels = some s →
      ¬ s.pc.InSection → ∀ i, accepted i s = requests i s + (s.buttonWasPressed i).toNat := by
  intro kept
  have balance := kept pressedTwice _ rfl id 0
  exact absurd balance (by decide)

end HomeAutomation.WifiSwitch
