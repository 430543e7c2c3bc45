import HomeAutomation.WifiSwitch.Presses

/-! # Bouncing contacts

Every physical press and every release of a button lets its contact bounce for up to 50
milliseconds, and each falling edge meanwhile runs the handler.  The handlers filter by
the time since the last accepted edge of any button.  This keeps the bounces of one
press apart from each other, but not the release from its press: where a button is held
longer than `minimal_delay`, the bounces of its release are taken for another press.
-/

namespace HomeAutomation.WifiSwitch

open HomeAutomation.Lib.Transition HomeAutomation.Lib.WrapClock Sketch

variable {n : Nat}

/-! ## Contacts -/

/-- When the buttons are physically pressed and released, in true time. -/
structure Contacts (n : Nat) where
  pressedAt : Fin n → Nat → Nat
  releasedAt : Fin n → Nat → Nat
  held : ∀ i press, pressedAt i press ≤ releasedAt i press
  apart : ∀ i press, releasedAt i press ≤ pressedAt i (press + 1)

inductive Origin
  | press
  | release
  deriving DecidableEq

/-- A falling edge, with the press it belongs to. -/
structure Edge (n : Nat) where
  button : Fin n
  press : Nat
  origin : Origin
  deriving DecidableEq

def bounceWindow : Nat := 50

namespace Contacts

/-- The press or the release that an edge comes from. -/
def cause (contacts : Contacts n) (edge : Edge n) : Nat :=
  match edge.origin with
  | .press => contacts.pressedAt edge.button edge.press
  | .release => contacts.releasedAt edge.button edge.press

/-- The edge can occur at this time. -/
def Bounces (contacts : Contacts n) (edge : Edge n) (time : Nat) : Prop :=
  contacts.cause edge ≤ time ∧ time ≤ contacts.cause edge + bounceWindow

instance (contacts : Contacts n) (edge : Edge n) (time : Nat) :
    Decidable (contacts.Bounces edge time) := by
  unfold Bounces
  infer_instance

theorem pressedAt_le_cause (contacts : Contacts n) (edge : Edge n) :
    contacts.pressedAt edge.button edge.press ≤ contacts.cause edge := by
  unfold cause
  split
  · exact Nat.le_refl _
  · exact contacts.held _ _

theorem cause_le_releasedAt (contacts : Contacts n) (edge : Edge n) :
    contacts.cause edge ≤ contacts.releasedAt edge.button edge.press := by
  unfold cause
  split
  · exact contacts.held _ _
  · exact Nat.le_refl _

end Contacts

/-! ## The sketch with its contacts -/

/-- `accepted` keeps the edges whose handler got through the filter. -/
structure Bouncing (n : Nat) where
  sketch : Sketch n
  accepted : List (Edge n)

inductive BounceLabel (n : Nat)
  | elapse (milliseconds : Nat)
  | edge (edge : Edge n) (between : Nat)
  | advance (connected : Bool)

namespace Bouncing

def start : Bouncing n := ⟨powerOn, []⟩

/-- Interrupts come only from edges; an edge is accepted when its handler leaves an event. -/
def step (contacts : Contacts n) (s : Bouncing n) : BounceLabel n → Option (Bouncing n)
  | .elapse milliseconds =>
    (s.sketch.step (.elapse milliseconds)).map fun sketch => { s with sketch }
  | .advance connected => (s.sketch.step (.advance connected)).map fun sketch => { s with sketch }
  | .edge edge between =>
    if contacts.Bounces edge s.sketch.now then
      (s.sketch.step (.interrupt edge.button between)).map fun sketch =>
        { sketch
          accepted := s.accepted ++
            if sketch.history.length = s.sketch.history.length then [] else [edge] }
    else none

/-- `millis() - last_pressed_at > minimal_delay` -/
def GateOpen (s : Bouncing n) : Prop := minimalDelay < s.sketch.millis - s.sketch.lastPressedAt

instance (s : Bouncing n) : Decidable s.GateOpen := by
  unfold GateOpen
  infer_instance

/-- How many edges of a press, and of the release that ends it, have been accepted. -/
def acceptedOf (i : Fin n) (press : Nat) (s : Bouncing n) : Nat :=
  s.accepted.countP fun edge => edge.button = i ∧ edge.press = press

/-- The edge of a release finds the gate open, and an edge of its press has been accepted. -/
def ReleaseTaken (s : Bouncing n) : BounceLabel n → Prop
  | .edge edge _ =>
    edge.origin = .release ∧ s.GateOpen ∧ 0 < s.acceptedOf edge.button edge.press
  | .elapse _ | .advance _ => False

instance (s : Bouncing n) : ∀ label, Decidable (s.ReleaseTaken label)
  | .edge edge _ =>
    inferInstanceAs (Decidable (edge.origin = .release ∧ s.GateOpen ∧
      0 < s.acceptedOf edge.button edge.press))
  | .elapse _ | .advance _ => inferInstanceAs (Decidable False)

/-! ## Steps -/

/-- What an edge does: it finds the gate open and is accepted, or nothing. -/
theorem step_edge {contacts : Contacts n} {s next : Bouncing n} {edge : Edge n} {between : Nat}
    (stepped : s.step contacts (.edge edge between) = some next) :
    contacts.Bounces edge s.sketch.now ∧
      ((s.GateOpen ∧ next.accepted = s.accepted ++ [edge] ∧ s.sketch.now ≤ next.sketch.now ∧
          next.sketch.lastPressedAt = counter next.sketch.now) ∨
        (¬ s.GateOpen ∧ next = s)) := by
  simp only [step] at stepped
  split at stepped
  case isFalse => cases stepped
  case isTrue bounces =>
    refine ⟨bounces, ?_⟩
    simp only [Sketch.step] at stepped
    split at stepped
    case isFalse => cases stepped
    case isTrue =>
      cases stepped
      by_cases gate : s.GateOpen
      case pos =>
        left
        refine ⟨gate, ?_⟩
        rw [GateOpen] at gate
        simp [interruptF, setPressedFlag, gate]
      case neg =>
        right
        refine ⟨gate, ?_⟩
        rw [GateOpen] at gate
        simp [interruptF, setPressedFlag, gate]

/-- A statement of the sketch leaves the stored time and the clock alone. -/
theorem advance_keeps (connected : Bool) (s : Sketch n) :
    (s.advance connected).lastPressedAt = s.lastPressedAt ∧ (s.advance connected).now = s.now := by
  unfold Sketch.advance
  cases s.pc with
  | attachInterrupt i =>
    dsimp only
    split <;> exact ⟨rfl, rfl⟩
  | wifiWait =>
    dsimp only
    split <;> exact ⟨rfl, rfl⟩
  | test i =>
    dsimp only
    split
    · split <;> exact ⟨rfl, rfl⟩
    · exact ⟨rfl, rfl⟩
  | _ => exact ⟨rfl, rfl⟩

/-- Every step lets time pass and keeps the accepted edges. -/
theorem step_mono {contacts : Contacts n} {s next : Bouncing n} {label : BounceLabel n}
    (stepped : s.step contacts label = some next) :
    s.sketch.now ≤ next.sketch.now ∧ s.accepted <+: next.accepted := by
  cases label with
  | elapse milliseconds =>
    cases stepped
    exact ⟨Nat.le_add_right _ _, List.prefix_rfl⟩
  | advance connected =>
    cases stepped
    exact ⟨Nat.le_of_eq (advance_keeps connected s.sketch).2.symm, List.prefix_rfl⟩
  | edge edge between =>
    rcases (step_edge stepped).2 with ⟨-, accepted, later, -⟩ | ⟨-, rfl⟩
    · rw [accepted]
      exact ⟨later, List.prefix_append _ _⟩
    · exact ⟨Nat.le_refl _, List.prefix_rfl⟩

theorem acceptedOf_mono {contacts : Contacts n} {s next : Bouncing n} {label : BounceLabel n}
    (stepped : s.step contacts label = some next) (i : Fin n) (press : Nat) :
    s.acceptedOf i press ≤ next.acceptedOf i press :=
  (step_mono stepped).2.sublist.countP_le

/-! ## The filter -/

/-- The time of the last accepted edge is stored; no accepted edge has its cause later. -/
structure Clocked (contacts : Contacts n) (s : Bouncing n) : Prop where
  stored : ∃ last, s.sketch.lastPressedAt = counter last ∧ last ≤ s.sketch.now ∧
    ∀ edge ∈ s.accepted, contacts.cause edge ≤ last

theorem clocked_start (contacts : Contacts n) : Clocked contacts start where
  stored := ⟨0, rfl, Nat.le_refl 0, fun edge member => by cases member⟩

theorem Clocked.step {contacts : Contacts n} {s next : Bouncing n} (clocked : Clocked contacts s)
    {label : BounceLabel n} (stepped : s.step contacts label = some next) :
    Clocked contacts next := by
  obtain ⟨last, stored, past, causes⟩ := clocked.stored
  cases label with
  | elapse milliseconds =>
    cases stepped
    exact ⟨last, stored, past.trans (Nat.le_add_right _ _), causes⟩
  | advance connected =>
    cases stepped
    obtain ⟨keptStored, keptNow⟩ := advance_keeps connected s.sketch
    exact ⟨last, keptStored.trans stored, past.trans (Nat.le_of_eq keptNow.symm), causes⟩
  | edge edge between =>
    obtain ⟨bounces, effect⟩ := step_edge stepped
    rcases effect with ⟨-, accepted, later, shown⟩ | ⟨-, rfl⟩
    · refine ⟨next.sketch.now, shown, Nat.le_refl _, fun known member => ?_⟩
      rw [accepted, List.mem_append, List.mem_singleton] at member
      rcases member with old | rfl
      · exact ((causes known old).trans past).trans later
      · exact bounces.1.trans later
    · exact clocked

/-- An edge that is let through comes more than the delay after the cause of every edge
    accepted before. -/
theorem Clocked.passed {contacts : Contacts n} {s : Bouncing n} (clocked : Clocked contacts s)
    (gate : s.GateOpen) {edge : Edge n} (accepted : edge ∈ s.accepted) :
    contacts.cause edge + 2000 < s.sketch.now := by
  obtain ⟨last, stored, past, causes⟩ := clocked.stored
  rw [GateOpen, stored] at gate
  have passed := delay_passed past gate
  have delay : minimalDelay.toNat = 2000 := rfl
  have cause := causes edge accepted
  omega

/-- Once an edge of a press has been accepted, none is let through within the delay from
    the press on. -/
theorem Clocked.passed_press {contacts : Contacts n} {s : Bouncing n}
    (clocked : Clocked contacts s) (gate : s.GateOpen) {i : Fin n} {press : Nat}
    (before : 0 < s.acceptedOf i press) : contacts.pressedAt i press + 2000 < s.sketch.now := by
  obtain ⟨earlier, accepted, same⟩ := List.countP_pos_iff.mp before
  simp only [decide_eq_true_eq] at same
  have passed := clocked.passed gate accepted
  have pressed := contacts.pressedAt_le_cause earlier
  rw [same.1, same.2] at pressed
  exact Nat.lt_of_le_of_lt (Nat.add_le_add_right pressed 2000) passed

/-- Of the edges of one press and its release, the bounces of a press are never let
    through after another one of them. -/
theorem Clocked.taken_is_release {contacts : Contacts n} {s : Bouncing n}
    (clocked : Clocked contacts s) {edge : Edge n} (bounces : contacts.Bounces edge s.sketch.now)
    (gate : s.GateOpen) (before : 0 < s.acceptedOf edge.button edge.press) :
    edge.origin = .release := by
  have passed := clocked.passed_press gate before
  cases origin : edge.origin with
  | release => rfl
  | press =>
    have cause : contacts.cause edge = contacts.pressedAt edge.button edge.press := by
      rw [Contacts.cause, origin]
    have window := bounces.2
    have short : bounceWindow = 50 := rfl
    omega

/-- At most one edge of every press and the release that ends it has been accepted. -/
def AcceptedOnce (s : Bouncing n) : Prop := ∀ i press, s.acceptedOf i press ≤ 1

theorem acceptedOf_of_open {contacts : Contacts n} {s next : Bouncing n} {edge : Edge n}
    {between : Nat} (stepped : s.step contacts (.edge edge between) = some next)
    (gate : s.GateOpen) (i : Fin n) (press : Nat) :
    next.acceptedOf i press =
      s.acceptedOf i press + if edge.button = i ∧ edge.press = press then 1 else 0 := by
  rcases (step_edge stepped).2 with ⟨-, accepted, -, -⟩ | ⟨closed, -⟩
  · rw [acceptedOf, accepted, List.countP_append, List.countP_singleton]
    simp [acceptedOf]
  · exact absurd gate closed

theorem Clocked.once {contacts : Contacts n} {s next : Bouncing n} (clocked : Clocked contacts s)
    {label : BounceLabel n} (stepped : s.step contacts label = some next)
    (notTaken : ¬ s.ReleaseTaken label) (once : AcceptedOnce s) : AcceptedOnce next := by
  cases label with
  | elapse milliseconds =>
    cases stepped
    exact once
  | advance connected =>
    cases stepped
    exact once
  | edge edge between =>
    obtain ⟨bounces, effect⟩ := step_edge stepped
    rcases effect with ⟨gate, -, -, -⟩ | ⟨-, rfl⟩
    · intro i press
      rw [acceptedOf_of_open stepped gate]
      split
      case isFalse => exact once i press
      case isTrue same =>
        obtain ⟨rfl, rfl⟩ := same
        -- another accepted edge of this press would make it the edge of a release
        rcases Nat.eq_zero_or_pos (s.acceptedOf edge.button edge.press) with none | before
        · rw [none]
        · exact absurd ⟨clocked.taken_is_release bounces gate before, gate, before⟩ notTaken
    · exact once

end Bouncing

open Bouncing

/-- Where every button is released within 1950 ms, every press is accepted at most once. -/
theorem acceptedOnce_of_short_holds (contacts : Contacts n)
    (short : ∀ i press, contacts.releasedAt i press ≤ contacts.pressedAt i press + 1950)
    (labels : List (BounceLabel n)) (s : Bouncing n)
    (reached : run (Bouncing.step contacts) Bouncing.start labels = some s) : AcceptedOnce s := by
  have both : Clocked contacts s ∧ AcceptedOnce s := by
    refine run_invariant (fun s => Clocked contacts s ∧ AcceptedOnce s)
      ⟨clocked_start contacts, fun i press => Nat.zero_le _⟩ ?_ reached
    rintro s label next ⟨clocked, once⟩ stepped
    refine ⟨clocked.step stepped, clocked.once stepped ?_ once⟩
    cases label with
    | elapse milliseconds => exact id
    | advance connected => exact id
    | edge edge between =>
      rintro ⟨-, gate, before⟩
      -- the gate is closed for two seconds from the press on, longer than the release bounces
      have passed := clocked.passed_press gate before
      have released := contacts.cause_le_releasedAt edge
      have window := (step_edge stepped).1.2
      have hold := short edge.button edge.press
      have width : bounceWindow = 50 := rfl
      omega
  exact both.2

/-- In every run: every press has at most one accepted edge, if and only if no edge of a
    release finds the gate open once an edge of its press has been accepted. -/
theorem accepted_once_iff (contacts : Contacts n) (labels : List (BounceLabel n)) (s : Bouncing n)
    (reached : run (Bouncing.step contacts) Bouncing.start labels = some s) :
    AcceptedOnce s ↔
      Along (Bouncing.step contacts) (fun s label => ¬ s.ReleaseTaken label) Bouncing.start
        labels := by
  constructor
  · intro once
    -- a second accepted edge stays accepted
    refine along_of_unspoilt (fun s => ∃ i press, 1 < s.acceptedOf i press) ?_ ?_ reached ?_
    · rintro s label next ⟨i, press, twice⟩ stepped
      exact ⟨i, press, Nat.lt_of_lt_of_le twice (acceptedOf_mono stepped i press)⟩
    · intro s label next taken stepped
      cases label with
      | elapse milliseconds => exact absurd id taken
      | advance connected => exact absurd id taken
      | edge edge between =>
        obtain ⟨-, gate, before⟩ := not_not.mp taken
        refine ⟨edge.button, edge.press, ?_⟩
        rw [acceptedOf_of_open stepped gate, if_pos ⟨rfl, rfl⟩]
        omega
    · rintro ⟨i, press, twice⟩
      exact absurd (once i press) (Nat.not_le_of_lt twice)
  · intro along
    have both : Clocked contacts s ∧ AcceptedOnce s := by
      refine run_invariant_along (fun s => Clocked contacts s ∧ AcceptedOnce s) ?_
        ⟨clocked_start contacts, fun i press => Nat.zero_le _⟩ along reached
      rintro s label next notTaken ⟨clocked, once⟩ stepped
      exact ⟨clocked.step stepped, clocked.once stepped notTaken once⟩
    exact both.2

/-- Buttons are pressed and released 300 ms later. -/
def tapped : Contacts n where
  pressedAt _ press := 3000 + 10000 * press
  releasedAt _ press := 3300 + 10000 * press
  held _ _ := by omega
  apart _ _ := by omega

/-- A switch with one button starts; the first press bounces twice, its release once. -/
def tappedLabels (i : Fin n) : List (BounceLabel n) :=
  [.advance false, .advance false, .elapse 3000, .edge ⟨i, 0, .press⟩ 1, .elapse 20,
    .edge ⟨i, 0, .press⟩ 1, .elapse 290, .edge ⟨i, 0, .release⟩ 1]

theorem accepted_once_tapped :
    ∃ s : Bouncing 1, run (Bouncing.step tapped) Bouncing.start (tappedLabels 0) = some s ∧
      AcceptedOnce s := by
  obtain ⟨s, reached⟩ :
      ∃ s : Bouncing 1, run (Bouncing.step tapped) Bouncing.start (tappedLabels 0) = some s :=
    ⟨_, rfl⟩
  exact ⟨s, reached, (accepted_once_iff tapped (tappedLabels 0) s reached).mpr (by decide)⟩

/-- Buttons are held for three seconds. -/
def heldLong : Contacts n where
  pressedAt _ press := 3000 + 10000 * press
  releasedAt _ press := 6000 + 10000 * press
  held _ _ := by omega
  apart _ _ := by omega

/-- A round of the loop after each edge. -/
def heldLongLabels (i : Fin n) : List (BounceLabel n) :=
  [.advance false, .advance false, .elapse 3000, .edge ⟨i, 0, .press⟩ 1] ++
    List.replicate 7 (.advance true) ++ [.elapse 3009, .edge ⟨i, 0, .release⟩ 1] ++
    List.replicate 7 (.advance true)

/-- The bounce of the release is accepted as well, and sends a second request. -/
theorem release_accepted :
    ∃ s : Bouncing 1, run (Bouncing.step heldLong) Bouncing.start (heldLongLabels 0) = some s ∧
      ¬ AcceptedOnce s ∧ requests 0 s.sketch = 2 := by
  obtain ⟨s, reached, twice, sent⟩ : ∃ s : Bouncing 1,
      run (Bouncing.step heldLong) Bouncing.start (heldLongLabels 0) = some s ∧
        s.acceptedOf 0 0 = 2 ∧ requests 0 s.sketch = 2 := ⟨_, rfl, rfl, rfl⟩
  refine ⟨s, reached, fun once => ?_, sent⟩
  have bound := once 0 0
  omega

end HomeAutomation.WifiSwitch
