import HomeAutomation.Lib.History
import HomeAutomation.Lib.Transition
import HomeAutomation.OpenHab.Items

/-! # The rule "Virtual_Switch_5"

The smart switch: dark lights come on; otherwise the day lights go off, and a timer
that switches off everything is created; a switch in the meantime cancels it.  Every
execution is atomic, and its commands have arrived before the next step.

The history keeps the executions and the expiries.  `Tidy` says that a timer is
pending exactly as long as its creation is the last event; so no timer is orphaned.
-/

namespace HomeAutomation.OpenHab

open HomeAutomation.Lib.History HomeAutomation.Lib.Transition

variable {Item : Type*}

/-! ## The rule -/

structure LightGroups (Item : Type*) where
  lights : Group Item
  dayLights : Group Item
  nightLights : Group Item
  smartSwitchDefaultLights : Group Item
  defaultLights_subset : smartSwitchDefaultLights.members ⊆ lights.members
  defaultLights_disjoint : ∀ item ∈ smartSwitchDefaultLights.members, item ∉ dayLights.members

/-- The script of this name. -/
def turnOnDefaultLights (groups : LightGroups Item) (states : Item → SwitchState) :
    List (Item × OnOff) :=
  sendAll (groups.smartSwitchDefaultLights.inState states .off) .on

/-- What an execution does with `virtual_switch_off_timer`. -/
inductive TimerUse
  | keep
  | cancel (timer : Nat)
  | create
  deriving DecidableEq

structure Execution (Item : Type*) where
  commands : List (Item × OnOff)
  sound : Option String
  timer : TimerUse
  deriving DecidableEq

/-- `running` is the timer in the variable, if it is not null and has not terminated. -/
def virtualSwitch5 (groups : LightGroups Item) (running : Option Nat)
    (states : Item → SwitchState) : Execution Item :=
  match running with
  | some timer => ⟨turnOnDefaultLights groups states, some "Beep_Negative.mp3", .cancel timer⟩
  | none =>
    if (groups.lights.inState states .on).isEmpty then
      ⟨sendAll groups.smartSwitchDefaultLights.members .on, none, .keep⟩
    else
      -- a light for the night, before the day lights go off
      let nightCommands :=
        if (groups.nightLights.inState states .on).isEmpty then turnOnDefaultLights groups states
        else []
      ⟨nightCommands ++ sendAll (groups.dayLights.inState states .on) .off, some "Bleep.mp3",
        .create⟩

/-- What the timer does when it expires. -/
def switchOff (groups : LightGroups Item) (states : Item → SwitchState) : List (Item × OnOff) :=
  sendAll (groups.lights.inState states .on) .off

/-- The lights of the home and their groups. -/
inductive Light
  | light1
  | light2
  | light3
  | light4
  deriving DecidableEq

def mainLights : LightGroups Light where
  lights := ⟨[.light1, .light2, .light3, .light4], by decide⟩
  dayLights := ⟨[.light1, .light2], by decide⟩
  nightLights := ⟨[.light3, .light4], by decide⟩
  smartSwitchDefaultLights := ⟨[.light4], by decide⟩
  defaultLights_subset := by decide
  defaultLights_disjoint := by decide

/-! ## Timers -/

inductive TimerStatus
  | pending
  | cancelled
  | terminated
  deriving DecidableEq

structure Timer where
  created : Nat
  status : TimerStatus
  deriving DecidableEq

def Timer.hasTerminated (timer : Timer) : Bool := timer.status = .terminated

/-- `now.plusMinutes(5)`, in milliseconds. -/
def Timer.deadline (timer : Timer) : Nat := timer.created + 5 * 60 * 1000

/-- `executed` names the timer that was cancelled and the one that was created. -/
inductive NightEvent
  | executed (time : Nat) (cancelled created : Option Nat)
  | expired (timer : Nat) (time : Nat)
  deriving DecidableEq

/-- A timer is named by its place among all timers ever created. -/
structure NightMode (Item : Type*) where
  lights : Item → SwitchState
  timers : List Timer
  virtualSwitchOffTimer : Option Nat
  now : Nat
  history : List NightEvent

inductive NightLabel (Item : Type*)
  | elapse (milliseconds : Nat)
  | outside (item : Item) (state : SwitchState)
  | execute
  | expire (timer : Nat)

namespace NightMode

def start (lights : Item → SwitchState) : NightMode Item where
  lights
  timers := []
  virtualSwitchOffTimer := none
  now := 0
  history := []

def Pending (timer : Nat) (s : NightMode Item) : Prop :=
  ∃ created, s.timers[timer]? = some ⟨created, .pending⟩

/-- `virtual_switch_off_timer != null && !virtual_switch_off_timer.hasTerminated` -/
def running (s : NightMode Item) : Option Nat :=
  s.virtualSwitchOffTimer.filter fun timer => (s.timers[timer]?).any (!·.hasTerminated)

def setStatus (timer : Nat) (status : TimerStatus) (s : NightMode Item) : NightMode Item :=
  { s with timers := s.timers.modify timer fun known => { known with status } }

theorem refers_of_running {s : NightMode Item} {timer : Nat} (running : s.running = some timer) :
    s.virtualSwitchOffTimer = some timer :=
  (Option.filter_eq_some_iff.mp running).1

theorem running_of_pending {s : NightMode Item} {timer : Nat} (pending : s.Pending timer)
    (refers : s.virtualSwitchOffTimer = some timer) : s.running = some timer := by
  obtain ⟨created, found⟩ := pending
  simp [running, refers, found, Timer.hasTerminated]

/-- After its status has changed, the other timers are as before. -/
theorem pending_setStatus {s : NightMode Item} {timer other created : Nat} {status : TimerStatus}
    (ended : status ≠ .pending)
    (pending : (s.setStatus timer status).timers[other]? = some ⟨created, .pending⟩) :
    timer ≠ other ∧ s.timers[other]? = some ⟨created, .pending⟩ := by
  simp only [setStatus, List.getElem?_modify] at pending
  by_cases same : timer = other
  · subst same
    obtain ⟨known, -, wrong⟩ := Option.map_eq_some_iff.mp pending
    rw [if_pos rfl] at wrong
    exact absurd (congrArg Timer.status wrong) ended
  · refine ⟨same, ?_⟩
    simpa [same] using pending

section Steps

variable [DecidableEq Item]

/-- One execution of the rule, its commands applied. -/
def execute (groups : LightGroups Item) (s : NightMode Item) : NightMode Item :=
  let execution := virtualSwitch5 groups s.running s.lights
  let s := { s with lights := receive s.lights execution.commands }
  match execution.timer with
  | .keep => { s with history := s.history ++ [.executed s.now none none] }
  | .cancel timer =>
    { s.setStatus timer .cancelled with
      virtualSwitchOffTimer := none
      history := s.history ++ [.executed s.now (some timer) none] }
  | .create =>
    { s with
      timers := s.timers ++ [⟨s.now, .pending⟩]
      virtualSwitchOffTimer := some s.timers.length
      history := s.history ++ [.executed s.now none (some s.timers.length)] }

def expire (groups : LightGroups Item) (timer : Nat) (s : NightMode Item) : NightMode Item :=
  { s.setStatus timer .terminated with
    lights := receive s.lights (switchOff groups s.lights)
    history := s.history ++ [.expired timer s.now] }

/-- Time does not pass the deadline of a pending timer before the timer has expired. -/
def step (groups : LightGroups Item) (s : NightMode Item) :
    NightLabel Item → Option (NightMode Item)
  | .elapse milliseconds =>
    if ∀ timer ∈ s.timers, timer.status = .pending → s.now + milliseconds ≤ timer.deadline then
      some { s with now := s.now + milliseconds }
    else none
  | .outside item state => some { s with lights := Function.update s.lights item state }
  | .execute => some (s.execute groups)
  | .expire timer =>
    match s.timers[timer]? with
    | some known =>
      if known.status = .pending ∧ s.now = known.deadline then some (s.expire groups timer)
      else none
    | none => none

end Steps

end NightMode

/-! ## The invariant -/

open NightMode

def Allowed (before : List NightEvent) : NightEvent → Prop
  | .expired timer time =>
    ∃ created, before.getLast? = some (.executed created none (some timer)) ∧
      time = created + 5 * 60 * 1000
  | .executed _ cancelled created =>
    ∀ past other timer, before.getLast? = some (.executed past other (some timer)) →
      cancelled = some timer ∧ created = none

structure Tidy (s : NightMode Item) : Prop where
  pending : ∀ timer created, s.timers[timer]? = some ⟨created, .pending⟩ →
    s.virtualSwitchOffTimer = some timer ∧
      s.history.getLast? = some (.executed created none (some timer))
  created : ∀ time other timer, s.history.getLast? = some (.executed time other (some timer)) →
    s.timers[timer]? = some ⟨time, .pending⟩
  guarded : Guarded Allowed s.history

theorem tidy_start (lights : Item → SwitchState) : Tidy (start lights) where
  pending _ _ wrong := by simp [start] at wrong
  created _ _ _ wrong := by cases wrong
  guarded := guarded_nil Allowed

section Steps

variable {s : NightMode Item}

/-- Steps that leave the timers alone. -/
theorem Tidy.untouched (tidy : Tidy s) (lights : Item → SwitchState) (now : Nat) :
    Tidy { s with lights, now } :=
  ⟨tidy.pending, tidy.created, tidy.guarded⟩

theorem Tidy.not_pending (tidy : Tidy s) (idle : s.running = none) (timer : Nat) :
    ¬ s.Pending timer := by
  rintro ⟨created, found⟩
  have running := running_of_pending ⟨created, found⟩ (tidy.pending timer created found).1
  rw [idle] at running
  cases running

/-- While no timer is pending, the last event did not create one. -/
theorem Tidy.not_created (tidy : Tidy s) (idle : s.running = none) (time : Nat)
    (other : Option Nat) (timer : Nat) :
    s.history.getLast? ≠ some (.executed time other (some timer)) :=
  fun last => tidy.not_pending idle timer ⟨time, tidy.created time other timer last⟩

theorem Tidy.keep (tidy : Tidy s) (idle : s.running = none) (lights : Item → SwitchState) :
    Tidy { s with lights, history := s.history ++ [.executed s.now none none] } where
  pending timer created found := absurd ⟨created, found⟩ (tidy.not_pending idle timer)
  created time other timer last := by
    rw [List.getLast?_concat] at last
    cases last
  guarded := guarded_snoc tidy.guarded fun time other timer last =>
    absurd last (tidy.not_created idle time other timer)

theorem Tidy.create (tidy : Tidy s) (idle : s.running = none) (lights : Item → SwitchState) :
    Tidy { s with
      lights
      timers := s.timers ++ [⟨s.now, .pending⟩]
      virtualSwitchOffTimer := some s.timers.length
      history := s.history ++ [.executed s.now none (some s.timers.length)] } where
  pending timer created found := by
    -- the only pending timer is the one just created
    rcases Nat.lt_trichotomy timer s.timers.length with old | rfl | beyond
    · rw [List.getElem?_append_left old] at found
      exact absurd ⟨created, found⟩ (tidy.not_pending idle timer)
    · rw [List.getElem?_concat_length] at found
      cases found
      exact ⟨rfl, List.getLast?_concat⟩
    · rw [List.getElem?_eq_none (by simp; omega)] at found
      cases found
  created time other timer last := by
    rw [List.getLast?_concat] at last
    cases last
    exact List.getElem?_concat_length
  guarded := guarded_snoc tidy.guarded fun time other timer last =>
    absurd last (tidy.not_created idle time other timer)

theorem Tidy.cancel (tidy : Tidy s) {timer : Nat} (running : s.running = some timer)
    (lights : Item → SwitchState) :
    Tidy { s.setStatus timer .cancelled with
      lights
      virtualSwitchOffTimer := none
      history := s.history ++ [.executed s.now (some timer) none] } where
  pending other created found := by
    -- the cancelled timer was the only pending one
    obtain ⟨differs, before⟩ := pending_setStatus TimerStatus.noConfusion found
    have refers := (tidy.pending other created before).1
    rw [refers_of_running running] at refers
    exact absurd (Option.some.inj refers) differs
  created time other timer last := by
    rw [List.getLast?_concat] at last
    cases last
  guarded := by
    refine guarded_snoc tidy.guarded fun time other created last => ⟨?_, rfl⟩
    have found := tidy.created time other created last
    rw [← refers_of_running running]
    exact (tidy.pending created time found).1

variable [DecidableEq Item]

theorem Tidy.expire (tidy : Tidy s) {timer : Nat} {known : Timer}
    (found : s.timers[timer]? = some known) (pending : known.status = .pending)
    (due : s.now = known.deadline) (groups : LightGroups Item) : Tidy (s.expire groups timer) := by
  obtain ⟨created, status⟩ := known
  cases pending
  obtain ⟨refers, creation⟩ := tidy.pending timer created found
  refine ⟨fun other time before => ?_, fun time other named last => ?_, ?_⟩
  · -- the expired timer was the only pending one
    obtain ⟨differs, before⟩ := pending_setStatus TimerStatus.noConfusion before
    have named := (tidy.pending other time before).1
    rw [refers] at named
    exact absurd (Option.some.inj named) differs
  · rw [NightMode.expire, List.getLast?_concat] at last
    cases last
  · exact guarded_snoc tidy.guarded ⟨created, creation, due⟩

theorem Tidy.execute (tidy : Tidy s) (groups : LightGroups Item) : Tidy (s.execute groups) := by
  unfold NightMode.execute
  cases running : s.running with
  | some timer => exact tidy.cancel running _
  | none =>
    by_cases dark : (groups.lights.inState s.lights .on).isEmpty
    · simp only [virtualSwitch5, if_pos dark]
      exact tidy.keep running _
    · simp only [virtualSwitch5, if_neg dark]
      exact tidy.create running _

theorem Tidy.step (tidy : Tidy s) {groups : LightGroups Item} {label : NightLabel Item}
    {next : NightMode Item} (stepped : s.step groups label = some next) : Tidy next := by
  cases label with
  | elapse milliseconds =>
    simp only [NightMode.step] at stepped
    split at stepped
    · cases stepped
      exact tidy.untouched s.lights _
    · cases stepped
  | outside item state =>
    cases stepped
    exact tidy.untouched _ s.now
  | execute =>
    cases stepped
    exact tidy.execute groups
  | expire timer =>
    simp only [NightMode.step] at stepped
    split at stepped
    case h_1 known found =>
      split at stepped
      case isTrue due =>
        cases stepped
        exact tidy.expire found due.1 due.2 groups
      case isFalse => cases stepped
    case h_2 => cases stepped

end Steps

/-! ## Night mode -/

variable [DecidableEq Item]

/-- An execution that finds a timer pending cancels it, creates none, and turns on the
    default lights that are off. -/
theorem execute_of_pending {s : NightMode Item} (tidy : Tidy s) (groups : LightGroups Item)
    {timer : Nat} (pending : s.Pending timer) :
    ∃ created, (s.execute groups).timers = s.timers.set timer ⟨created, .cancelled⟩ ∧
      (s.execute groups).virtualSwitchOffTimer = none ∧
      (∀ other, ¬ (s.execute groups).Pending other) ∧
      (s.execute groups).lights = receive s.lights (turnOnDefaultLights groups s.lights) := by
  obtain ⟨created, found⟩ := pending
  have running : s.running = some timer :=
    running_of_pending ⟨created, found⟩ (tidy.pending timer created found).1
  have cleared : (s.execute groups).virtualSwitchOffTimer = none := by
    simp only [NightMode.execute, running, virtualSwitch5]
  refine ⟨created, ?_, cleared, ?_, ?_⟩
  · simp only [NightMode.execute, running, virtualSwitch5, setStatus]
    rw [List.modify_eq_set_getElem?, found]
    rfl
  · rintro other ⟨time, foundOther⟩
    have refers := ((tidy.execute groups).pending other time foundOther).1
    rw [cleared] at refers
    cases refers
  · simp only [NightMode.execute, running, virtualSwitch5, setStatus]

/-- In every reachable state at most one timer is pending, and the variable refers to
    it; a timer expires exactly five minutes after its creation, with no execution in
    between; of two executions in a row at most one creates a timer; and an execution
    that finds a timer pending cancels it. -/
theorem night_timer (groups : LightGroups Item) (lights : Item → SwitchState)
    (labels : List (NightLabel Item)) (s : NightMode Item)
    (reached : run (NightMode.step groups) (start lights) labels = some s) :
    (∀ timer, s.Pending timer → s.virtualSwitchOffTimer = some timer) ∧
    (∀ timer other, s.Pending timer → s.Pending other → timer = other) ∧
    (∀ before timer time after, s.history = before ++ .expired timer time :: after →
      ∃ earlier created, before = earlier ++ [.executed created none (some timer)] ∧
        time = created + 5 * 60 * 1000) ∧
    (∀ before first cancelled created second otherCancelled otherCreated after,
      s.history = before ++ .executed first cancelled created ::
        .executed second otherCancelled otherCreated :: after →
      created = none ∨ otherCreated = none) ∧
    ∀ timer, s.Pending timer →
      ∃ created, (s.execute groups).timers = s.timers.set timer ⟨created, .cancelled⟩ ∧
        (s.execute groups).virtualSwitchOffTimer = none ∧
        (∀ other, ¬ (s.execute groups).Pending other) ∧
        (s.execute groups).lights = receive s.lights (turnOnDefaultLights groups s.lights) := by
  have tidy : Tidy s :=
    run_invariant Tidy (tidy_start lights) (fun _ _ _ tidy stepped => tidy.step stepped) reached
  have refers : ∀ timer, s.Pending timer → s.virtualSwitchOffTimer = some timer := by
    rintro timer ⟨created, found⟩
    exact (tidy.pending timer created found).1
  refine ⟨refers, fun timer other first second => ?_, ?_, ?_, ?_⟩
  · exact Option.some.inj ((refers timer first).symm.trans (refers other second))
  · intro before timer time after split
    obtain ⟨created, last, due⟩ := tidy.guarded before _ after split
    obtain ⟨earlier, ends⟩ := List.getLast?_eq_some_iff.mp last
    exact ⟨earlier, created, ends, due⟩
  · intro before first cancelled created second otherCancelled otherCreated after split
    cases created with
    | none => exact Or.inl rfl
    | some timer =>
      have regrouped : s.history = (before ++ [.executed first cancelled (some timer)]) ++
          .executed second otherCancelled otherCreated :: after := by simpa using split
      have allowed := tidy.guarded _ _ after regrouped
      exact Or.inr (allowed first cancelled timer List.getLast?_concat).2
  · exact fun timer pending => execute_of_pending tidy groups pending

/-- With a day light on, the switch is used, and a minute later twice; its second timer expires,
    and with a light that somebody has switched on it is used again. -/
def usedAgain : Option (NightMode Light) :=
  run (NightMode.step mainLights) (start fun light => if light = .light1 then .on else .off)
    [.execute, .elapse 60000, .outside .light2 .on, .execute, .execute, .elapse 300000, .expire 1,
      .outside .light1 .on, .execute]

theorem night_timer_usedAgain :
    ∃ s, usedAgain = some s ∧
      s.history = [.executed 0 none (some 0), .executed 60000 (some 0) none,
        .executed 60000 none (some 1), .expired 1 360000, .executed 360000 none (some 2)] ∧
      s.Pending 2 ∧ s.virtualSwitchOffTimer = some 2 ∧
      (∃ earlier created, s.history.take 3 = earlier ++ [.executed created none (some 1)] ∧
        360000 = created + 5 * 60 * 1000) ∧
      ∀ other, ¬ (s.execute mainLights).Pending other := by
  obtain ⟨s, reached, history, pending⟩ : ∃ s, usedAgain = some s ∧
      s.history = [.executed 0 none (some 0), .executed 60000 (some 0) none,
        .executed 60000 none (some 1), .expired 1 360000, .executed 360000 none (some 2)] ∧
      s.Pending 2 := ⟨_, rfl, rfl, 360000, rfl⟩
  obtain ⟨refers, -, expired, -, cancels⟩ := night_timer mainLights _ _ s reached
  obtain ⟨created, -, -, nonePending, -⟩ := cancels 2 pending
  refine ⟨s, reached, history, pending, refers 2 pending, ?_, nonePending⟩
  apply expired (s.history.take 3) 1 360000 [.executed 360000 none (some 2)]
  rw [history]
  rfl

end HomeAutomation.OpenHab
