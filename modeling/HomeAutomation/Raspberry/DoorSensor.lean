import HomeAutomation.Lib.Transition
import Mathlib.Algebra.Group.Nat.Even

/-! # The door sensor

The script on the Raspberry Pi has the GPIO library call `change_door_state` at the edges
of the door contact; the callback reads the pin when it runs, and sends what it read.
The library ignores an edge that comes within the bounce time of the last one it acted
on.  So the reported state is right as long as no edge is ignored once the last callback
has read the pin, or an even number of them.

Of the library only the filter, the order of the callbacks and the late read of the pin
are modelled; every request to the server succeeds, and the log is left out.
-/

namespace HomeAutomation.Raspberry

open HomeAutomation.Lib.Transition

/-! ## The script -/

def openhabHost : String := "192.168.2.2"
def openhabPort : Nat := 8080
def openhabUrl : String := "http://" ++ openhabHost ++ ":" ++ toString openhabPort ++ "/"

/-- GPIO pins and the names of their items. -/
def buttons : List (Nat × String) :=
  [(4, "Virtual_Switch_1"), (17, "Virtual_Switch_2"), (18, "Virtual_Switch_3"),
    (27, "Virtual_Switch_4")]
def switches : List (Nat × String) := [(24, "Virtual_Switch_5")]
def doorSensors : List (Nat × String) := [(22, "Door_Main")]

/-- The last table that has the pin decides; a pin in none of them is an error. -/
def itemNameBy (pinNumber : Nat) : Option String :=
  (doorSensors.lookup pinNumber).or ((switches.lookup pinNumber).or (buttons.lookup pinNumber))

/-- `requests.put(url, data=state)` -/
structure Put where
  url : String
  data : String
  deriving DecidableEq

def stateText (value : Bool) : String := if value then "OPEN" else "CLOSED"

/-- `value` is what `GPIO.input` has returned. -/
def changeDoorState (pinNumber : Nat) (value : Bool) : Option Put :=
  (itemNameBy pinNumber).map fun name =>
    ⟨openhabUrl ++ "rest/items/" ++ name ++ "/state", stateText value⟩

inductive GpioEvent
  | falling
  | both
  deriving DecidableEq

inductive Callback
  | sendHttpToggleToOpenhab
  | changeDoorState
  deriving DecidableEq

/-- The arguments of `GPIO.add_event_detect`. -/
structure Detection where
  pinNumber : Nat
  event : GpioEvent
  callback : Callback
  bouncetime : Nat
  deriving DecidableEq

def addCallback (pinNumber : Nat) (method : Callback) (event : GpioEvent) (bounce : Nat) :
    Detection :=
  ⟨pinNumber, event, method, bounce⟩

/-- The loop over `DOOR_SENSORS`. -/
def doorDetections : List Detection :=
  doorSensors.map fun (pinNumber, _) => addCallback pinNumber .changeDoorState .both 300

/-! ## The contact and its callbacks -/

/-- `waiting` callbacks have not read the pin yet; `running` holds what the one under way
    has read.  `ignored` counts the edges that called no callback since the pin was last
    read. -/
structure Door where
  high : Bool
  now : Nat
  lastEdge : Option Nat
  lastInvoking : Option Nat
  waiting : Nat
  running : Option Bool
  sent : List Put
  ignored : Nat

inductive DoorLabel
  | elapse (milliseconds : Nat)
  | edge
  | read
  | send
  deriving DecidableEq

namespace Door

def start (high : Bool) : Door where
  high
  now := 0
  lastEdge := none
  lastInvoking := none
  waiting := 0
  running := none
  sent := []
  ignored := 0

/-- The next edge calls the callback. -/
def Invokes (detection : Detection) (s : Door) : Prop :=
  (detection.event = .falling → s.high = true) ∧
    ∀ time ∈ s.lastInvoking, time + detection.bouncetime < s.now

instance (detection : Detection) (s : Door) : Decidable (s.Invokes detection) := by
  unfold Invokes
  infer_instance

/-- The contact opens or closes. -/
def edge (detection : Detection) (s : Door) : Door :=
  if s.Invokes detection then
    { s with
      high := !s.high
      lastEdge := some s.now
      lastInvoking := some s.now
      waiting := s.waiting + 1 }
  else { s with high := !s.high, lastEdge := some s.now, ignored := s.ignored + 1 }

/-- Callbacks run one at a time: the next one reads the pin when none is under way. -/
def step (detection : Detection) (s : Door) : DoorLabel → Option Door
  | .elapse milliseconds => some { s with now := s.now + milliseconds }
  | .edge => some (s.edge detection)
  | .read =>
    match s.running, s.waiting with
    | none, waiting + 1 => some { s with waiting, running := some s.high, ignored := 0 }
    | _, _ => none
  | .send =>
    match s.running with
    | some value =>
      some { s with
        running := none
        sent := s.sent ++ (changeDoorState detection.pinNumber value).toList }
    | none => none

/-- What the callback does when it reads the pin. -/
theorem step_read {detection : Detection} {s next : Door}
    (stepped : s.step detection .read = some next) :
    next = { s with waiting := s.waiting - 1, running := some s.high, ignored := 0 } := by
  simp only [step] at stepped
  split at stepped
  case h_1 waiting =>
    cases stepped
    simp [waiting]
  case h_2 => cases stepped

/-- What the callback does with the value it has read. -/
theorem step_send {detection : Detection} {s next : Door}
    (stepped : s.step detection .send = some next) :
    ∃ value, s.running = some value ∧ next =
      { s with
        running := none
        sent := s.sent ++ (changeDoorState detection.pinNumber value).toList } := by
  simp only [step] at stepped
  split at stepped
  case h_1 value running =>
    cases stepped
    exact ⟨value, running, rfl⟩
  case h_2 => cases stepped

/-- A callback has completed, none is outstanding, and the contact is stable. -/
structure AtRest (s : Door) : Prop where
  completed : s.sent ≠ []
  waiting : s.waiting = 0
  running : s.running = none
  stable : ∀ time ∈ s.lastEdge, time + 300 < s.now

/-! ## What was read last -/

/-- Once no callback is waiting to read the pin, what was read last is the level of the
    contact if an even number of edges has been ignored since. -/
structure Followed (s : Door) : Prop where
  read : s.waiting = 0 → ∀ value ∈ s.running, value = s.high ↔ Even s.ignored
  sent : s.waiting = 0 → s.running = none → ∀ put ∈ s.sent.getLast?,
    ∃ value, put.data = stateText value ∧ (value = s.high ↔ Even s.ignored)

theorem followed_start (high : Bool) : Followed (start high) where
  read _ value member := by cases member
  sent _ _ put member := by cases member

theorem not_eq_iff {value high : Bool} : value = !high ↔ ¬ value = high := by
  cases value <;> cases high <;> decide

/-- Every callback of a door sensor sends one state. -/
theorem changeDoorState_of_registered {detection : Detection}
    (registered : detection ∈ doorDetections) (value : Bool) :
    ∃ put, changeDoorState detection.pinNumber value = some put ∧ put.data = stateText value := by
  have only : doorDetections = [⟨22, .both, .changeDoorState, 300⟩] := rfl
  rw [only, List.mem_singleton] at registered
  subst registered
  exact ⟨_, rfl, rfl⟩

theorem Followed.edge {s : Door} (followed : Followed s) (detection : Detection) :
    Followed (s.edge detection) := by
  unfold Door.edge
  split
  case isTrue =>
    exact ⟨fun none => absurd none (Nat.succ_ne_zero _), fun none => absurd none (Nat.succ_ne_zero _)⟩
  case isFalse =>
    refine ⟨fun none value member => ?_, fun none idle put last => ?_⟩
    · rw [not_eq_iff, followed.read none value member, Nat.even_add_one]
    · obtain ⟨value, data, level⟩ := followed.sent none idle put last
      refine ⟨value, data, ?_⟩
      rw [not_eq_iff, level, Nat.even_add_one]

theorem Followed.step {detection : Detection} (registered : detection ∈ doorDetections)
    {s next : Door} (followed : Followed s) {label : DoorLabel}
    (stepped : s.step detection label = some next) : Followed next := by
  cases label with
  | elapse milliseconds =>
    cases stepped
    exact ⟨followed.read, followed.sent⟩
  | edge =>
    cases stepped
    exact followed.edge detection
  | read =>
    obtain rfl := step_read stepped
    refine ⟨fun _ value member => ?_, fun _ idle => ?_⟩
    · cases member
      simp
    · cases idle
  | send =>
    obtain ⟨value, running, rfl⟩ := step_send stepped
    refine ⟨fun _ value member => ?_, fun none _ put last => ?_⟩
    · cases member
    · obtain ⟨sent, found, data⟩ := changeDoorState_of_registered registered value
      simp only [found, Option.toList_some, List.getLast?_concat] at last
      cases last
      -- what is sent is what the callback has read
      exact ⟨value, data, followed.read none value running⟩

theorem followed_run {detection : Detection} (registered : detection ∈ doorDetections)
    {high : Bool} {labels : List DoorLabel} {s : Door}
    (reached : run (Door.step detection) (start high) labels = some s) : Followed s :=
  run_invariant Followed (followed_start high)
    (fun _ _ _ followed stepped => followed.step registered stepped) reached

/-- The branch in which an edge is lost: it calls no callback, and none is waiting to read
    the pin. -/
def Lost (detection : Detection) (s : Door) : DoorLabel → Prop
  | .edge => ¬ s.Invokes detection ∧ s.waiting = 0
  | _ => False

/-- As long as no edge is lost, none has been ignored since the last callback read the
    pin. -/
theorem ignored_eq_zero {detection : Detection} {high : Bool} {labels : List DoorLabel} {s : Door}
    (along : Along (Door.step detection) (fun s label => ¬ s.Lost detection label) (start high)
      labels)
    (reached : run (Door.step detection) (start high) labels = some s) (none : s.waiting = 0) :
    s.ignored = 0 := by
  have kept : s.waiting = 0 → s.ignored = 0 := by
    refine run_invariant_along (fun s => s.waiting = 0 → s.ignored = 0) ?_ (fun _ => rfl) along
      reached
    intro s label next notLost kept stepped none
    cases label with
    | elapse milliseconds =>
      cases stepped
      exact kept none
    | edge =>
      cases stepped
      unfold Door.edge at none ⊢
      split at none
      · exact absurd none (Nat.succ_ne_zero _)
      case isFalse ignored => exact absurd ⟨ignored, none⟩ notLost
    | read =>
      obtain rfl := step_read stepped
      rfl
    | send =>
      obtain ⟨value, -, rfl⟩ := step_send stepped
      exact kept none
  exact kept none

end Door

open Door

/-! ## The reported state -/

/-- The last state sent says that the door is open. -/
def ReportsOpen (s : Door) : Prop := s.sent.getLast?.map Put.data = some "OPEN"

instance (s : Door) : Decidable (ReportsOpen s) := by
  unfold ReportsOpen
  infer_instance

/-- At rest, the last state sent is the value read last. -/
theorem reportsOpen_iff {detection : Detection} (registered : detection ∈ doorDetections)
    {high : Bool} {labels : List DoorLabel} {s : Door}
    (reached : run (Door.step detection) (Door.start high) labels = some s) (rest : s.AtRest) :
    ∃ value, (ReportsOpen s ↔ value = true) ∧ (value = s.high ↔ Even s.ignored) := by
  have last := List.getLast?_eq_some_getLast rest.completed
  obtain ⟨value, data, level⟩ :=
    (followed_run registered reached).sent rest.waiting rest.running _ last
  refine ⟨value, ?_, level⟩
  rw [ReportsOpen, last, Option.map_some, data]
  cases value <;> decide

/-- Where no edge is lost, every state at rest reports the contact. -/
theorem door_state_follows (detection : Detection) (registered : detection ∈ doorDetections)
    (high : Bool) (labels : List DoorLabel) (s : Door)
    (along : Along (Door.step detection) (fun s label => ¬ s.Lost detection label)
      (Door.start high) labels)
    (reached : run (Door.step detection) (Door.start high) labels = some s) (rest : s.AtRest) :
    ReportsOpen s ↔ s.high = true := by
  obtain ⟨value, reports, level⟩ := reportsOpen_iff registered reached rest
  have none : Even s.ignored := by
    rw [ignored_eq_zero along reached rest.waiting]
    exact Even.zero
  rw [reports, level.mpr none]

/-- In every state at rest of every run: the last state sent is that of the contact, if and
    only if an even number of edges has been ignored since the last callback read the pin. -/
theorem door_state_follows_iff (detection : Detection) (registered : detection ∈ doorDetections)
    (high : Bool) (labels : List DoorLabel) (s : Door)
    (reached : run (Door.step detection) (Door.start high) labels = some s) (rest : s.AtRest) :
    (ReportsOpen s ↔ s.high = true) ↔ Even s.ignored := by
  obtain ⟨value, reports, level⟩ := reportsOpen_iff registered reached rest
  rw [reports, ← level]
  cases value <;> cases s.high <;> decide

def doorMain : Detection := addCallback 22 .changeDoorState .both 300

/-- The door opens, and the callback runs ten milliseconds later. -/
def opened : List DoorLabel := [.elapse 1000, .edge, .elapse 10, .read, .send]

theorem door_state_follows_opened :
    ∃ s, run (Door.step doorMain) (Door.start false) (opened ++ [.elapse 400]) = some s ∧
      (ReportsOpen s ↔ s.high = true) := by
  obtain ⟨s, reached, rest, none⟩ : ∃ s,
      run (Door.step doorMain) (Door.start false) (opened ++ [.elapse 400]) = some s ∧
        s.AtRest ∧ Even s.ignored := by
    refine ⟨_, rfl, ⟨by decide, rfl, rfl, ?_⟩, Even.zero⟩
    rintro time ⟨⟩
    decide
  exact ⟨s, reached, (door_state_follows_iff doorMain (by decide) false _ s reached rest).mpr none⟩

/-- The door is shut again 90 ms after the callback has read the pin, and stays shut. -/
theorem shut_unseen :
    ∃ s, run (Door.step doorMain) (Door.start false) (opened ++ [.elapse 90, .edge, .elapse 400]) =
        some s ∧
      s.AtRest ∧ s.high = false ∧ ReportsOpen s := by
  refine ⟨_, rfl, ⟨by decide, rfl, rfl, ?_⟩, rfl, by decide⟩
  rintro time ⟨⟩
  decide

end HomeAutomation.Raspberry
