import HomeAutomation.LightSwitch.RestClient
import HomeAutomation.Lib.WrapClock
import Mathlib.Data.List.FinRange
import Mathlib.Data.Stream.Init
import Mathlib.Logic.Function.Basic

/-! # The sketch of the wired light switch

`Sketch n` holds the variables of a switch with `n` buttons and what they are
compared with: the true time, and the history of what the sketch did.  Every call
that takes time or reads a pin takes the next `Answer`; so the readings, the time
each step takes and the way each request ends are arbitrary.
-/

namespace HomeAutomation.LightSwitch

open HomeAutomation.Lib.WrapClock RestClient

inductive Level
  | low
  | high
  deriving DecidableEq

/-- What the sketch did, with true times.  `request` carries the times at which it
    started and ended, `record` is the assignment to `last_pressed_at`. -/
inductive Event (n : Nat)
  | gate (button : Fin n) (time : Nat) (isOpen : Bool)
  | read (button : Fin n) (level : Level) (time : Nat)
  | request (button : Fin n) (start finish : Nat)
  | record (time : Nat)
  | led (level : Level)
  deriving DecidableEq

structure Answer where
  elapsed : Nat
  level : Level
  exchange : Exchange

structure Sketch (n : Nat) where
  buttonWasPressed : Fin n → Bool
  lastPressedAt : UInt32
  client : Option RestClient  -- none once its array has been overrun
  now : Nat
  history : List (Event n)
  answers : Stream' Answer

def minimalDelay : UInt32 := 1000

namespace Sketch

variable {n : Nat}

def wait (s : Sketch n) : Sketch n :=
  { s with now := s.now + s.answers.head.elapsed, answers := s.answers.tail }

def delay (milliseconds : Nat) (s : Sketch n) : Sketch n := { s with now := s.now + milliseconds }

def log (event : Event n) (s : Sketch n) : Sketch n := { s with history := s.history ++ [event] }

def millis (s : Sketch n) : UInt32 := counter s.now

/-- `digitalRead(buttons[i])` -/
def digitalRead (i : Fin n) (s : Sketch n) : Level × Sketch n :=
  (s.answers.head.level, s.wait.log (.read i s.answers.head.level s.wait.now))

def controlLed (state : Level) (s : Sketch n) : Sketch n := s.log (.led state)

def sendRequest (i : Fin n) (s : Sketch n) : Sketch n :=
  let started := s.wait
  let ended := started.wait
  { ended with
    client := ended.client.bind fun client =>
      (sendRequestToApi i started.answers.head.exchange client).map Result.client
  }.log (.request i started.now ended.now)

/-- The body of the first condition of a visit. -/
def press (i : Fin n) (s : Sketch n) : Sketch n :=
  let s := s.controlLed .high
  let s := { s with buttonWasPressed := Function.update s.buttonWasPressed i true }
  -- the time is taken after the request, which may have taken long
  let s := (s.sendRequest i).wait
  { s with lastPressedAt := s.millis }.log (.record s.now)

/-- The body of the second condition. -/
def release (i : Fin n) (s : Sketch n) : Sketch n :=
  { s with buttonWasPressed := Function.update s.buttonWasPressed i false }.controlLed .low

/-- `!button_was_pressed[i] && digitalRead(buttons[i]) == LOW` and its body. -/
def checkPressed (i : Fin n) (s : Sketch n) : Sketch n :=
  if !s.buttonWasPressed i then
    let (level, s) := s.digitalRead i
    if level = .low then s.press i else s
  else s

/-- `button_was_pressed[i] && digitalRead(buttons[i]) == HIGH` and its body. -/
def checkReleased (i : Fin n) (s : Sketch n) : Sketch n :=
  if s.buttonWasPressed i then
    let (level, s) := s.digitalRead i
    if level = .high then s.release i else s
  else s

/-- One round of the `for` loop. -/
def visit (i : Fin n) (s : Sketch n) : Sketch n :=
  let s := s.wait
  -- one gate for all buttons
  let isOpen := decide (minimalDelay < s.millis - s.lastPressedAt)
  let s := s.log (.gate i s.now isOpen)
  if isOpen then (s.checkPressed i).checkReleased i else s

def loop (s : Sketch n) : Sketch n :=
  (List.finRange n).foldl (fun s i => s.visit i) (s.delay 100)

def sturtupBlink (s : Sketch n) : Sketch n :=
  (List.range 5).foldl
    (fun s _ => (((s.controlLed .high).delay 250).controlLed .low).delay 250) s

/-- The last step is `client.begin`. -/
def setup (s : Sketch n) : Sketch n := s.sturtupBlink.wait

def powerOn (answers : Stream' Answer) : Sketch n where
  buttonWasPressed := fun _ => false
  lastPressedAt := 0
  client := some (RestClient.new openhabHost openhabPort)
  now := 0
  history := []
  answers

/-- The sketch after some passes of the loop. -/
def after (answers : Stream' Answer) : Nat → Sketch n
  | 0 => (powerOn answers).setup
  | passes + 1 => (after answers passes).loop

@[simp] theorem history_wait (s : Sketch n) : s.wait.history = s.history := rfl
@[simp] theorem buttonWasPressed_wait (s : Sketch n) :
    s.wait.buttonWasPressed = s.buttonWasPressed := rfl
@[simp] theorem lastPressedAt_wait (s : Sketch n) : s.wait.lastPressedAt = s.lastPressedAt := rfl

@[simp] theorem history_log (event : Event n) (s : Sketch n) :
    (s.log event).history = s.history ++ [event] := rfl
@[simp] theorem buttonWasPressed_log (event : Event n) (s : Sketch n) :
    (s.log event).buttonWasPressed = s.buttonWasPressed := rfl
@[simp] theorem lastPressedAt_log (event : Event n) (s : Sketch n) :
    (s.log event).lastPressedAt = s.lastPressedAt := rfl
@[simp] theorem now_log (event : Event n) (s : Sketch n) : (s.log event).now = s.now := rfl

theorem now_le_wait (s : Sketch n) : s.now ≤ s.wait.now := Nat.le_add_right _ _

/-- What a press adds: the LED, the request, and the record of the time it ended. -/
theorem press_spec (i : Fin n) (s : Sketch n) :
    ∃ start finish, s.now ≤ start ∧ start ≤ finish ∧ finish ≤ (s.press i).now ∧
      (s.press i).history = ((s.history ++ [.led .high]) ++ [.request i start finish]) ++
        [.record (s.press i).now] ∧
      (s.press i).buttonWasPressed = Function.update s.buttonWasPressed i true ∧
      (s.press i).lastPressedAt = counter (s.press i).now :=
  ⟨_, _, now_le_wait s, now_le_wait _, now_le_wait _, rfl, rfl, rfl⟩

end Sketch

end HomeAutomation.LightSwitch
