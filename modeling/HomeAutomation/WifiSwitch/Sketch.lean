import HomeAutomation.Lib.Transition
import HomeAutomation.Lib.WrapClock
import Mathlib.Logic.Function.Basic

/-! # The sketch of the wifi switch

`loop` and the interrupt handlers share the flags of the buttons, so the sketch is
a step function: `Pc` names the statement that comes next, `Label` what happens
next.  An edge on a button runs its handler between two statements, as long as
interrupts are enabled and the handler is attached.  The history keeps what the
handlers accepted and the requests that were sent; the serial output is left out.
-/

namespace HomeAutomation.WifiSwitch

open HomeAutomation.Lib.WrapClock

/-! ## Requests -/

def openhabIp : String := "192.168.2.2"

def lightsUrlByButtonNumber (buttonNumber : Nat) : String :=
  match buttonNumber with
  | 0 => "/CMD?Virtual_Switch_1=TOGGLE"
  | 1 => "/CMD?Virtual_Switch_2=TOGGLE"
  | 2 => "/CMD?Virtual_Switch_3=TOGGLE"
  | 3 => "/CMD?Virtual_Switch_4=TOGGLE"
  | 4 => "/CMD?Virtual_Switch_5=TOGGLE"
  | _ => ""

/-- What `http.GET()` sends. -/
structure Request where
  host : String
  port : Nat
  url : String
  headers : List (String × String)
  deriving DecidableEq

def apiRequest (bNumber : Nat) : Request where
  host := openhabIp
  port := 8080
  url := lightsUrlByButtonNumber bNumber
  headers := [("Content-Type", "text/plain"), ("Accept", "application/json")]

/-! ## State -/

inductive Pc (n : Nat)
  | attachInterrupt (i : Nat)
  | wifiWait
  | test (i : Nat)
  | noInterrupts (i : Fin n)
  | clear (i : Fin n)
  | sendRequest (i : Fin n)
  | interrupts (i : Fin n)
  deriving DecidableEq

/-- `accept` carries the true times of the two calls of `millis`, and the flag the
    handler found. -/
inductive Event (n : Nat)
  | accept (button : Fin n) (tested recorded : Nat) (waiting : Bool)
  | request (button : Fin n) (sent : Request)
  deriving DecidableEq

structure Sketch (n : Nat) where
  pc : Pc n
  buttonWasPressed : Fin n → Bool
  lastPressedAt : UInt32
  interruptsEnabled : Bool
  now : Nat
  history : List (Event n)

inductive Label (n : Nat)
  | elapse (milliseconds : Nat)
  | interrupt (i : Fin n) (between : Nat)
  | advance (connected : Bool)
  deriving DecidableEq

def minimalDelay : UInt32 := 2000

namespace Sketch

variable {n : Nat}

def powerOn : Sketch n where
  pc := .attachInterrupt 0
  buttonWasPressed := fun _ => false
  lastPressedAt := 0
  interruptsEnabled := true
  now := 0
  history := []

/-! ## Interrupt handlers -/

def millis (s : Sketch n) : UInt32 := counter s.now

/-- `between` is the time from the first call of `millis` to the second. -/
def setPressedFlag (index : Fin n) (flag : Bool) (between : Nat) (s : Sketch n) : Sketch n :=
  if minimalDelay < s.millis - s.lastPressedAt then
    let recorded := s.now + between
    { s with
      lastPressedAt := counter recorded
      buttonWasPressed := Function.update s.buttonWasPressed index flag
      now := recorded
      history := s.history ++ [.accept index s.now recorded (s.buttonWasPressed index)] }
  else s

/-- `interrupt_f[i]`, one of `int0` to `int4`. -/
def interruptF (i : Fin n) (between : Nat) (s : Sketch n) : Sketch n :=
  s.setPressedFlag i true between

def Attached (i : Fin n) (s : Sketch n) : Prop :=
  match s.pc with
  | .attachInterrupt attached => i < attached
  | _ => True

instance (i : Fin n) (s : Sketch n) : Decidable (s.Attached i) := by
  unfold Attached
  split <;> infer_instance

/-! ## The statements of `setup` and `loop` -/

def sendRequestToApi (bNumber : Fin n) (s : Sketch n) : Sketch n :=
  { s with history := s.history ++ [.request bNumber (apiRequest bNumber)] }

/-- Execute the next statement; `connected` is `WiFi.status() == WL_CONNECTED`. -/
def advance (connected : Bool) (s : Sketch n) : Sketch n :=
  match s.pc with
  | .attachInterrupt i =>
    if i < n then { s with pc := .attachInterrupt (i + 1) } else { s with pc := .wifiWait }
  | .wifiWait => if connected then { s with pc := .test 0 } else s
  | .test i =>
    -- an interrupt may still come in between this test and `noInterrupts`
    if inside : i < n then
      if s.buttonWasPressed ⟨i, inside⟩ then { s with pc := .noInterrupts ⟨i, inside⟩ }
      else { s with pc := .test (i + 1) }
    else { s with pc := .wifiWait }
  | .noInterrupts i => { s with pc := .clear i, interruptsEnabled := false }
  | .clear i =>
    { s with
      pc := .sendRequest i
      buttonWasPressed := Function.update s.buttonWasPressed i false }
  | .sendRequest i => { s.sendRequestToApi i with pc := .interrupts i }
  | .interrupts i => { s with pc := .test (i + 1), interruptsEnabled := true }

def step (s : Sketch n) : Label n → Option (Sketch n)
  | .elapse milliseconds => some { s with now := s.now + milliseconds }
  | .interrupt i between =>
    if s.interruptsEnabled = true ∧ s.Attached i then some (s.interruptF i between) else none
  | .advance connected => some (s.advance connected)

end Sketch

end HomeAutomation.WifiSwitch
