import HomeAutomation.CentralBoard.Board
import Mathlib.Tactic.SplitIfs

/-! # The pins of the central board

The functions that keep the outputs: publishing a pin's state, switching a pin, and
parsing a command message.  They are those of the sketch, in its order of effects.
-/

namespace HomeAutomation.CentralBoard

open HomeAutomation.Lib HomeAutomation.Lib.CString

/-! ## Publishing -/

/-- The two arrays `publishPinState` builds its topic in: `char_buffer` and
    `pin_as_str`. -/
def pinTopicArrays (infoTopic : CString) (mqttPin : MqttPin) : CharArray × CharArray :=
  let charBuffer := CharArray.declare (strlen infoTopic + strlen mqttPinsFormat) infoTopic
  let pinAsStr := (CharArray.declare 3 (ofString "")).store (itoa mqttPin.pinNumber)
  (charBuffer.append pinAsStr.text, pinAsStr)

/-- `"0"` or `"1"` -/
def payloadOf (pinState : Bool) : CString := if pinState then ofString "1" else ofString "0"

def publishPinState (pinIndex : Nat) (w : World) : World :=
  match w.mqttPins[pinIndex]? with
  | none => w  -- an index outside the table is never passed
  | some mqttPin =>
    let charBuffer := (pinTopicArrays mqttInfoTopic mqttPin).1
    (w.publish charBuffer.text (payloadOf mqttPin.pinState) true).delay 20

def publishPinStates (w : World) : World :=
  (List.range w.mqttPins.length).foldl (fun w i => publishPinState i w) w

/-! ## Switching -/

/-- The index of the first entry with the number, or -1. -/
def findPinIndex (pin : Int) (w : World) : Int :=
  match w.mqttPins.findIdx? (fun mqttPin => pin == mqttPin.pinNumber) with
  | some i => i
  | none => -1

def changePinState (pinNumber : Int) (newState : Bool) (w : World) : World :=
  let pinIndex := findPinIndex pinNumber w
  if pinIndex < 0 then w
  else
    match w.mqttPins[pinIndex.toNat]? with
    | none => w
    | some mqttPin =>
      if mqttPin.pinState != newState then
        let switched :=
          { w with mqttPins := w.mqttPins.set pinIndex.toNat { mqttPin with pinState := newState } }
        publishPinState pinIndex.toNat (switched.digitalWrite mqttPin.pinNumber newState)
      else w

/-! ## Parsing a command -/

def equalsToPinsTopic (recievedTopic : CString) : Bool :=
  strncmp mqttControlPrefix recievedTopic (strlen mqttControlPrefix) == 0

def getPinNumber (firstDigit secondDigit : Char) : Int :=
  atoi (ofChars [firstDigit, secondDigit])

def payloadZero : UInt8 := 48
def payloadOne : UInt8 := 49

def callback (message : Message) (w : World) : World :=
  let recievedTopicLen := UInt16.ofNat (strlen message.recievedTopic)
  let pinsTopicLen := UInt16.ofNat (strlen mqttControlPrefix)
  let lenDiff := recievedTopicLen - pinsTopicLen
  if lenDiff.toNat ≠ strlen mqttPinsFormat then w
  else if !equalsToPinsTopic message.recievedTopic then w
  else
    let firstDigit := message.recievedTopic.get (recievedTopicLen.toNat - 2)
    let secondDigit := message.recievedTopic.get (recievedTopicLen.toNat - 1)
    if !isdigit firstDigit || !isdigit secondDigit then w
    else if message.payload 0 ≠ payloadZero ∧ message.payload 0 ≠ payloadOne then w
    else
      let state := message.payload 0 == payloadOne
      let pNumber := getPinNumber firstDigit secondDigit
      changePinState pNumber state w

/-- Whatever the message, it is dropped or switches a pin. -/
theorem callback_induction {motive : World → Prop} {message : Message} {w : World}
    (dropped : motive w) (switched : ∀ number state, motive (changePinState number state w)) :
    motive (callback message w) := by
  unfold callback
  dsimp only
  split_ifs
  · exact dropped
  · exact dropped
  · exact dropped
  · exact dropped
  · exact switched _ _

/-- Messages handed over one after another. -/
def deliver (messages : List Message) (w : World) : World :=
  messages.foldl (fun w message => callback message w) w

/-! ## Setup -/

def setupInputPins (w : World) : World :=
  w.mqttPins.foldl
    (fun w mqttPin =>
      (w.digitalWrite mqttPin.pinNumber mqttPin.pinState).log (.pinModeOutput mqttPin.pinNumber)) w

end HomeAutomation.CentralBoard
