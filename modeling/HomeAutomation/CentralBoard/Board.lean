import HomeAutomation.Lib.CString
import HomeAutomation.Lib.WrapClock
import Mathlib.Data.Stream.Init
import Mathlib.Logic.Function.Basic

/-! # The central board: variables, libraries, environment

`World` holds the variables of the sketch together with what its libraries act on:
the MQTT connection, the values the broker retains, the clock.  Every call into a
library whose outcome the sketch does not determine takes the next `Answer` from a
stream, so a statement about every stream is one about every behaviour of the
network, the broker, the sensors and the clock.

Of PubSubClient only this is used: a publish stores its payload as the retained
value exactly when it is sent as retained and returns true, a connection is made
only by `connect` and may be lost during any call, and messages are handed over
only by `loop`.  Output on the serial line is left out.
-/

namespace HomeAutomation.CentralBoard

open HomeAutomation.Lib HomeAutomation.Lib.CString HomeAutomation.Lib.WrapClock

/-! ## Data -/

structure MqttPin where
  pinNumber : Int
  pinState : Bool
  deriving DecidableEq

/-- The two 1-wire buses of the board. -/
inductive Bus
  | roomTemp
  | outsideTemp
  deriving DecidableEq

structure TempSensor where
  bus : Bus
  address : List UInt8
  name : CString
  deriving DecidableEq

/-- The arguments of `callback`: `payload` is the memory behind the pointer, of
    which the first `length` bytes belong to the message. -/
structure Message where
  recievedTopic : CString
  payload : Nat → UInt8
  length : Nat

/-- Calls into the libraries, with the results the broker's state depends on. -/
inductive Call
  | setResolution (bus : Bus) (address : List UInt8) (precision : Nat)
  | requestTemperatures (bus : Bus)
  | getTempC (bus : Bus) (address : List UInt8)
  | pinModeOutput (pin : Int)
  | digitalWrite (pin : Int) (level : Bool)
  | connect (clientId : CString) (result : Bool)
  | subscribe (topic : CString)
  | publish (topic payload : CString) (retained result : Bool)
  deriving DecidableEq

/-- How the environment answers one call: how long it takes, whether the connection
    is lost meanwhile, the result, the messages handed over by `loop`, and the
    temperature read, in 1/128 degrees. -/
structure Answer where
  elapsed : Nat
  lost : Bool
  result : Bool
  messages : List Message
  temperature : Int

structure World where
  mqttPins : List MqttPin
  tempSensors : List TempSensor
  published : Bool
  lastReconnectAttempt : Int32
  lastTempRead : UInt32
  now : Nat
  connected : Bool
  retained : CString → Option CString
  calls : List Call
  answers : Stream' Answer

/-! ## Constants of the sketch -/

def tempPublishDelay : UInt32 := 40000
def temperaturePrecision : Nat := 9
def tempMaxFloatLength : Nat := 5
def tempSensorNameLength : Nat := 3
def mqttReconnectDelay : UInt32 := 5000

def mqttPinsTopic : CString := ofString "home/control/cboard/pins/"
def mqttInfoTopic : CString := ofString "home/info/cboard/pins/"
def mqttTempTopic : CString := ofString "home/info/sensors/temp/"

def mqttControlPrefix : CString := mqttPinsTopic
def mqttInfoPrefix : CString := mqttInfoTopic
def mqttTempPrefix : CString := mqttTempTopic

def mqttPinsFormat : CString := ofString "XX"

/-- `DEVICE_DISCONNECTED_C`, -127 degrees. -/
def deviceDisconnectedC : Int := -127 * 128

def roomLow : TempSensor :=
  ⟨.roomTemp, [0x10, 0x13, 0xB0, 0x5B, 0x02, 0x08, 0x00, 0xC3], ofString "RL"⟩
def roomHigh : TempSensor :=
  ⟨.roomTemp, [0x10, 0x57, 0x87, 0x5B, 0x02, 0x08, 0x00, 0xBF], ofString "RH"⟩
def out1 : TempSensor :=
  ⟨.outsideTemp, [0x10, 0x21, 0x71, 0x5B, 0x02, 0x08, 0x00, 0xAF], ofString "O1"⟩
def out2 : TempSensor :=
  ⟨.outsideTemp, [0x10, 0x2E, 0xA4, 0x5B, 0x02, 0x08, 0x00, 0x07], ofString "O2"⟩
def chulan : TempSensor :=
  ⟨.outsideTemp, [0x10, 0xB8, 0x9D, 0x5B, 0x02, 0x08, 0x00, 0x73], ofString "CH"⟩

def boardTempSensors : List TempSensor := [roomLow, roomHigh, out1, out2, chulan]

def boardPins : List MqttPin :=
  [⟨40, true⟩, ⟨42, true⟩, ⟨43, true⟩, ⟨44, true⟩, ⟨45, true⟩, ⟨46, true⟩, ⟨47, false⟩]

/-- Power on: the variables as initialised, nothing connected, any retained values
    on the broker. -/
def powerOn (retained : CString → Option CString) (answers : Stream' Answer) : World where
  mqttPins := boardPins
  tempSensors := boardTempSensors
  published := false
  lastReconnectAttempt := 0
  lastTempRead := 0
  now := 0
  connected := false
  retained
  calls := []
  answers

/-! ## Library calls -/

namespace World

/-- The next answer is used up: time passes, the connection may be lost. -/
def proceed (w : World) : World :=
  { w with
    now := w.now + w.answers.head.elapsed
    connected := w.connected && !w.answers.head.lost
    answers := w.answers.tail }

def log (w : World) (call : Call) : World := { w with calls := w.calls ++ [call] }

def delay (w : World) (milliseconds : Nat) : World := { w with now := w.now + milliseconds }

def digitalWrite (w : World) (pin : Int) (level : Bool) : World := w.log (.digitalWrite pin level)

def millis (w : World) : UInt32 := counter w.now

/-- `client.connect(id)`; the result is read from the answer. -/
def connect (w : World) (clientId : CString) : World :=
  { w.proceed with
    connected := w.answers.head.result && !w.answers.head.lost
    calls := w.calls ++ [.connect clientId w.answers.head.result] }

def subscribe (w : World) (topic : CString) : World := w.proceed.log (.subscribe topic)

/-- `client.publish(topic, payload, retained)` -/
def publish (w : World) (topic payload : CString) (retained : Bool) : World :=
  { w.proceed with
    retained :=
      if retained && w.answers.head.result then Function.update w.retained topic (some payload)
      else w.retained
    calls := w.calls ++ [.publish topic payload retained w.answers.head.result] }

@[simp] theorem mqttPins_proceed (w : World) : w.proceed.mqttPins = w.mqttPins := rfl
@[simp] theorem published_proceed (w : World) : w.proceed.published = w.published := rfl
@[simp] theorem retained_proceed (w : World) : w.proceed.retained = w.retained := rfl
@[simp] theorem calls_proceed (w : World) : w.proceed.calls = w.calls := rfl

@[simp] theorem mqttPins_log (w : World) (call : Call) : (w.log call).mqttPins = w.mqttPins := rfl
@[simp] theorem published_log (w : World) (call : Call) : (w.log call).published = w.published := rfl
@[simp] theorem connected_log (w : World) (call : Call) : (w.log call).connected = w.connected := rfl
@[simp] theorem retained_log (w : World) (call : Call) : (w.log call).retained = w.retained := rfl
@[simp] theorem calls_log (w : World) (call : Call) : (w.log call).calls = w.calls ++ [call] := rfl

@[simp] theorem mqttPins_delay (w : World) (ms : Nat) : (w.delay ms).mqttPins = w.mqttPins := rfl
@[simp] theorem published_delay (w : World) (ms : Nat) : (w.delay ms).published = w.published := rfl
@[simp] theorem connected_delay (w : World) (ms : Nat) : (w.delay ms).connected = w.connected := rfl
@[simp] theorem retained_delay (w : World) (ms : Nat) : (w.delay ms).retained = w.retained := rfl
@[simp] theorem calls_delay (w : World) (ms : Nat) : (w.delay ms).calls = w.calls := rfl

@[simp] theorem mqttPins_publish (w : World) (topic payload : CString) (retained : Bool) :
    (w.publish topic payload retained).mqttPins = w.mqttPins := rfl
@[simp] theorem published_publish (w : World) (topic payload : CString) (retained : Bool) :
    (w.publish topic payload retained).published = w.published := rfl
@[simp] theorem calls_publish (w : World) (topic payload : CString) (retained : Bool) :
    (w.publish topic payload retained).calls =
      w.calls ++ [.publish topic payload retained w.answers.head.result] := rfl

theorem connected_proceed {w : World} (stays : w.proceed.connected = true) :
    w.connected = true := by
  simp only [proceed, Bool.and_eq_true] at stays
  exact stays.1

theorem connected_publish {w : World} {topic payload : CString} {retained : Bool}
    (stays : (w.publish topic payload retained).connected = true) : w.connected = true :=
  connected_proceed stays

end World

end HomeAutomation.CentralBoard
