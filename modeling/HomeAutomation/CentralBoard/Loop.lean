import HomeAutomation.CentralBoard.Pins

/-! # The loop of the central board

The temperature round, the connection, and the `setup` and `loop` of the sketch.
Time passes, and the connection may be lost, at every `proceed`.
-/

namespace HomeAutomation.CentralBoard

open HomeAutomation.Lib HomeAutomation.Lib.CString

/-! ## Temperatures -/

/-- `dtostrf(t, 1, 1, buf)` for `t` in 1/128 degrees: the sign, the integer part and
    one decimal, halves rounded away from zero. -/
def dtostrf (temp : Int) : CString :=
  let tenths := (temp.natAbs * 10 + 64) / 128
  let text := Nat.toDigits 10 (tenths / 10) ++ '.' :: Nat.toDigits 10 (tenths % 10)
  ofChars (if temp < 0 then '-' :: text else text)

/-- The two arrays of `publishTemp`: `topic_plus_sensor_name` and
    `float_to_char_buffer`. -/
def tempArrays (sensor : TempSensor) (temp : Int) : CharArray × CharArray :=
  let topicPlusSensorName :=
    CharArray.declare (strlen mqttTempTopic + tempSensorNameLength) (ofString "")
  let floatToCharBuffer := CharArray.declare tempMaxFloatLength (ofString "")
  ((topicPlusSensorName.append mqttTempPrefix).append sensor.name,
    floatToCharBuffer.store (dtostrf temp))

def getTemperature (sensor : TempSensor) (w : World) : Int × World :=
  (w.answers.head.temperature, w.proceed.log (.getTempC sensor.bus sensor.address))

def publishTemp (tempIndex : Nat) (w : World) : World :=
  match w.tempSensors[tempIndex]? with
  | none => w  -- an index outside the table is never passed
  | some sensor =>
    let (temp, w) := getTemperature sensor w
    if temp = deviceDisconnectedC then w
    else
      let arrays := tempArrays sensor temp
      (w.publish arrays.1.text arrays.2.text false).delay 20

def publishTempSensors (w : World) : World :=
  (List.range w.tempSensors.length).foldl (fun w i => publishTemp i w) w

def requestTemperatures (bus : Bus) (w : World) : World := w.proceed.log (.requestTemperatures bus)

def tempSensorsLoop (w : World) : World :=
  let w := w.proceed
  if tempPublishDelay < w.millis - w.lastTempRead then
    let w := publishTempSensors (requestTemperatures .outsideTemp (requestTemperatures .roomTemp w))
    { w with lastTempRead := w.millis }
  else w

def setupTempSensors (w : World) : World :=
  w.tempSensors.foldl
    (fun w sensor => w.log (.setResolution sensor.bus sensor.address temperaturePrecision)) w

/-! ## The connection -/

/-- The result, and the world after it: `client.connected()` decides. -/
def reconnect (w : World) : Bool × World :=
  let accepted := w.answers.head.result
  let w := w.connect (ofString "centralBoard")
  let w := if accepted then w.subscribe (strcat mqttPinsTopic (ofString "+")) else w
  let w := w.proceed
  (w.connected, w)

/-- `client.loop()` -/
def clientLoop (w : World) : World := deliver w.answers.head.messages w.proceed

def mqttLoop (w : World) : World :=
  let w := w.proceed
  if !w.connected then
    let now := w.millis
    if mqttReconnectDelay < now - w.lastReconnectAttempt.toUInt32 then
      let (succeeded, w) := reconnect { w with lastReconnectAttempt := now.toInt32 }
      if succeeded then
        let w := { w with lastReconnectAttempt := 0 }
        if !w.published then { publishPinStates w with published := true } else w
      else w
    else w
  else clientLoop w

/-! ## The sketch -/

def setup (w : World) : World := (setupInputPins (setupTempSensors w)).delay 3000

def loop (w : World) : World := tempSensorsLoop (mqttLoop w)

/-- The world after some passes of the loop. -/
def boardRun (retained : CString → Option CString) (answers : Stream' Answer) : Nat → World
  | 0 => setup (powerOn retained answers)
  | passes + 1 => loop (boardRun retained answers passes)

end HomeAutomation.CentralBoard
