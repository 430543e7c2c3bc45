import HomeAutomation.CentralBoard.Commands
import HomeAutomation.CentralBoard.Loop

/-! # The buffers of the central board

Topics and temperatures are put together in arrays of fixed size.  A pin's topic is one
byte longer than its array, whatever the prefix; a temperature's text fits from -9.9 to
99.9 degrees.
-/

namespace HomeAutomation.CentralBoard

open HomeAutomation.Lib HomeAutomation.Lib.CString HomeAutomation.Lib.CharArray World

/-! ## The topic of a pin -/

theorem strlen_itoa_of_twoDigits {number : Int} (twoDigits : TwoDigits number) :
    strlen (itoa number) = 2 := by
  obtain ⟨first, second, text, -, -⟩ := isDigitPair_itoa twoDigits.1 twoDigits.2
  rw [strlen, text]
  rfl

/-- The number fits its array, and the prefix does; behind both no byte is left for the
    terminating zero. -/
theorem pinTopicArrays_written (infoTopic : CString) {mqttPin : MqttPin}
    (twoDigits : TwoDigits mqttPin.pinNumber) :
    (pinTopicArrays infoTopic mqttPin).2.Fits ∧
      (pinTopicArrays infoTopic mqttPin).1.written =
        (pinTopicArrays infoTopic mqttPin).1.size + 1 := by
  have pinLength := strlen_itoa_of_twoDigits twoDigits
  constructor
  · rw [pinTopicArrays, fits_store_iff, fits_declare_iff, pinLength]
    decide
  · have formatLength : strlen mqttPinsFormat = 2 := by decide
    simp only [pinTopicArrays, CharArray.append, CharArray.store, CharArray.declare, strlen_strcat,
      pinLength, formatLength]
    omega

/-- For every prefix and every table with numbers of two digits, publishing any of its
    pins writes outside an array. -/
theorem pin_topic_overflows (infoTopic : CString) (mqttPins : List MqttPin)
    (twoDigits : ∀ mqttPin ∈ mqttPins, TwoDigits mqttPin.pinNumber) (pinIndex : Nat)
    (mqttPin : MqttPin) (found : mqttPins[pinIndex]? = some mqttPin) :
    ¬ ((pinTopicArrays infoTopic mqttPin).1.Fits ∧ (pinTopicArrays infoTopic mqttPin).2.Fits) := by
  rintro ⟨topicFits, -⟩
  have written :=
    (pinTopicArrays_written infoTopic (twoDigits mqttPin (List.mem_of_getElem? found))).2
  rw [CharArray.Fits, written] at topicFits
  omega

theorem pin_topic_overflows_boardPins :
    ¬ ((pinTopicArrays (ofString "home/") ⟨47, false⟩).1.Fits ∧
      (pinTopicArrays (ofString "home/") ⟨47, false⟩).2.Fits) :=
  pin_topic_overflows (ofString "home/") boardPins (by decide) 6 ⟨47, false⟩ rfl

/-- The first pin of the board: 25 bytes in an array of 24. -/
theorem first_pin_topic_overflows :
    boardPins[0]? = some ⟨40, true⟩ ∧ (∀ mqttPin ∈ boardPins, TwoDigits mqttPin.pinNumber) ∧
      (pinTopicArrays mqttInfoTopic ⟨40, true⟩).1.written = 25 ∧
      (pinTopicArrays mqttInfoTopic ⟨40, true⟩).1.size = 24 ∧
      ¬ (pinTopicArrays mqttInfoTopic ⟨40, true⟩).1.Fits := by
  unfold CharArray.Fits
  decide

/-! ## The text of a temperature -/

def tenths (temp : Int) : Nat := (temp.natAbs * 10 + 64) / 128

theorem chars_dtostrf (temp : Int) :
    (dtostrf temp).chars = (if temp < 0 then ['-'] else []) ++
      Nat.toDigits 10 (tenths temp / 10) ++ '.' :: Nat.toDigits 10 (tenths temp % 10) := by
  have terminated : nul ∉ Nat.toDigits 10 (tenths temp / 10) ++
      '.' :: Nat.toDigits 10 (tenths temp % 10) := by
    simp only [List.mem_append, List.mem_cons, not_or]
    exact ⟨nul_notMem_toDigits _, by decide, nul_notMem_toDigits _⟩
  unfold dtostrf
  by_cases negative : temp < 0
  · simp only [negative, if_true, List.singleton_append]
    apply chars_ofChars
    simp only [List.mem_cons, not_or]
    exact ⟨by decide, terminated⟩
  · simp only [negative, if_false, List.nil_append]
    exact chars_ofChars terminated

/-- One decimal, whatever the temperature. -/
theorem strlen_dtostrf (temp : Int) :
    strlen (dtostrf temp) =
      (if temp < 0 then 1 else 0) + (Nat.toDigits 10 (tenths temp / 10)).length + 2 := by
  have decimal : (Nat.toDigits 10 (tenths temp % 10)).length = 1 := by
    rw [Nat.toDigits_of_lt_base (Nat.mod_lt _ (by decide))]
    rfl
  rw [strlen, chars_dtostrf, List.length_append, List.length_append, List.length_cons, decimal]
  split <;> simp

/-- Four characters are enough for two digits before the point, and for one behind a
    sign. -/
theorem strlen_dtostrf_le_four_iff (temp : Int) :
    strlen (dtostrf temp) ≤ 4 ↔ -1273 ≤ temp ∧ temp ≤ 12793 := by
  rw [strlen_dtostrf]
  by_cases negative : temp < 0
  · have oneDigit := Nat.length_toDigits_le_iff (n := tenths temp / 10) (show 1 < 10 by decide)
      (show 0 < 1 by decide)
    have bound : tenths temp / 10 < 10 ^ 1 ↔ -1273 ≤ temp := by
      unfold tenths
      omega
    rw [if_pos negative]
    omega
  · have twoDigits := Nat.length_toDigits_le_iff (n := tenths temp / 10) (show 1 < 10 by decide)
      (show 0 < 2 by decide)
    have bound : tenths temp / 10 < 10 ^ 2 ↔ temp ≤ 12793 := by
      unfold tenths
      omega
    rw [if_neg negative]
    omega

/-! ## The arrays of publishTemp -/

/-- The topic has its place as long as the name keeps to its limit. -/
theorem tempTopic_fits {sensor : TempSensor} (short : strlen sensor.name ≤ tempSensorNameLength - 1)
    (temp : Int) : (tempArrays sensor temp).1.Fits := by
  have empty : strlen (ofString "") = 0 := rfl
  have topic : strlen mqttTempPrefix = strlen mqttTempTopic := rfl
  have limit : tempSensorNameLength = 3 := rfl
  simp only [tempArrays, fits_append_iff, fits_declare_iff, text_append, text_declare, size_append,
    size_declare, strlen_strcat, empty, topic]
  omega

theorem tempText_fits_iff (sensor : TempSensor) (temp : Int) :
    (tempArrays sensor temp).2.Fits ↔ -1273 ≤ temp ∧ temp ≤ 12793 := by
  have empty : (declare tempMaxFloatLength (ofString "")).Fits := by
    unfold CharArray.Fits
    decide
  rw [tempArrays, fits_store_iff, ← strlen_dtostrf_le_four_iff]
  exact ⟨fun fits => Nat.le_of_lt_succ fits.2, fun short => ⟨empty, Nat.lt_succ_of_le short⟩⟩

theorem publishTemp_calls {w : World} {tempIndex : Nat} {sensor : TempSensor}
    (found : w.tempSensors[tempIndex]? = some sensor)
    (answers : w.answers.head.temperature ≠ deviceDisconnectedC) :
    ∃ result, (publishTemp tempIndex w).calls = w.calls ++
      [.getTempC sensor.bus sensor.address,
        .publish (strcat mqttTempPrefix sensor.name) (dtostrf w.answers.head.temperature) false
          result] := by
  refine ⟨w.proceed.answers.head.result, ?_⟩
  have topic : (tempArrays sensor w.answers.head.temperature).1.text =
      strcat mqttTempPrefix sensor.name := CString.ext rfl
  simp only [publishTemp, found, getTemperature, if_neg answers, topic, calls_delay, calls_publish,
    calls_log, calls_proceed, List.append_assoc]
  rfl

/-- `publishTemp` stays inside its arrays, and publishes the text of the temperature under
    the sensor's topic, exactly from -9.9 to 99.9 degrees. -/
theorem temperature_fits_iff (w : World) (tempIndex : Nat) (sensor : TempSensor)
    (found : w.tempSensors[tempIndex]? = some sensor)
    (short : strlen sensor.name ≤ tempSensorNameLength - 1) :
    ((tempArrays sensor w.answers.head.temperature).1.Fits ∧
      (tempArrays sensor w.answers.head.temperature).2.Fits ∧
      ∃ result, (publishTemp tempIndex w).calls = w.calls ++
        [.getTempC sensor.bus sensor.address,
          .publish (strcat mqttTempPrefix sensor.name) (dtostrf w.answers.head.temperature) false
            result]) ↔
      -1273 ≤ w.answers.head.temperature ∧ w.answers.head.temperature ≤ 12793 := by
  rw [← tempText_fits_iff sensor]
  constructor
  · rintro ⟨-, fits, -⟩
    exact fits
  · intro fits
    refine ⟨tempTopic_fits short _, fits, publishTemp_calls found fun unplugged => ?_⟩
    rw [tempText_fits_iff, unplugged] at fits
    exact absurd fits (by decide)

/-- The sensors of the board at a given temperature. -/
def measuring (temp : Int) : World :=
  powerOn (fun _ => none) (Stream'.const ⟨0, false, true, [], temp⟩)

/-- 21.5 degrees at the first sensor. -/
theorem temperature_fits_room : (tempArrays roomLow (2752 : Int)).2.Fits :=
  ((temperature_fits_iff (measuring 2752) 0 roomLow rfl (by decide)).mpr (by decide)).2.1

/-- Ten degrees of frost: six bytes in an array of five. -/
theorem frost_overflows :
    (measuring (-1280)).tempSensors[3]? = some out2 ∧ strlen out2.name ≤ tempSensorNameLength - 1 ∧
      -55 * 128 ≤ (-1280 : Int) ∧ (-1280 : Int) ≤ 125 * 128 ∧
      dtostrf (-1280) = ofString "-10.0" ∧ (tempArrays out2 (-1280)).2.written = 6 ∧
      (tempArrays out2 (-1280)).2.size = 5 ∧ ¬ (tempArrays out2 (-1280)).2.Fits := by
  unfold CharArray.Fits
  refine ⟨rfl, ?_⟩
  decide

end HomeAutomation.CentralBoard
