import HomeAutomation.CentralBoard.Commands

/-! # What a command message may depend on

`callback` is given the length of the payload and does not look at it: it reads the
first byte behind the pointer.  So an empty payload still switches a pin when a byte of
an earlier message is left there, and a longer one is taken by its first byte.
-/

namespace HomeAutomation.CentralBoard

open HomeAutomation.Lib HomeAutomation.Lib.CString World

/-! ## The pin a topic addresses -/

/-- The number that `callback` reads from a topic, if the topic passes its tests. -/
def addressedPin (recievedTopic : CString) : Option Int :=
  let recievedTopicLen := UInt16.ofNat (strlen recievedTopic)
  let lenDiff := recievedTopicLen - UInt16.ofNat (strlen mqttControlPrefix)
  let firstDigit := recievedTopic.get (recievedTopicLen.toNat - 2)
  let secondDigit := recievedTopic.get (recievedTopicLen.toNat - 1)
  if lenDiff.toNat = strlen mqttPinsFormat ∧ equalsToPinsTopic recievedTopic ∧
      isdigit firstDigit ∧ isdigit secondDigit then
    some (getPinNumber firstDigit secondDigit)
  else none

/-- The table entry that `changePinState` works on. -/
def pinEntry (pinNumber : Int) (w : World) : Option MqttPin :=
  let pinIndex := findPinIndex pinNumber w
  if pinIndex < 0 then none else w.mqttPins[pinIndex.toNat]?

def addressedEntry (recievedTopic : CString) (w : World) : Option MqttPin :=
  (addressedPin recievedTopic).bind fun pinNumber => pinEntry pinNumber w

/-- The payload that switches a pin. -/
def switchingByte (mqttPin : MqttPin) : UInt8 :=
  if mqttPin.pinState then payloadZero else payloadOne

theorem callback_of_addressed {message : Message} {w : World} {pinNumber : Int}
    (addressed : addressedPin message.recievedTopic = some pinNumber) :
    callback message w =
      if message.payload 0 ≠ payloadZero ∧ message.payload 0 ≠ payloadOne then w
      else changePinState pinNumber (message.payload 0 == payloadOne) w := by
  simp only [addressedPin] at addressed
  split at addressed
  case isTrue accepted =>
    obtain ⟨length, topic, first, second⟩ := accepted
    cases addressed
    simp only [callback, length, topic, first, second, ne_eq, not_true_eq_false, if_false,
      Bool.not_true, Bool.or_false, Bool.false_eq_true]
  case isFalse => cases addressed

theorem callback_of_not_addressed {message : Message} {w : World}
    (rejected : addressedPin message.recievedTopic = none) : callback message w = w := by
  simp only [addressedPin] at rejected
  split at rejected
  case isTrue => cases rejected
  case isFalse refused =>
    unfold callback
    dsimp only
    split_ifs with length topic digits payload
    · rfl
    · rfl
    · rfl
    · rfl
    · exfalso
      apply refused
      simp only [Bool.not_eq_true', Bool.not_eq_true, Bool.or_eq_false_iff, Bool.not_eq_false] at *
      exact ⟨not_not.mp length, topic, by simpa using digits⟩

/-! ## Switching -/

theorem changePinState_of_absent {pinNumber : Int} {state : Bool} {w : World}
    (absent : pinEntry pinNumber w = none) : changePinState pinNumber state w = w := by
  simp only [pinEntry] at absent
  simp only [changePinState]
  split
  · rfl
  case isFalse found =>
    rw [if_neg found] at absent
    rw [absent]

theorem changePinState_of_same_state {pinNumber : Int} {w : World} {mqttPin : MqttPin}
    (entry : pinEntry pinNumber w = some mqttPin) :
    changePinState pinNumber mqttPin.pinState w = w := by
  simp only [pinEntry] at entry
  split at entry
  case isTrue => cases entry
  case isFalse found =>
    simp only [changePinState, if_neg found, entry, bne_self_eq_false, Bool.false_eq_true, if_false]

theorem calls_publishPinState (pinIndex : Nat) (w : World) :
    w.calls <+: (publishPinState pinIndex w).calls := by
  unfold publishPinState
  split
  · exact List.prefix_rfl
  · exact List.prefix_append _ _

/-- A pin that is switched is written to. -/
theorem calls_changePinState {pinNumber : Int} {state : Bool} {w : World} {mqttPin : MqttPin}
    (entry : pinEntry pinNumber w = some mqttPin) (differs : mqttPin.pinState ≠ state) :
    w.calls ++ [.digitalWrite mqttPin.pinNumber state] <+:
      (changePinState pinNumber state w).calls := by
  simp only [pinEntry] at entry
  split at entry
  case isTrue => cases entry
  case isFalse found =>
    simp only [changePinState, if_neg found, entry]
    rw [if_pos (by simpa using differs)]
    refine List.IsPrefix.trans ?_ (calls_publishPinState _ _)
    exact List.prefix_rfl

theorem differs_iff_switchingByte {byte : UInt8} {mqttPin : MqttPin}
    (command : byte = payloadZero ∨ byte = payloadOne) :
    mqttPin.pinState ≠ (byte == payloadOne) ↔ byte = switchingByte mqttPin := by
  obtain ⟨number, state⟩ := mqttPin
  rcases command with rfl | rfl
  · cases state <;> simp [switchingByte, payloadZero, payloadOne]
  · cases state <;> simp [switchingByte, payloadZero, payloadOne]

theorem switchingByte_cases (mqttPin : MqttPin) :
    switchingByte mqttPin = payloadZero ∨ switchingByte mqttPin = payloadOne := by
  unfold switchingByte
  split
  · exact Or.inl rfl
  · exact Or.inr rfl

/-- A message without the switching byte in front leaves everything as it is. -/
theorem callback_of_other_byte {message : Message} {w : World}
    (other : ∀ mqttPin, addressedEntry message.recievedTopic w = some mqttPin →
      message.payload 0 ≠ switchingByte mqttPin) : callback message w = w := by
  cases addressed : addressedPin message.recievedTopic with
  | none => exact callback_of_not_addressed addressed
  | some pinNumber =>
    rw [callback_of_addressed addressed]
    by_cases neither : message.payload 0 ≠ payloadZero ∧ message.payload 0 ≠ payloadOne
    case pos => rw [if_pos neither]
    case neg =>
      rw [if_neg neither]
      cases entry : pinEntry pinNumber w with
      | none => exact changePinState_of_absent entry
      | some mqttPin =>
        have byte := other mqttPin (by rw [addressedEntry, addressed, Option.bind_some, entry])
        have same : mqttPin.pinState = (message.payload 0 == payloadOne) := by
          by_contra differs
          exact byte ((differs_iff_switchingByte (by tauto)).mp differs)
        rw [← same]
        exact changePinState_of_same_state entry

theorem callback_of_switching_byte {message : Message} {w : World} {mqttPin : MqttPin}
    (entry : addressedEntry message.recievedTopic w = some mqttPin)
    (byte : message.payload 0 = switchingByte mqttPin) :
    (callback message w).calls ≠ w.calls := by
  obtain ⟨pinNumber, addressed, found⟩ := Option.bind_eq_some_iff.mp entry
  have command : message.payload 0 = payloadZero ∨ message.payload 0 = payloadOne := by
    rw [byte]
    exact switchingByte_cases mqttPin
  have differs := (differs_iff_switchingByte command).mpr byte
  rw [callback_of_addressed addressed, if_neg (by tauto)]
  intro unchanged
  have longer := (calls_changePinState found differs).length_le
  rw [unchanged, List.length_append, List.length_singleton] at longer
  omega

/-! ## The effect of a message -/

/-- Nothing of a payload is read but its first byte. -/
theorem callback_congr {topic : CString} {first second : Nat → UInt8} (length : Nat) (w : World)
    (same : first 0 = second 0) :
    callback ⟨topic, first, length⟩ w = callback ⟨topic, second, length⟩ w := by
  simp only [callback, same]

/-- Table, pins and publishes come out the same. -/
def SameEffect (w : World) (first second : Message) : Prop :=
  (callback first w).mqttPins = (callback second w).mqttPins ∧
    (callback first w).calls = (callback second w).calls

def HasEffect (w : World) (message : Message) : Prop :=
  (callback message w).mqttPins ≠ w.mqttPins ∨ (callback message w).calls ≠ w.calls

theorem hasEffect_iff {w : World} {message : Message} :
    HasEffect w message ↔ ∃ mqttPin, addressedEntry message.recievedTopic w = some mqttPin ∧
      message.payload 0 = switchingByte mqttPin := by
  constructor
  · intro effect
    by_contra none
    have unchanged : callback message w = w :=
      callback_of_other_byte fun mqttPin entry byte => none ⟨mqttPin, entry, byte⟩
    rw [HasEffect, unchanged] at effect
    simp at effect
  · rintro ⟨mqttPin, entry, byte⟩
    exact Or.inr (callback_of_switching_byte entry byte)

theorem SameEffect.symm {w : World} {first second : Message} (same : SameEffect w first second) :
    SameEffect w second first :=
  ⟨same.1.symm, same.2.symm⟩

/-- If two messages for a topic have the same effect, the second switches with the first. -/
theorem SameEffect.switches {w : World} {topic : CString} {first second : Nat → UInt8}
    {length : Nat} {mqttPin : MqttPin}
    (same : SameEffect w ⟨topic, first, length⟩ ⟨topic, second, length⟩)
    (entry : addressedEntry topic w = some mqttPin) (byte : first 0 = switchingByte mqttPin) :
    second 0 = switchingByte mqttPin := by
  by_contra other
  have unchanged : callback ⟨topic, second, length⟩ w = w := by
    apply callback_of_other_byte
    intro found foundEntry
    rw [Option.some.inj (foundEntry.symm.trans entry)]
    exact other
  have changed : (callback ⟨topic, first, length⟩ w).calls ≠ w.calls :=
    callback_of_switching_byte entry byte
  rw [SameEffect, unchanged] at same
  exact changed same.2

/-- The first byte matters for an addressed entry: it may switch the entry or not. -/
theorem exists_not_sameEffect {w : World} {topic : CString} {mqttPin : MqttPin}
    (entry : addressedEntry topic w = some mqttPin) (payload : Nat → UInt8) (length : Nat) :
    ∃ other : Nat → UInt8, ¬ SameEffect w ⟨topic, other, length⟩ ⟨topic, payload, length⟩ := by
  by_contra none
  have anyByte : ∀ other : Nat → UInt8,
      SameEffect w ⟨topic, other, length⟩ ⟨topic, payload, length⟩ := by
    intro other
    by_contra differs
    exact none ⟨other, differs⟩
  have switches := (anyByte fun _ => switchingByte mqttPin).switches entry rfl
  -- the byte 0 would switch the entry like any other, but it is no command
  have zeroByte : (0 : UInt8) = switchingByte mqttPin :=
    (anyByte fun _ => 0).symm.switches entry switches
  rcases switchingByte_cases mqttPin with zero | one
  · rw [zero] at zeroByte
    exact absurd zeroByte (by decide)
  · rw [one] at zeroByte
    exact absurd zeroByte (by decide)

/-- Only where the topic addresses an entry does the first byte matter. -/
theorem sameEffect_of_first_byte {w : World} {topic : CString} {other payload : Nat → UInt8}
    {length : Nat}
    (same : ∀ mqttPin, addressedEntry topic w = some mqttPin → other 0 = payload 0) :
    SameEffect w ⟨topic, other, length⟩ ⟨topic, payload, length⟩ := by
  cases entry : addressedEntry topic w with
  | none =>
    have ignored : ∀ bytes : Nat → UInt8, callback ⟨topic, bytes, length⟩ w = w := by
      intro bytes
      apply callback_of_other_byte
      intro mqttPin found
      rw [entry] at found
      cases found
    rw [SameEffect, ignored other, ignored payload]
    exact ⟨rfl, rfl⟩
  | some mqttPin =>
    rw [SameEffect, callback_congr length w (same mqttPin entry)]
    exact ⟨rfl, rfl⟩

/-- The effect of a message is that of its `length` bytes, and there is one only for the
    single character 0 or 1, exactly when: an entry that the topic addresses meets a
    message of one byte, or a longer one that does not start with the byte that
    switches it. -/
theorem effect_of_message_iff (w : World) (topic : CString) (payload : Nat → UInt8)
    (length : Nat) :
    ((∀ other : Nat → UInt8, (∀ i < length, other i = payload i) →
        SameEffect w ⟨topic, other, length⟩ ⟨topic, payload, length⟩) ∧
      (HasEffect w ⟨topic, payload, length⟩ →
        length = 1 ∧ (payload 0 = payloadZero ∨ payload 0 = payloadOne))) ↔
      ∀ mqttPin, addressedEntry topic w = some mqttPin →
        length = 1 ∨ (2 ≤ length ∧ payload 0 ≠ switchingByte mqttPin) := by
  constructor
  · rintro ⟨sameEffect, single⟩ mqttPin entry
    rcases Nat.lt_or_ge length 1 with empty | nonempty
    · -- behind an empty payload any byte may stand
      obtain rfl : length = 0 := by omega
      obtain ⟨other, differs⟩ := exists_not_sameEffect entry payload 0
      exact absurd (sameEffect other fun i inside => absurd inside (Nat.not_lt_zero i)) differs
    · by_cases one : length = 1
      case pos => exact Or.inl one
      case neg =>
        refine Or.inr ⟨by omega, fun byte => one ?_⟩
        exact (single (hasEffect_iff.mpr ⟨mqttPin, entry, byte⟩)).1
  · intro condition
    refine ⟨fun other agree => ?_, fun effect => ?_⟩
    · apply sameEffect_of_first_byte
      intro mqttPin entry
      have nonempty : 0 < length := by
        have := condition mqttPin entry
        omega
      exact agree 0 nonempty
    · obtain ⟨mqttPin, entry, byte⟩ := hasEffect_iff.mp effect
      rcases condition mqttPin entry with one | ⟨-, other⟩
      · have command := switchingByte_cases mqttPin
        rw [← byte] at command
        exact ⟨one, command⟩
      · exact absurd byte other

/-- A retained command is cleared: the payload is empty, the buffer still holds the '0'
    of the message before. -/
def clearedCommand : Message := ⟨ofString "home/control/cboard/pins/40", fun _ => payloadZero, 0⟩

/-- The cleared command switches the first pin of the board, and the same message with
    other bytes left in the buffer does not. -/
theorem empty_payload_switches :
    let w := powerOn (fun _ => none) (Stream'.const ⟨0, false, true, [], 0⟩)
    (callback clearedCommand w).calls =
        [.digitalWrite 40 false, .publish (ofString "home/info/cboard/pins/40") (ofString "0") true
          true] ∧
      (callback { clearedCommand with payload := fun _ => 0 } w).calls = [] := by
  decide

end HomeAutomation.CentralBoard
