import HomeAutomation.CentralBoard.Pins
import HomeAutomation.Lib.History
import Mathlib.Data.List.Induction
import Mathlib.Data.List.Nodup

/-! # The command stream

What the board does with a sequence of messages.  `commandFor` says when a message
is a command for a pin, without the sketch's parser: its topic is the control
prefix followed by the number of the pin, and its first byte is `0` or `1`.
`callback_cases` proves that the parser recognises exactly these, and
`changePinState_cases` what a recognised command does; `Tracks` is the invariant of
the stream that follows from the two.
-/

namespace HomeAutomation.CentralBoard

open HomeAutomation.Lib HomeAutomation.Lib.CString HomeAutomation.Lib.History

/-! ## The meaning of a message -/

def TwoDigits (number : Int) : Prop := 10 ≤ number ∧ number ≤ 99

instance (number : Int) : Decidable (TwoDigits number) := by
  unfold TwoDigits
  infer_instance

/-- A pin table as the sketch assumes it. -/
structure PinTable where
  entries : List MqttPin
  distinct : (entries.map (·.pinNumber)).Nodup
  twoDigits : ∀ mqttPin ∈ entries, TwoDigits mqttPin.pinNumber

def controlTopic (number : Int) : CString := strcat mqttControlPrefix (itoa number)

def infoTopic (number : Int) : CString := strcat mqttInfoPrefix (itoa number)

/-- The level a message commands for a pin, if it is a command for it. -/
def commandFor (number : Int) (message : Message) : Option Bool :=
  if message.recievedTopic = controlTopic number then
    if message.payload 0 = payloadZero then some false
    else if message.payload 0 = payloadOne then some true
    else none
  else none

/-- The commands for a pin among some messages, oldest first. -/
def commandsFor (number : Int) (messages : List Message) : List Bool :=
  messages.filterMap (commandFor number)

theorem commandsFor_snoc (number : Int) (messages : List Message) (message : Message) :
    commandsFor number (messages ++ [message]) =
      commandsFor number messages ++ (commandFor number message).toList := by
  rw [commandsFor, List.filterMap_append]
  cases command : commandFor number message <;> simp [commandsFor, List.filterMap, command]

theorem deliver_snoc (messages : List Message) (message : Message) (w : World) :
    deliver (messages ++ [message]) w = callback message (deliver messages w) := by
  simp [deliver]

/-! ## The parser -/

theorem strlen_mqttControlPrefix : strlen mqttControlPrefix = 25 := by decide

theorem length_mqttControlPrefix : mqttControlPrefix.chars.length = 25 := strlen_mqttControlPrefix

theorem strlen_mqttPinsFormat : strlen mqttPinsFormat = 2 := by decide

/-- The wrapping difference of the lengths is 2 only for topics two characters
    longer than the prefix. -/
theorem lenDiff_eq_iff {length : Nat} (short : length < 2 ^ 16) :
    (UInt16.ofNat length - UInt16.ofNat 25).toNat = 2 ↔ length = 27 := by
  rw [UInt16.toNat_sub, UInt16.toNat_ofNat', UInt16.toNat_ofNat']
  omega

theorem equalsToPinsTopic_iff (topic : CString) :
    equalsToPinsTopic topic = true ↔ mqttControlPrefix.chars <+: topic.chars := by
  rw [equalsToPinsTopic, beq_iff_eq]
  exact strncmp_strlen_eq_zero_iff mqttControlPrefix topic

/-- A topic that passes the length and the prefix test is the prefix and two
    characters, the ones the parser looks at. -/
theorem topic_split {topic : CString} (length : strlen topic = 27)
    (starts : mqttControlPrefix.chars <+: topic.chars) :
    ∃ tail : CString, tail.chars = [topic.get 25, topic.get 26] ∧
      topic = strcat mqttControlPrefix tail := by
  obtain ⟨rest, split⟩ := starts
  have restLength : rest.length = 2 := by
    have lengths := congrArg List.length split
    rw [List.length_append, length_mqttControlPrefix] at lengths
    have topicLength : topic.chars.length = 27 := length
    omega
  have terminated : nul ∉ rest := fun member =>
    topic.terminated (split ▸ List.mem_append_right _ member)
  refine ⟨⟨rest, terminated⟩, ?_, CString.ext (by simp [split])⟩
  obtain ⟨first, second, rfl⟩ := List.length_eq_two.mp restLength
  simp [CString.get, ← split, length_mqttControlPrefix]

theorem commandFor_of_not_control {number : Int} {message : Message}
    (other : message.recievedTopic ≠ controlTopic number) : commandFor number message = none := by
  simp [commandFor, other]

theorem commandFor_of_payload {number : Int} {message : Message}
    (neither : message.payload 0 ≠ payloadZero ∧ message.payload 0 ≠ payloadOne) :
    commandFor number message = none := by
  simp [commandFor, neither]

theorem commandFor_of_control {number : Int} {message : Message}
    (topic : message.recievedTopic = controlTopic number)
    (payload : message.payload 0 = payloadZero ∨ message.payload 0 = payloadOne) :
    commandFor number message = some (message.payload 0 == payloadOne) := by
  rcases payload with zero | one
  · simp [commandFor, topic, zero, payloadZero, payloadOne]
  · simp [commandFor, topic, one, payloadZero, payloadOne]

theorem callback_of_length {message : Message} (w : World)
    (short : strlen message.recievedTopic < 2 ^ 16)
    (length : strlen message.recievedTopic ≠ 27) : callback message w = w := by
  unfold callback
  -- for a topic shorter than the prefix the difference wraps, and is not 2 either
  simp only [strlen_mqttControlPrefix, strlen_mqttPinsFormat]
  rw [if_pos]
  rwa [Ne, lenDiff_eq_iff short]

theorem callback_of_foreign_topic {message : Message} (w : World)
    (other : ¬ mqttControlPrefix.chars <+: message.recievedTopic.chars) :
    callback message w = w := by
  have rejected : equalsToPinsTopic message.recievedTopic = false := by
    rw [← Bool.not_eq_true, equalsToPinsTopic_iff]
    exact other
  simp [callback, rejected]

/-- The parser on a topic of the right length and prefix, in terms of its tail. -/
theorem callback_of_tail {message : Message} (w : World) {tail : CString} {first second : Char}
    (text : tail.chars = [first, second])
    (topic : message.recievedTopic = strcat mqttControlPrefix tail) :
    callback message w =
      if !isdigit first || !isdigit second then w
      else if message.payload 0 ≠ payloadZero ∧ message.payload 0 ≠ payloadOne then w
      else changePinState (atoi tail) (message.payload 0 == payloadOne) w := by
  have length : strlen message.recievedTopic = 27 := by
    simp [topic, strlen, text, length_mqttControlPrefix]
  have accepted : equalsToPinsTopic message.recievedTopic = true := by
    rw [equalsToPinsTopic_iff, topic]
    exact List.prefix_append _ _
  have firstRead : message.recievedTopic.get 25 = first := by
    simp [topic, CString.get, text, length_mqttControlPrefix]
  have secondRead : message.recievedTopic.get 26 = second := by
    simp [topic, CString.get, text, length_mqttControlPrefix]
  have number : getPinNumber first second = atoi tail := by
    have same : ofChars [first, second] = tail :=
      CString.ext ((chars_ofChars (text ▸ tail.terminated)).trans text.symm)
    rw [getPinNumber, same]
  have lengthShown : (UInt16.ofNat 27).toNat = 27 := rfl
  have difference : (UInt16.ofNat 27 - UInt16.ofNat 25).toNat = 2 := rfl
  simp only [callback, length, strlen_mqttControlPrefix, strlen_mqttPinsFormat, lengthShown,
    difference, accepted, firstRead, secondRead, number, ne_eq, not_true_eq_false, if_false,
    Bool.not_true, Bool.false_eq_true]

/-- What the parser makes of a message.  Either it drops the message, and then the
    message commands no pin; or it switches one pin, and the message is a command
    for that pin and for no other. -/
theorem callback_cases (message : Message) (w : World)
    (short : strlen message.recievedTopic < 2 ^ 16) :
    (callback message w = w ∧ ∀ number, TwoDigits number → commandFor number message = none) ∨
      ∃ chosen state, callback message w = changePinState chosen state w ∧
        ∀ number, TwoDigits number →
          commandFor number message = if number = chosen then some state else none := by
  have shape : ∀ number, TwoDigits number → message.recievedTopic = controlTopic number →
      strlen message.recievedTopic = 27 ∧
        mqttControlPrefix.chars <+: message.recievedTopic.chars := by
    intro number twoDigits topic
    obtain ⟨first, second, text, -, -⟩ := isDigitPair_itoa twoDigits.1 twoDigits.2
    rw [topic]
    exact ⟨by simp [strlen, controlTopic, text, length_mqttControlPrefix], List.prefix_append _ _⟩
  -- the tests of the parser, in its order; the first two are about the shape of a topic
  by_cases length : strlen message.recievedTopic = 27
  case neg =>
    refine Or.inl ⟨callback_of_length w short length, fun number twoDigits => ?_⟩
    exact commandFor_of_not_control fun topic => length (shape number twoDigits topic).1
  by_cases starts : mqttControlPrefix.chars <+: message.recievedTopic.chars
  case neg =>
    refine Or.inl ⟨callback_of_foreign_topic w starts, fun number twoDigits => ?_⟩
    exact commandFor_of_not_control fun topic => starts (shape number twoDigits topic).2
  obtain ⟨tail, text, topic⟩ := topic_split length starts
  have tailOf : ∀ number, message.recievedTopic = controlTopic number → tail = itoa number :=
    fun number same => strcat_right_injective (topic.symm.trans same)
  rw [callback_of_tail w text topic]
  by_cases digits : isdigit (message.recievedTopic.get 25) = true ∧
      isdigit (message.recievedTopic.get 26) = true
  case neg =>
    refine Or.inl ⟨if_pos ?_, fun number twoDigits => commandFor_of_not_control fun same => digits ?_⟩
    · simpa only [Bool.or_eq_true, Bool.not_eq_true', ← Bool.not_eq_true, ← not_and_or] using digits
    -- the tail of a control topic is a printed number, so it has two digits
    · obtain ⟨first, second, printed, firstDigit, secondDigit⟩ :=
        isDigitPair_itoa twoDigits.1 twoDigits.2
      rw [← tailOf number same, text, List.cons.injEq, List.cons.injEq] at printed
      exact ⟨printed.1 ▸ firstDigit, printed.2.1 ▸ secondDigit⟩
  rw [if_neg (by simp [digits])]
  by_cases payload : message.payload 0 ≠ payloadZero ∧ message.payload 0 ≠ payloadOne
  case pos => exact Or.inl ⟨if_pos payload, fun number _ => commandFor_of_payload payload⟩
  rw [if_neg payload]
  refine Or.inr ⟨atoi tail, _, rfl, fun number twoDigits => ?_⟩
  have pair : tail.IsDigitPair := ⟨_, _, text, digits.1, digits.2⟩
  by_cases chosen : number = atoi tail
  · -- the number read from the tail prints as the tail again
    have control : message.recievedTopic = controlTopic number := by
      rw [topic, controlTopic, ← (pair.atoi_eq_iff twoDigits.1 twoDigits.2).mp chosen.symm]
    rw [if_pos chosen]
    exact commandFor_of_control control (by
      rw [not_and_or, not_not, not_not] at payload
      exact payload)
  · -- a control topic of another number would be read as that number
    rw [if_neg chosen]
    refine commandFor_of_not_control fun same => chosen ?_
    rw [tailOf number same, atoi_itoa]

/-! ## Switching a pin -/

/-- A table entry after its pin has been switched. -/
def withState (number : Int) (state : Bool) (mqttPin : MqttPin) : MqttPin :=
  if mqttPin.pinNumber = number then { mqttPin with pinState := state } else mqttPin

@[simp] theorem pinNumber_withState (number : Int) (state : Bool) (mqttPin : MqttPin) :
    (withState number state mqttPin).pinNumber = mqttPin.pinNumber := by
  unfold withState
  split <;> rfl

/-- A switched pin: the table entry is changed, then the level is written, then the
    new state is published. -/
def switchPin (number : Int) (state : Bool) (w : World) : World :=
  ((({ w with mqttPins := w.mqttPins.map (withState number state) }).digitalWrite number
    state).publish (infoTopic number) (payloadOf state) true).delay 20

theorem publishPinState_eq {w : World} {i : Nat} {mqttPin : MqttPin}
    (entry : w.mqttPins[i]? = some mqttPin) :
    publishPinState i w =
      (w.publish (infoTopic mqttPin.pinNumber) (payloadOf mqttPin.pinState) true).delay 20 := by
  simp [publishPinState, entry, pinTopicArrays, infoTopic, mqttInfoPrefix]

theorem findPinIndex_of_absent {number : Int} {w : World}
    (absent : ∀ mqttPin ∈ w.mqttPins, mqttPin.pinNumber ≠ number) : findPinIndex number w = -1 := by
  have none : w.mqttPins.findIdx? (fun mqttPin => number == mqttPin.pinNumber) = none := by
    rw [List.findIdx?_eq_none_iff]
    intro mqttPin member
    simpa using (absent mqttPin member).symm
  simp [findPinIndex, none]

/-- In a table without repetitions an entry is found under its number. -/
theorem findPinIndex_of_entry {w : World} (distinct : (w.mqttPins.map (·.pinNumber)).Nodup)
    {i : Nat} {mqttPin : MqttPin} (entry : w.mqttPins[i]? = some mqttPin) :
    findPinIndex mqttPin.pinNumber w = i := by
  obtain ⟨bound, at_i⟩ := List.getElem?_eq_some_iff.mp entry
  have found : w.mqttPins.findIdx? (fun other => mqttPin.pinNumber == other.pinNumber) = some i := by
    rw [List.findIdx?_eq_some_iff_getElem]
    -- an earlier entry with this number would repeat it
    refine ⟨bound, by simp [at_i], fun j before => ?_⟩
    have apart := List.pairwise_iff_getElem.mp distinct j i (by simp; omega) (by simpa) before
    simp only [List.getElem_map, at_i] at apart
    simpa using fun same => apart same.symm
  simp [findPinIndex, found]

/-- Writing one entry of a table without repetitions is switching its pin. -/
theorem set_eq_map_withState {pins : List MqttPin} (distinct : (pins.map (·.pinNumber)).Nodup)
    {i : Nat} {mqttPin : MqttPin} (entry : pins[i]? = some mqttPin) (state : Bool) :
    pins.set i { mqttPin with pinState := state } =
      pins.map (withState mqttPin.pinNumber state) := by
  obtain ⟨bound, at_i⟩ := List.getElem?_eq_some_iff.mp entry
  apply List.ext_getElem (by simp)
  intro j first second
  rw [List.getElem_set, List.getElem_map]
  by_cases same : i = j
  · subst same
    simp [withState, at_i]
  · have inside : j < pins.length := by simpa using second
    have apart : pins[j].pinNumber ≠ mqttPin.pinNumber := by
      intro equal
      have repeated : pins[j] = pins[i] := List.inj_on_of_nodup_map distinct
        (List.getElem_mem inside) (List.getElem_mem bound) (by rw [equal, at_i])
      exact same (distinct.of_map.getElem_inj_iff.mp repeated).symm
    simp [withState, same, apart]

/-- What `changePinState` does: nothing, if every entry of that number already has
    the state; otherwise it switches the pin of such an entry. -/
theorem changePinState_cases {w : World} (distinct : (w.mqttPins.map (·.pinNumber)).Nodup)
    (number : Int) (state : Bool) :
    (changePinState number state w = w ∧
        ∀ mqttPin ∈ w.mqttPins, mqttPin.pinNumber = number → mqttPin.pinState = state) ∨
      (changePinState number state w = switchPin number state w ∧
        ∃ mqttPin ∈ w.mqttPins, mqttPin.pinNumber = number ∧ mqttPin.pinState ≠ state) := by
  by_cases present : ∃ mqttPin ∈ w.mqttPins, mqttPin.pinNumber = number
  case neg =>
    have absent : ∀ mqttPin ∈ w.mqttPins, mqttPin.pinNumber ≠ number :=
      fun mqttPin member same => present ⟨mqttPin, member, same⟩
    refine Or.inl ⟨?_, fun mqttPin member same => absurd same (absent mqttPin member)⟩
    simp [changePinState, findPinIndex_of_absent absent]
  obtain ⟨mqttPin, member, rfl⟩ := present
  obtain ⟨i, bound, at_i⟩ := List.getElem_of_mem member
  have entry : w.mqttPins[i]? = some mqttPin := List.getElem?_eq_some_iff.mpr ⟨bound, at_i⟩
  have only : ∀ other ∈ w.mqttPins, other.pinNumber = mqttPin.pinNumber → other = mqttPin :=
    fun other otherMember same => List.inj_on_of_nodup_map distinct otherMember member same
  have reached : changePinState mqttPin.pinNumber state w =
      if mqttPin.pinState != state then
        publishPinState i
          (({ w with mqttPins := w.mqttPins.set i { mqttPin with pinState := state } }).digitalWrite
            mqttPin.pinNumber state)
      else w := by
    have found : ¬ (i : Int) < 0 := by omega
    simp [changePinState, findPinIndex_of_entry distinct entry, entry, found]
  rw [reached]
  by_cases same : mqttPin.pinState = state
  · refine Or.inl ⟨by simp [same], fun other otherMember number => ?_⟩
    rw [only other otherMember number, same]
  · refine Or.inr ⟨?_, mqttPin, member, rfl, same⟩
    have written : (w.mqttPins.set i { mqttPin with pinState := state })[i]? =
        some { mqttPin with pinState := state } := List.getElem?_set_self bound
    rw [if_pos (by simpa using same), publishPinState_eq written, switchPin,
      set_eq_map_withState distinct entry]

/-! ## The effect on the outputs -/

/-- A call as it concerns one pin: the level written to it, or the payload published
    on its topic. -/
inductive PinAction
  | digitalWrite (level : Bool)
  | publish (payload : CString) (retained : Bool)
  deriving DecidableEq

def pinAction (number : Int) : Call → Option PinAction
  | .digitalWrite pin level => if pin = number then some (.digitalWrite level) else none
  | .publish topic payload retained _ =>
    if topic = infoTopic number then some (.publish payload retained) else none
  | _ => none

def levelWritten (number : Int) : Call → Option Bool
  | .digitalWrite pin level => if pin = number then some level else none
  | _ => none

/-- What one change of a pin consists of. -/
def changeActions (state : Bool) : List PinAction :=
  [.digitalWrite state, .publish (payloadOf state) true]

theorem infoTopic_injective {first second : Int} (same : infoTopic first = infoTopic second) :
    first = second :=
  itoa_injective (strcat_right_injective same)

/-- The calls of a switched pin are the actions of one change of it, and concern no
    other pin. -/
theorem calls_switchPin (number : Int) (state : Bool) (w : World) :
    ∃ result, (switchPin number state w).calls =
      w.calls ++ [.digitalWrite number state,
        .publish (infoTopic number) (payloadOf state) true result] :=
  ⟨_, by simp [switchPin, World.digitalWrite]; rfl⟩

theorem pinAction_switch (number other : Int) (state result : Bool) :
    [Call.digitalWrite number state,
        .publish (infoTopic number) (payloadOf state) true result].filterMap (pinAction other) =
      if other = number then changeActions state else [] := by
  by_cases same : other = number
  · subst same
    simp [pinAction, changeActions]
  · have topics : infoTopic number ≠ infoTopic other :=
      fun equal => same (infoTopic_injective equal).symm
    simp [pinAction, same, Ne.symm same, topics]

theorem levelWritten_switch (number other : Int) (state result : Bool) :
    latest (levelWritten other) [Call.digitalWrite number state,
        .publish (infoTopic number) (payloadOf state) true result] =
      if other = number then some state else none := by
  by_cases same : other = number
  · subst same
    simp [latest, List.filterMap, levelWritten]
  · simp [latest, levelWritten, same, Ne.symm same]

/-! ## Setup -/

/-- Setup changes no variable, and its calls write every pin's initial state. -/
theorem setupInputPins_eq (w : World) :
    setupInputPins w = { w with calls := w.calls ++ w.mqttPins.flatMap fun mqttPin =>
      [.digitalWrite mqttPin.pinNumber mqttPin.pinState, .pinModeOutput mqttPin.pinNumber] } := by
  have general : ∀ (pins : List MqttPin) (w : World),
      pins.foldl (fun w mqttPin => (w.digitalWrite mqttPin.pinNumber mqttPin.pinState).log
        (.pinModeOutput mqttPin.pinNumber)) w =
      { w with calls := w.calls ++ pins.flatMap fun mqttPin =>
        [.digitalWrite mqttPin.pinNumber mqttPin.pinState, .pinModeOutput mqttPin.pinNumber] } := by
    intro pins
    induction pins with
    | nil => intro w; simp
    | cons mqttPin pins inductionHypothesis =>
      intro w
      rw [List.foldl_cons, inductionHypothesis]
      simp [World.digitalWrite, World.log]
  exact general w.mqttPins w

theorem latest_setupInputPins {pins : List MqttPin} (distinct : (pins.map (·.pinNumber)).Nodup)
    {mqttPin : MqttPin} (member : mqttPin ∈ pins) :
    latest (levelWritten mqttPin.pinNumber) (pins.flatMap fun mqttPin =>
      [.digitalWrite mqttPin.pinNumber mqttPin.pinState, .pinModeOutput mqttPin.pinNumber]) =
      some mqttPin.pinState := by
  have others : ∀ rest : List MqttPin, mqttPin.pinNumber ∉ rest.map (·.pinNumber) →
      latest (levelWritten mqttPin.pinNumber) (rest.flatMap fun mqttPin =>
        [Call.digitalWrite mqttPin.pinNumber mqttPin.pinState,
          .pinModeOutput mqttPin.pinNumber]) = none := by
    intro rest absent
    induction rest with
    | nil => rfl
    | cons other rest inductionHypothesis =>
      simp only [List.map_cons, List.mem_cons, not_or] at absent
      rw [List.flatMap_cons, latest_append, inductionHypothesis absent.2]
      simp [latest, levelWritten, Ne.symm absent.1]
  -- what is written after the pin's own entry goes to other pins
  obtain ⟨before, after, rfl⟩ := List.append_of_mem member
  have absent : mqttPin.pinNumber ∉ after.map (·.pinNumber) := by
    rw [List.map_append, List.map_cons] at distinct
    exact (List.nodup_cons.mp (List.nodup_append.mp distinct).2.1).1
  rw [List.flatMap_append, List.flatMap_cons, latest_append, latest_append, others after absent]
  simp [latest, List.filterMap, levelWritten]

/-! ## The stream -/

/-- The state a pin has after some messages. -/
def stateAfter (messages : List Message) (mqttPin : MqttPin) : Bool :=
  (commandsFor mqttPin.pinNumber messages).getLastD mqttPin.pinState

/-- The board follows the messages delivered since `ready`, the world right after
    setup. -/
structure Tracks (table : PinTable) (ready : World) (messages : List Message) (w : World) :
    Prop where
  pins : w.mqttPins = table.entries.map fun mqttPin =>
    { mqttPin with pinState := stateAfter messages mqttPin }
  levels : ∀ mqttPin ∈ table.entries,
    latest (levelWritten mqttPin.pinNumber) w.calls = some (stateAfter messages mqttPin)
  calls : ∃ after, w.calls = ready.calls ++ after ∧
    (∀ mqttPin ∈ table.entries, after.filterMap (pinAction mqttPin.pinNumber) =
      (changes mqttPin.pinState (commandsFor mqttPin.pinNumber messages)).flatMap changeActions) ∧
    ∀ call ∈ after, ∃ mqttPin ∈ table.entries, (pinAction mqttPin.pinNumber call).isSome

theorem Tracks.distinct {table : PinTable} {ready w : World} {messages : List Message}
    (tracks : Tracks table ready messages w) : (w.mqttPins.map (·.pinNumber)).Nodup := by
  rw [tracks.pins, List.map_map]
  exact table.distinct

theorem tracks_setup (table : PinTable) {w : World} (installed : w.mqttPins = table.entries) :
    Tracks table (setupInputPins w) [] (setupInputPins w) where
  pins := by simp [setupInputPins_eq, installed, stateAfter, commandsFor]
  levels := by
    intro mqttPin member
    rw [setupInputPins_eq, installed, latest_append, latest_setupInputPins table.distinct member]
    rfl
  calls := ⟨[], by simp, by simp [commandsFor, changes], by simp⟩

/-- A message that commands no pin of the table changes nothing. -/
theorem Tracks.ignored {table : PinTable} {ready w : World} {messages : List Message}
    (tracks : Tracks table ready messages w) {message : Message}
    (none : ∀ mqttPin ∈ table.entries, commandFor mqttPin.pinNumber message = none) :
    Tracks table ready (messages ++ [message]) w := by
  have same : ∀ mqttPin ∈ table.entries, commandsFor mqttPin.pinNumber (messages ++ [message]) =
      commandsFor mqttPin.pinNumber messages := by
    intro mqttPin member
    rw [commandsFor_snoc, none mqttPin member, Option.toList_none, List.append_nil]
  have states : ∀ mqttPin ∈ table.entries,
      stateAfter (messages ++ [message]) mqttPin = stateAfter messages mqttPin := by
    intro mqttPin member
    rw [stateAfter, same mqttPin member, stateAfter]
  obtain ⟨after, split, actions, only⟩ := tracks.calls
  refine ⟨?_, ?_, after, split, ?_, only⟩
  · rw [tracks.pins]
    exact List.map_congr_left fun mqttPin member => by rw [states mqttPin member]
  · intro mqttPin member
    rw [states mqttPin member]
    exact tracks.levels mqttPin member
  · intro mqttPin member
    rw [same mqttPin member]
    exact actions mqttPin member

theorem stateAfter_snoc {message : Message} {number : Int} {state : Bool} {mqttPin : MqttPin}
    (command : commandFor mqttPin.pinNumber message =
      if mqttPin.pinNumber = number then some state else none) (messages : List Message) :
    stateAfter (messages ++ [message]) mqttPin =
      if mqttPin.pinNumber = number then state else stateAfter messages mqttPin := by
  rw [stateAfter, commandsFor_snoc, command]
  split
  · exact List.getLastD_concat
  · rw [Option.toList_none, List.append_nil, stateAfter]

/-- The changes a command adds for one pin. -/
theorem changes_commandsFor_snoc {message : Message} {number : Int} {state : Bool}
    {mqttPin : MqttPin} (command : commandFor mqttPin.pinNumber message =
      if mqttPin.pinNumber = number then some state else none) (messages : List Message) :
    changes mqttPin.pinState (commandsFor mqttPin.pinNumber (messages ++ [message])) =
      changes mqttPin.pinState (commandsFor mqttPin.pinNumber messages) ++
        if mqttPin.pinNumber = number ∧ stateAfter messages mqttPin ≠ state then [state] else [] := by
  rw [commandsFor_snoc, command]
  by_cases same : mqttPin.pinNumber = number
  case neg => simp [same]
  rw [if_pos same, Option.toList_some, changes_snoc, stateAfter]
  by_cases unchanged : (commandsFor mqttPin.pinNumber messages).getLastD mqttPin.pinState = state
  · rw [if_pos unchanged.symm, if_neg fun changed => changed.2 unchanged]
  · rw [if_neg (Ne.symm unchanged), if_pos ⟨same, unchanged⟩]

/-- A command for the state that every entry of its number already has. -/
theorem Tracks.unchanged {table : PinTable} {ready w : World} {messages : List Message}
    (tracks : Tracks table ready messages w) {message : Message} {number : Int} {state : Bool}
    (command : ∀ mqttPin ∈ table.entries, commandFor mqttPin.pinNumber message =
      if mqttPin.pinNumber = number then some state else none)
    (agree : ∀ mqttPin ∈ w.mqttPins, mqttPin.pinNumber = number → mqttPin.pinState = state) :
    Tracks table ready (messages ++ [message]) w := by
  obtain ⟨after, split, actions, only⟩ := tracks.calls
  have settled : ∀ mqttPin ∈ table.entries, mqttPin.pinNumber = number →
      stateAfter messages mqttPin = state := by
    intro mqttPin member number_eq
    refine agree { mqttPin with pinState := stateAfter messages mqttPin } ?_ number_eq
    rw [tracks.pins]
    exact List.mem_map_of_mem member
  have states : ∀ mqttPin ∈ table.entries,
      stateAfter (messages ++ [message]) mqttPin = stateAfter messages mqttPin := by
    intro mqttPin member
    rw [stateAfter_snoc (command mqttPin member)]
    split
    · rename_i number_eq
      exact (settled mqttPin member number_eq).symm
    · rfl
  refine ⟨?_, ?_, after, split, ?_, only⟩
  · rw [tracks.pins]
    exact List.map_congr_left fun mqttPin member => by rw [states mqttPin member]
  · intro mqttPin member
    rw [states mqttPin member]
    exact tracks.levels mqttPin member
  · -- the state commanded is the one before, so no change is due
    intro mqttPin member
    rw [changes_commandsFor_snoc (command mqttPin member), if_neg, List.append_nil]
    · exact actions mqttPin member
    · exact fun changed => changed.2 (settled mqttPin member changed.1)

/-- A command for another state than that of the entry of its number: the change is written
    and published. -/
theorem Tracks.switched {table : PinTable} {ready w : World} {messages : List Message}
    (tracks : Tracks table ready messages w) {message : Message} {number : Int} {state : Bool}
    (command : ∀ mqttPin ∈ table.entries, commandFor mqttPin.pinNumber message =
      if mqttPin.pinNumber = number then some state else none)
    {entry : MqttPin} (entryMember : entry ∈ table.entries) (number_eq : entry.pinNumber = number)
    (differs : stateAfter messages entry ≠ state) :
    Tracks table ready (messages ++ [message]) (switchPin number state w) := by
  obtain ⟨after, split, actions, only⟩ := tracks.calls
  obtain ⟨result, calls⟩ := calls_switchPin number state w
  refine ⟨?_, ?_, after ++ _, by rw [calls, split, List.append_assoc], ?_, ?_⟩
  · have pins : (switchPin number state w).mqttPins = w.mqttPins.map (withState number state) :=
      rfl
    rw [pins, tracks.pins, List.map_map]
    refine List.map_congr_left fun other otherMember => ?_
    rw [stateAfter_snoc (command other otherMember), Function.comp_apply, withState]
    split <;> rfl
  · intro other otherMember
    rw [calls, latest_append, levelWritten_switch, stateAfter_snoc (command other otherMember)]
    split
    · rfl
    · exact tracks.levels other otherMember
  · -- both lists of actions grow by those of one change, for the switched pin only
    intro other otherMember
    rw [List.filterMap_append, actions other otherMember, pinAction_switch,
      changes_commandsFor_snoc (command other otherMember), List.flatMap_append]
    by_cases same : other.pinNumber = number
    · have equal : other = entry := List.inj_on_of_nodup_map table.distinct otherMember entryMember
        (same.trans number_eq.symm)
      subst equal
      simp [same, differs]
    · simp [same]
  · intro call callMember
    rcases List.mem_append.mp callMember with past | present
    · exact only call past
    · refine ⟨entry, entryMember, ?_⟩
      rw [number_eq]
      simp only [List.mem_cons, List.not_mem_nil, or_false] at present
      rcases present with rfl | rfl <;> simp [pinAction]

/-- A command for one pin, as `callback_cases` describes it, is followed. -/
theorem Tracks.commanded {table : PinTable} {ready w : World} {messages : List Message}
    (tracks : Tracks table ready messages w) {message : Message} {number : Int} {state : Bool}
    (command : ∀ mqttPin ∈ table.entries, commandFor mqttPin.pinNumber message =
      if mqttPin.pinNumber = number then some state else none) :
    Tracks table ready (messages ++ [message]) (changePinState number state w) := by
  rcases changePinState_cases tracks.distinct number state with
    ⟨same, agree⟩ | ⟨switched, mqttPin, member, number_eq, differs⟩
  · rw [same]
    exact tracks.unchanged command agree
  · obtain ⟨entry, entryMember, rfl⟩ : ∃ entry ∈ table.entries,
        { entry with pinState := stateAfter messages entry } = mqttPin := by
      rw [tracks.pins] at member
      simpa using member
    rw [switched]
    exact tracks.switched command entryMember number_eq differs

/-- One delivered message. -/
theorem Tracks.callback {table : PinTable} {ready w : World} {messages : List Message}
    (tracks : Tracks table ready messages w) {message : Message}
    (short : strlen message.recievedTopic < 2 ^ 16) :
    Tracks table ready (messages ++ [message]) (callback message w) := by
  rcases callback_cases message w short with ⟨same, none⟩ | ⟨number, state, same, command⟩
  · rw [same]
    exact tracks.ignored fun mqttPin member => none _ (table.twoDigits mqttPin member)
  · rw [same]
    exact tracks.commanded fun mqttPin member => command _ (table.twoDigits mqttPin member)

theorem tracks_deliver {table : PinTable} {w : World} (installed : w.mqttPins = table.entries)
    {messages : List Message} (short : ∀ message ∈ messages, strlen message.recievedTopic < 2 ^ 16) :
    Tracks table (setupInputPins w) messages (deliver messages (setupInputPins w)) := by
  induction messages using List.reverseRecOn with
  | nil => exact tracks_setup table installed
  | append_singleton messages message inductionHypothesis =>
    rw [deliver_snoc]
    refine (inductionHypothesis fun other member => ?_).callback (short message (by simp))
    exact short other (List.mem_append_left _ member)

/-- After every prefix of the messages, each pin of the table has the state and the
    level of the last command for it, and since setup it has been written and
    published exactly once per change of its state, and nothing else has been. -/
theorem command_stream (table : PinTable) (w : World) (installed : w.mqttPins = table.entries)
    (messages : List Message)
    (delivered : ∀ message ∈ messages,
      strlen message.recievedTopic < 2 ^ 16 ∧ message.length = 1) (count : Nat) :
    let ready := setupInputPins w
    let past := messages.take count
    let board := deliver past ready
    board.mqttPins = table.entries.map
        (fun mqttPin => { mqttPin with pinState := stateAfter past mqttPin }) ∧
      (∀ mqttPin ∈ table.entries,
        latest (levelWritten mqttPin.pinNumber) board.calls = some (stateAfter past mqttPin)) ∧
      ∃ after, board.calls = ready.calls ++ after ∧
        (∀ mqttPin ∈ table.entries, after.filterMap (pinAction mqttPin.pinNumber) =
          (changes mqttPin.pinState (commandsFor mqttPin.pinNumber past)).flatMap changeActions) ∧
        ∀ call ∈ after, ∃ mqttPin ∈ table.entries, (pinAction mqttPin.pinNumber call).isSome := by
  have tracks := tracks_deliver installed fun message (member : message ∈ messages.take count) =>
    (delivered message (List.mem_of_mem_take member)).1
  exact ⟨tracks.pins, tracks.levels, tracks.calls⟩

/-- The table of the sketch. -/
def boardTable : PinTable := ⟨boardPins, by decide, by decide⟩

/-- Two pins are switched; a command that is repeated and a topic without a pin do nothing. -/
theorem command_stream_twoPins :
    let off : Message := ⟨ofString "home/control/cboard/pins/43", fun _ => payloadZero, 1⟩
    let on : Message := ⟨ofString "home/control/cboard/pins/47", fun _ => payloadOne, 1⟩
    let malformed : Message := ⟨ofString "home/control/cboard/pins/4x", fun _ => payloadOne, 1⟩
    let ready := setupInputPins (powerOn (fun _ => none) (Stream'.const ⟨0, false, true, [], 0⟩))
    let board := deliver [off, on, off, malformed] ready
    board.mqttPins = [⟨40, true⟩, ⟨42, true⟩, ⟨43, false⟩, ⟨44, true⟩, ⟨45, true⟩, ⟨46, true⟩,
        ⟨47, true⟩] ∧
      latest (levelWritten 43) board.calls = some false ∧
      latest (levelWritten 47) board.calls = some true ∧
      ∃ after, board.calls = ready.calls ++ after ∧
        after.filterMap (pinAction 43) = changeActions false ∧
        after.filterMap (pinAction 47) = changeActions true ∧
        after.filterMap (pinAction 40) = [] := by
  intro off on malformed ready board
  have delivered : ∀ message ∈ [off, on, off, malformed],
      strlen message.recievedTopic < 2 ^ 16 ∧ message.length = 1 := by
    simp only [List.forall_mem_cons, List.not_mem_nil, false_implies, implies_true, and_true]
    decide
  obtain ⟨pins, levels, after, calls, actions, -⟩ := command_stream boardTable
    (powerOn (fun _ => none) (Stream'.const ⟨0, false, true, [], 0⟩)) rfl _ delivered 4
  refine ⟨pins.trans (by decide), ?_, ?_, after, calls, ?_, ?_, ?_⟩
  · exact (levels ⟨43, true⟩ (by decide)).trans (by decide)
  · exact (levels ⟨47, false⟩ (by decide)).trans (by decide)
  · exact (actions ⟨43, true⟩ (by decide)).trans (by decide)
  · exact (actions ⟨47, false⟩ (by decide)).trans (by decide)
  · exact (actions ⟨40, true⟩ (by decide)).trans (by decide)

end HomeAutomation.CentralBoard
