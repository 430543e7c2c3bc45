import HomeAutomation.OpenHab.Items
import Mathlib.Tactic.Linarith

/-! # The rule "Room heating"

`roomHeating` is one firing of the rule: what it sends, given the states it reads.
Sorting by a random key is an arbitrary `RandomSort`.  The readings fall into five
kinds, with one lemma for each about the commands of the firing.
-/

namespace HomeAutomation.OpenHab

variable {Item : Type*}

/-- `sortBy( [SwitchItem item | Math::random] )` -/
structure RandomSort (Item : Type*) where
  sort : List Item → List Item
  permutes : ∀ items, (sort items).Perm items

theorem RandomSort.sort_ne_nil (sort : RandomSort Item) {items : List Item}
    (nonempty : items ≠ []) : sort.sort items ≠ [] := by
  intro empty
  have permutes := sort.permutes items
  rw [empty] at permutes
  exact nonempty (List.perm_nil.mp permutes.symm)

def RandomSort.head (sort : RandomSort Item) (items : List Item) (nonempty : items ≠ []) : Item :=
  (sort.sort items).head (sort.sort_ne_nil nonempty)

theorem RandomSort.head_mem (sort : RandomSort Item) {items : List Item} (nonempty : items ≠ []) :
    sort.head items nonempty ∈ items :=
  (sort.permutes items).mem_iff.mp (List.head_mem _)

/-- The states the rule reads besides those of the heaters. -/
structure Readings where
  heatingSwitch : SwitchState
  heatingSetpoint : NumberState
  temperatureRoom : NumberState
  deriving DecidableEq

inductive Effect (Item : Type*)
  | sendCommand (item : Item) (command : OnOff)
  | logError (logger text : String)
  | sendMail (subject text : String)
  deriving DecidableEq

def hysteresis : ℚ := 1 / 20

/-- `items.forEach( item| item.sendCommand(OFF) )` -/
def sendOff (items : List Item) : List (Effect Item) := items.map (.sendCommand · .off)

/-- What the rule does while the switch is on and both readings are numbers. -/
def regulate (sort : RandomSort Item) (turnedOn turnedOff : List Item) (setPoint tempIn : ℚ) :
    List (Effect Item) :=
  (if tempIn < setPoint - hysteresis then
    -- one heater at a time
    if empty : turnedOff.isEmpty then []
    else [.sendCommand (sort.head turnedOff (mt List.isEmpty_iff.mpr empty)) .on]
  else []) ++
  if tempIn > setPoint + hysteresis then sendOff turnedOn else []

/-- What the rule does when a reading is not a number. -/
def reportLost : List (Effect Item) :=
  [.logError "Room heating" "Temperature_Room or Heating_Setpoint is NOT DecimalType",
    .sendMail "Room heating" "Error: Temperature_Room or Heating_Setpoint is NOT DecimalType"]

def roomHeating (heaters : Group Item) (sort : RandomSort Item) (readings : Readings)
    (states : Item → SwitchState) : List (Effect Item) :=
  let turnedOn := heaters.inState states .on
  let turnedOff := heaters.inState states .off
  (if readings.heatingSwitch ≠ .on then
    if turnedOn.isEmpty then [] else sendOff turnedOn
  else []) ++
  if readings.heatingSwitch = .on then
    match readings.heatingSetpoint, readings.temperatureRoom with
    | .decimal setPoint, .decimal tempIn => regulate sort turnedOn turnedOff setPoint tempIn
    | _, _ => reportLost  -- the heaters keep their state
  else []

def Effect.command : Effect Item → Option (Item × OnOff)
  | .sendCommand item command => some (item, command)
  | .logError _ _ => none
  | .sendMail _ _ => none

/-- The commands of one firing, in the order in which they are sent. -/
def heatingCommands (heaters : Group Item) (sort : RandomSort Item) (readings : Readings)
    (states : Item → SwitchState) : List (Item × OnOff) :=
  (roomHeating heaters sort readings states).filterMap Effect.command

/-! ## Kinds of readings -/

namespace Readings

def Below (readings : Readings) : Prop :=
  readings.heatingSwitch = .on ∧ ∃ setPoint tempIn,
    readings.heatingSetpoint = .decimal setPoint ∧ readings.temperatureRoom = .decimal tempIn ∧
      tempIn < setPoint - hysteresis

def Above (readings : Readings) : Prop :=
  readings.heatingSwitch = .on ∧ ∃ setPoint tempIn,
    readings.heatingSetpoint = .decimal setPoint ∧ readings.temperatureRoom = .decimal tempIn ∧
      setPoint + hysteresis < tempIn

def Within (readings : Readings) : Prop :=
  readings.heatingSwitch = .on ∧ ∃ setPoint tempIn,
    readings.heatingSetpoint = .decimal setPoint ∧ readings.temperatureRoom = .decimal tempIn ∧
      setPoint - hysteresis ≤ tempIn ∧ tempIn ≤ setPoint + hysteresis

/-- A reading is not a number. -/
def Lost (readings : Readings) : Prop :=
  readings.heatingSwitch = .on ∧
    (readings.heatingSetpoint = .uninitialized ∨ readings.temperatureRoom = .uninitialized)

theorem kinds (readings : Readings) :
    readings.heatingSwitch ≠ .on ∨ readings.Below ∨ readings.Above ∨ readings.Within ∨
      readings.Lost := by
  by_cases switchedOn : readings.heatingSwitch = .on
  case neg => exact Or.inl switchedOn
  cases setpoint : readings.heatingSetpoint with
  | uninitialized => exact Or.inr (Or.inr (Or.inr (Or.inr ⟨switchedOn, Or.inl setpoint⟩)))
  | decimal setPoint =>
    cases temperature : readings.temperatureRoom with
    | uninitialized => exact Or.inr (Or.inr (Or.inr (Or.inr ⟨switchedOn, Or.inr temperature⟩)))
    | decimal tempIn =>
      rcases lt_or_ge tempIn (setPoint - hysteresis) with below | notBelow
      · exact Or.inr (Or.inl ⟨switchedOn, setPoint, tempIn, setpoint, temperature, below⟩)
      rcases lt_or_ge (setPoint + hysteresis) tempIn with above | notAbove
      · exact Or.inr (Or.inr (Or.inl ⟨switchedOn, setPoint, tempIn, setpoint, temperature, above⟩))
      · exact Or.inr (Or.inr (Or.inr (Or.inl
          ⟨switchedOn, setPoint, tempIn, setpoint, temperature, notBelow, notAbove⟩)))

end Readings

/-! ## The commands of a firing -/

theorem command_sendOff (items : List Item) :
    (sendOff items).filterMap Effect.command = sendAll items .off := by
  rw [sendOff, List.filterMap_map, sendAll, ← List.filterMap_eq_map]
  rfl

/-- Turning all of no heaters off sends nothing. -/
theorem sendOff_if_isEmpty (items : List Item) :
    (if items.isEmpty then [] else sendOff items) = sendOff items := by
  cases items <;> rfl

theorem not_below_of_above {setPoint tempIn : ℚ} (hot : setPoint + hysteresis < tempIn) :
    ¬ tempIn < setPoint - hysteresis := by
  have positive : 0 < hysteresis := by norm_num [hysteresis]
  linarith

section Commands

variable (heaters : Group Item) (sort : RandomSort Item) {readings : Readings}
  (states : Item → SwitchState)

theorem heatingCommands_switchedOff (switchedOff : readings.heatingSwitch ≠ .on) :
    heatingCommands heaters sort readings states =
      sendAll (heaters.inState states .on) .off := by
  rw [heatingCommands, roomHeating, if_pos switchedOff, if_neg switchedOff, List.append_nil,
    sendOff_if_isEmpty, command_sendOff]

/-- The firing of a switched on heating with two numbers. -/
theorem heatingCommands_regulate {setPoint tempIn : ℚ} (switchedOn : readings.heatingSwitch = .on)
    (setpoint : readings.heatingSetpoint = .decimal setPoint)
    (temperature : readings.temperatureRoom = .decimal tempIn) :
    heatingCommands heaters sort readings states =
      (regulate sort (heaters.inState states .on) (heaters.inState states .off)
        setPoint tempIn).filterMap Effect.command := by
  rw [heatingCommands, roomHeating, if_neg (not_not.mpr switchedOn), if_pos switchedOn, setpoint,
    temperature, List.nil_append]

/-- Below the band one heater that is off is turned on, if there is one. -/
theorem heatingCommands_below (below : readings.Below) :
    (heaters.inState states .off = [] ∧ heatingCommands heaters sort readings states = []) ∨
      ∃ item ∈ heaters.inState states .off,
        heatingCommands heaters sort readings states = [(item, .on)] := by
  obtain ⟨switchedOn, setPoint, tempIn, setpoint, temperature, cold⟩ := below
  have notHot : ¬ tempIn > setPoint + hysteresis := fun hot => not_below_of_above hot cold
  rw [heatingCommands_regulate heaters sort states switchedOn setpoint temperature, regulate,
    if_pos cold, if_neg notHot, List.append_nil]
  split
  case isTrue empty => exact Or.inl ⟨List.isEmpty_iff.mp empty, rfl⟩
  case isFalse someOff => exact Or.inr ⟨_, sort.head_mem _, rfl⟩

theorem heatingCommands_above (above : readings.Above) :
    heatingCommands heaters sort readings states =
      sendAll (heaters.inState states .on) .off := by
  obtain ⟨switchedOn, setPoint, tempIn, setpoint, temperature, hot⟩ := above
  rw [heatingCommands_regulate heaters sort states switchedOn setpoint temperature, regulate,
    if_neg (not_below_of_above hot), if_pos hot, List.nil_append, command_sendOff]

theorem heatingCommands_within (inside : readings.Within) :
    heatingCommands heaters sort readings states = [] := by
  obtain ⟨switchedOn, setPoint, tempIn, setpoint, temperature, lower, upper⟩ := inside
  rw [heatingCommands_regulate heaters sort states switchedOn setpoint temperature, regulate,
    if_neg (not_lt.mpr lower), if_neg (not_lt.mpr upper), List.append_nil]
  rfl

theorem roomHeating_lost (lost : readings.Lost) :
    roomHeating heaters sort readings states = reportLost := by
  obtain ⟨switchedOn, missing⟩ := lost
  rw [roomHeating, if_neg (not_not.mpr switchedOn), if_pos switchedOn]
  rcases missing with setpoint | temperature
  · rw [setpoint]
    rfl
  · rw [temperature]
    cases readings.heatingSetpoint <;> rfl

theorem heatingCommands_lost (lost : readings.Lost) :
    heatingCommands heaters sort readings states = [] := by
  rw [heatingCommands, roomHeating_lost heaters sort states lost]
  rfl

/-- All that a firing can do: turn every heater off, nothing, or turn one heater on. -/
theorem heatingCommands_cases (readings : Readings) :
    heatingCommands heaters sort readings states = sendAll (heaters.inState states .on) .off ∨
      heatingCommands heaters sort readings states = [] ∨
      ∃ item ∈ heaters.inState states .off,
        heatingCommands heaters sort readings states = [(item, .on)] ∧ readings.Below := by
  rcases readings.kinds with switchedOff | below | above | inside | lost
  · exact Or.inl (heatingCommands_switchedOff heaters sort states switchedOff)
  · rcases heatingCommands_below heaters sort states below with ⟨-, none⟩ | ⟨item, isOff, one⟩
    · exact Or.inr (Or.inl none)
    · exact Or.inr (Or.inr ⟨item, isOff, one, below⟩)
  · exact Or.inl (heatingCommands_above heaters sort states above)
  · exact Or.inr (Or.inl (heatingCommands_within heaters sort states inside))
  · exact Or.inr (Or.inl (heatingCommands_lost heaters sort states lost))

end Commands

end HomeAutomation.OpenHab
