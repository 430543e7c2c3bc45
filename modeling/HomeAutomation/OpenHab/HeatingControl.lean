import HomeAutomation.OpenHab.Heating

/-! # Hysteresis control

Runs of firings of the rule "Room heating": the commands of a firing reach the
heaters before the next one, readings are arbitrary at each firing, and heaters may
be switched by others in between.  While it is too cold a firing moves one heater
from off to on, so the heaters ramp up one by one.
-/

namespace HomeAutomation.OpenHab

open HomeAutomation.Lib.Updates

variable {Item : Type*}

structure Firing (Item : Type*) where
  readings : Readings
  sort : RandomSort Item

/-! ## One firing -/

def countOf (heaters : Group Item) (state : SwitchState) (states : Item → SwitchState) : Nat :=
  heaters.members.countP (fun item => states item = state)

/-- Every command of a firing turns a heater that is on off, or turns one that is off
    on because it is too cold. -/
theorem command_of_firing (heaters : Group Item) (firing : Firing Item)
    (states : Item → SwitchState) {item : Item} {command : OnOff}
    (sent : (item, command) ∈ heatingCommands heaters firing.sort firing.readings states) :
    (command = .off ∧ item ∈ heaters.inState states .on) ∨
      (command = .on ∧ item ∈ heaters.inState states .off ∧ firing.readings.Below) := by
  rcases heatingCommands_cases heaters firing.sort states firing.readings with
    allOff | none | ⟨heater, isOff, one, below⟩
  · rw [allOff] at sent
    exact Or.inl (mem_sendAll.mp sent)
  · rw [none] at sent
    cases sent
  · rw [one, List.mem_singleton] at sent
    cases sent
    exact Or.inr ⟨rfl, isOff, below⟩

theorem not_on_and_off (heaters : Group Item) (firing : Firing Item) (states : Item → SwitchState)
    (item : Item) : ¬ ((item, .on) ∈ heatingCommands heaters firing.sort firing.readings states ∧
      (item, .off) ∈ heatingCommands heaters firing.sort firing.readings states) := by
  rintro ⟨sentOn, sentOff⟩
  rcases command_of_firing heaters firing states sentOn with ⟨wrong, -⟩ | ⟨-, isOff, -⟩
  · cases wrong
  rcases command_of_firing heaters firing states sentOff with ⟨-, isOn⟩ | ⟨wrong, -⟩
  · have on := (Group.mem_inState.mp isOn).2
    have off := (Group.mem_inState.mp isOff).2
    rw [on] at off
    cases off
  · cases wrong

theorem sentOn_le_one (heaters : Group Item) (firing : Firing Item) (states : Item → SwitchState) :
    ((heatingCommands heaters firing.sort firing.readings states).filter (·.2 = .on)).length ≤ 1 := by
  rcases heatingCommands_cases heaters firing.sort states firing.readings with
    allOff | none | ⟨heater, -, one, -⟩
  · have noneOn : (sendAll (heaters.inState states .on) .off).filter (·.2 = .on) = [] := by
      apply List.filter_eq_nil_iff.mpr
      intro command member
      obtain ⟨isOff, -⟩ := mem_sendAll.mp member
      simp [isOff]
    rw [allOff, noneOn]
    exact Nat.zero_le 1
  · rw [none]
    exact Nat.zero_le 1
  · rw [one]
    exact Nat.le_refl 1

/-! ## Runs -/

variable [DecidableEq Item]

inductive HeatingEvent (Item : Type*)
  | fire (firing : Firing Item)
  | outside (item : Item) (state : SwitchState)

def fire (heaters : Group Item) (states : Item → SwitchState) (firing : Firing Item) :
    Item → SwitchState :=
  receive states (heatingCommands heaters firing.sort firing.readings states)

def heatingStep (heaters : Group Item) (states : Item → SwitchState) :
    HeatingEvent Item → Item → SwitchState
  | .fire firing => fire heaters states firing
  | .outside item state => Function.update states item state

def heatingRun (heaters : Group Item) (initial : Item → SwitchState)
    (events : List (HeatingEvent Item)) : Item → SwitchState :=
  events.foldl (heatingStep heaters) initial

/-- Commanding every heater that is on off leaves none on. -/
theorem off_of_sendAll (heaters : Group Item) (states : Item → SwitchState) {item : Item}
    (member : item ∈ heaters.members) :
    receive states (sendAll (heaters.inState states .on) .off) item ≠ .on := by
  rw [receive_sendAll]
  split
  case isTrue => exact SwitchState.noConfusion
  case isFalse untouched => exact fun on => untouched (Group.mem_inState.mpr ⟨member, on⟩)

theorem fire_off (heaters : Group Item) (firing : Firing Item) (states : Item → SwitchState)
    (stop : firing.readings.heatingSwitch ≠ .on ∨ firing.readings.Above) {item : Item}
    (member : item ∈ heaters.members) : fire heaters states firing item ≠ .on := by
  rw [fire]
  rcases stop with switchedOff | above
  · rw [heatingCommands_switchedOff heaters firing.sort states switchedOff]
    exact off_of_sendAll heaters states member
  · rw [heatingCommands_above heaters firing.sort states above]
    exact off_of_sendAll heaters states member

/-! ## Ramping up -/

/-- A firing below the band moves one heater from off to on, while there is one. -/
theorem count_fire_below (heaters : Group Item) (firing : Firing Item)
    (states : Item → SwitchState) (below : firing.readings.Below) :
    (countOf heaters .off states = 0 ∧ fire heaters states firing = states) ∨
      (countOf heaters .off (fire heaters states firing) + 1 = countOf heaters .off states ∧
        countOf heaters .on (fire heaters states firing) = countOf heaters .on states + 1) := by
  rcases heatingCommands_below heaters firing.sort states below with ⟨noneOff, none⟩ |
    ⟨heater, isOff, one⟩
  · refine Or.inl ⟨?_, by rw [fire, none, receive_nil]⟩
    rw [countOf, List.countP_eq_length_filter]
    exact congrArg List.length noneOff
  · obtain ⟨member, off⟩ := Group.mem_inState.mp isOff
    -- one heater is assigned a new state, which `countP_update` counts
    have moved : fire heaters states firing = Function.update states heater .on := by
      rw [fire, one]
      rfl
    have offs := countP_update (fun state => decide (state = SwitchState.off)) states .on
      heaters.distinct member
    have ons := countP_update (fun state => decide (state = SwitchState.on)) states .on
      heaters.distinct member
    rw [off] at offs ons
    refine Or.inr ⟨?_, ?_⟩
    · rw [moved]
      exact offs
    · rw [moved]
      exact ons

theorem count_rampUp (heaters : Group Item) (firings : List (Firing Item))
    (below : ∀ firing ∈ firings, firing.readings.Below) (states : Item → SwitchState) :
    countOf heaters .on (firings.foldl (fire heaters) states) =
      min (countOf heaters .on states + firings.length)
        (countOf heaters .on states + countOf heaters .off states) := by
  induction firings generalizing states with
  | nil => simp
  | cons firing firings inductionHypothesis =>
    have rest := inductionHypothesis (fun later member => below later (List.mem_cons_of_mem _ member))
      (fire heaters states firing)
    rw [List.foldl_cons, rest, List.length_cons]
    -- either there is no heater left to turn on, or one is moved and the rest follows
    rcases count_fire_below heaters firing states (below firing List.mem_cons_self) with
      ⟨noneOff, unchanged⟩ | ⟨offs, ons⟩
    · rw [unchanged]
      omega
    · omega

/-! ## The control law -/

/-- After any run, for any next firing and any series of firings below the band. -/
theorem hysteresis_control (heaters : Group Item) (initial : Item → SwitchState)
    (events : List (HeatingEvent Item)) (firing : Firing Item) :
    let states := heatingRun heaters initial events
    let commands := heatingCommands heaters firing.sort firing.readings states
    let readings := firing.readings
    (∀ item, ¬ ((item, .on) ∈ commands ∧ (item, .off) ∈ commands)) ∧
    (commands.filter (·.2 = .on)).length ≤ 1 ∧
    (∀ item, (item, .on) ∈ commands → item ∈ heaters.members ∧ states item = .off ∧
      readings.heatingSwitch = .on ∧ ∃ setPoint tempIn,
        readings.heatingSetpoint = .decimal setPoint ∧
        readings.temperatureRoom = .decimal tempIn ∧ tempIn < setPoint - 1 / 20) ∧
    (∀ firings : List (Firing Item), (∀ later ∈ firings, later.readings.Below) →
      countOf heaters .on (firings.foldl (fire heaters) states) =
        min (countOf heaters .on states + firings.length)
          (countOf heaters .on states + countOf heaters .off states)) ∧
    (∀ setPoint tempIn, readings.heatingSwitch = .on →
      readings.heatingSetpoint = .decimal setPoint → readings.temperatureRoom = .decimal tempIn →
      setPoint - 1 / 20 ≤ tempIn → tempIn ≤ setPoint + 1 / 20 → commands = []) ∧
    ((readings.heatingSwitch ≠ .on ∨ ∃ setPoint tempIn, readings.heatingSwitch = .on ∧
        readings.heatingSetpoint = .decimal setPoint ∧
        readings.temperatureRoom = .decimal tempIn ∧ setPoint + 1 / 20 < tempIn) →
      ∀ item ∈ heaters.members, fire heaters states firing item ≠ .on) := by
  intro states commands readings
  refine ⟨not_on_and_off heaters firing states, sentOn_le_one heaters firing states, ?_, ?_, ?_, ?_⟩
  · intro item sent
    rcases command_of_firing heaters firing states sent with ⟨wrong, -⟩ | ⟨-, isOff, below⟩
    · cases wrong
    · obtain ⟨member, off⟩ := Group.mem_inState.mp isOff
      exact ⟨member, off, below.1, below.2⟩
  · exact fun firings below => count_rampUp heaters firings below states
  · intro setPoint tempIn switchedOn setpoint temperature lower upper
    exact heatingCommands_within heaters firing.sort states
      ⟨switchedOn, setPoint, tempIn, setpoint, temperature, lower, upper⟩
  · intro stop item member
    refine fire_off heaters firing states ?_ member
    rcases stop with switchedOff | ⟨setPoint, tempIn, switchedOn, hot⟩
    · exact Or.inl switchedOff
    · exact Or.inr ⟨switchedOn, setPoint, tempIn, hot⟩

/-! ## Fail safe -/

/-- After any run, a heater that stays on was left on by a firing with the switch on,
    and a temperature that is not above the band unless a reading is missing.  Missing
    readings are reported, and leave the heaters as they are. -/
theorem fail_safe (heaters : Group Item) (initial : Item → SwitchState)
    (events : List (HeatingEvent Item)) (firing : Firing Item) :
    let states := heatingRun heaters initial events
    let commands := heatingCommands heaters firing.sort firing.readings states
    let readings := firing.readings
    (∀ item ∈ heaters.members, states item = .on → (item, .off) ∉ commands →
      readings.heatingSwitch = .on ∧ ∀ setPoint tempIn,
        readings.heatingSetpoint = .decimal setPoint →
        readings.temperatureRoom = .decimal tempIn → tempIn ≤ setPoint + 1 / 20) ∧
    (∀ item, (item, .on) ∈ commands →
      readings.heatingSwitch = .on ∧ ∃ setPoint tempIn,
        readings.heatingSetpoint = .decimal setPoint ∧
        readings.temperatureRoom = .decimal tempIn ∧ tempIn ≤ setPoint + 1 / 20) ∧
    (readings.Lost → roomHeating heaters firing.sort readings states = reportLost) := by
  intro states commands readings
  refine ⟨fun item member isOn kept => ⟨?_, ?_⟩, ?_, roomHeating_lost heaters firing.sort states⟩
  · by_contra switchedOff
    apply kept
    have all : commands = sendAll (heaters.inState states .on) .off :=
      heatingCommands_switchedOff heaters firing.sort states switchedOff
    rw [all]
    exact mem_sendAll.mpr ⟨rfl, Group.mem_inState.mpr ⟨member, isOn⟩⟩
  · intro setPoint tempIn setpoint temperature
    by_contra hot
    apply kept
    have all : commands = sendAll (heaters.inState states .on) .off := by
      by_cases switchedOn : readings.heatingSwitch = .on
      · exact heatingCommands_above heaters firing.sort states
          ⟨switchedOn, setPoint, tempIn, setpoint, temperature, not_le.mp hot⟩
      · exact heatingCommands_switchedOff heaters firing.sort states switchedOn
    rw [all]
    exact mem_sendAll.mpr ⟨rfl, Group.mem_inState.mpr ⟨member, isOn⟩⟩
  · intro item sent
    rcases command_of_firing heaters firing states sent with ⟨wrong, -⟩ | ⟨-, -, below⟩
    · cases wrong
    · obtain ⟨switchedOn, setPoint, tempIn, setpoint, temperature, cold⟩ := below
      have band : setPoint - hysteresis ≤ setPoint + 1 / 20 := by
        rw [hysteresis]
        linarith
      exact ⟨switchedOn, setPoint, tempIn, setpoint, temperature, cold.le.trans band⟩

def unsorted : RandomSort Unit := ⟨id, fun _ => List.Perm.refl _⟩

/-- Turned on at 20 degrees, a heater stays on when the temperature is lost. -/
theorem fail_safe_fails :
    ¬ ∀ (heaters : Group Unit) (initial : Unit → SwitchState) (events : List (HeatingEvent Unit))
      (firing : Firing Unit) (item : Unit), item ∈ heaters.members →
      (heatingRun heaters initial events item = .on ∧
          (item, .off) ∉ heatingCommands heaters firing.sort firing.readings
            (heatingRun heaters initial events) ∨
        (item, .on) ∈ heatingCommands heaters firing.sort firing.readings
          (heatingRun heaters initial events)) →
      firing.readings.heatingSwitch = .on ∧ ∃ setPoint tempIn,
        firing.readings.heatingSetpoint = .decimal setPoint ∧
        firing.readings.temperatureRoom = .decimal tempIn ∧ tempIn ≤ setPoint + 1 / 20 := by
  intro safe
  obtain ⟨-, setPoint, tempIn, -, temperature, -⟩ := safe ⟨[()], by decide⟩ (fun _ => .off)
    [.fire ⟨⟨.on, .decimal 23, .decimal 20⟩, unsorted⟩]
    ⟨⟨.on, .decimal 23, .uninitialized⟩, unsorted⟩ () (by decide) (Or.inl ⟨by decide +kernel, by decide +kernel⟩)
  cases temperature

end HomeAutomation.OpenHab
