import HomeAutomation.OpenHab.NightTimer

/-! # Light after the smart switch

The rule "Virtual_Switch_5" has two ways to turn on the default lights: the rule itself
sends ON to all of them, the script sends ON to those that are OFF.  A default light in
no known state is left dark by the second way.
-/

namespace HomeAutomation.OpenHab

variable {Item : Type*}

/-- Some light of the group is on. -/
def Group.Lit (group : Group Item) (states : Item → SwitchState) : Prop :=
  ∃ light ∈ group.members, states light = .on

theorem Group.isEmpty_inState_on {group : Group Item} {states : Item → SwitchState} :
    (group.inState states .on).isEmpty ↔ ¬ group.Lit states := by
  rw [List.isEmpty_iff, List.eq_nil_iff_forall_not_mem, Group.Lit, not_exists]
  simp only [Group.mem_inState]

/-- What the switch needs in order to leave a light on.  A timer that is running is
    cancelled, and no light goes off. -/
def KeepsLight (groups : LightGroups Item) (running : Option Nat) (states : Item → SwitchState) :
    Prop :=
  match running with
  | some _ =>
    groups.lights.Lit states ∨
      ∃ light ∈ groups.smartSwitchDefaultLights.members, states light = .off
  | none =>
    ¬ groups.lights.Lit states ∨
      (∃ light ∈ groups.lights.members, light ∉ groups.dayLights.members ∧ states light = .on) ∨
      (¬ groups.nightLights.Lit states ∧
        ∃ light ∈ groups.smartSwitchDefaultLights.members, states light = .off)

section Commands

variable [DecidableEq Item] {groups : LightGroups Item} {states : Item → SwitchState}

theorem receive_turnOnDefaultLights (light : Item) :
    receive states (turnOnDefaultLights groups states) light = .on ↔
      states light = .on ∨
        (light ∈ groups.smartSwitchDefaultLights.members ∧ states light = .off) := by
  rw [turnOnDefaultLights, receive_sendAll]
  by_cases off : light ∈ groups.smartSwitchDefaultLights.inState states .off
  case pos => simp [off, Group.mem_inState.mp off, OnOff.state]
  case neg =>
    rw [if_neg off]
    rw [Group.mem_inState] at off
    simp [off]

/-- The script turns on every default light that is OFF, and nothing else changes. -/
theorem lit_turnOnDefaultLights :
    groups.lights.Lit (receive states (turnOnDefaultLights groups states)) ↔
      groups.lights.Lit states ∨
        ∃ light ∈ groups.smartSwitchDefaultLights.members, states light = .off := by
  simp only [Group.Lit, receive_turnOnDefaultLights]
  constructor
  · rintro ⟨light, inside, on | ⟨default, off⟩⟩
    · exact Or.inl ⟨light, inside, on⟩
    · exact Or.inr ⟨light, default, off⟩
  · rintro (⟨light, inside, on⟩ | ⟨light, default, off⟩)
    · exact ⟨light, inside, Or.inl on⟩
    · exact ⟨light, groups.defaultLights_subset default, Or.inr ⟨default, off⟩⟩

theorem lit_sendAll_defaultLights
    (someDefault : groups.smartSwitchDefaultLights.members ≠ []) :
    groups.lights.Lit (receive states (sendAll groups.smartSwitchDefaultLights.members .on)) := by
  obtain ⟨light, default⟩ := List.exists_mem_of_ne_nil _ someDefault
  refine ⟨light, groups.defaultLights_subset default, ?_⟩
  rw [receive_sendAll, if_pos default]
  rfl

/-- The lights that are on after the day lights went off: those outside the day lights,
    and what `nightCommands` has turned on there. -/
theorem receive_dayLights_off (nightCommands : List (Item × OnOff)) (light : Item)
    (kept : ∀ light ∈ groups.dayLights.members,
      receive states nightCommands light = states light) :
    receive states (nightCommands ++ sendAll (groups.dayLights.inState states .on) .off) light
        = .on ↔
      light ∉ groups.dayLights.members ∧ receive states nightCommands light = .on := by
  rw [receive_append, receive_sendAll]
  by_cases on : light ∈ groups.dayLights.inState states .on
  case pos =>
    rw [if_pos on]
    have day := (Group.mem_inState.mp on).1
    simp [OnOff.state, day]
  case neg =>
    rw [if_neg on]
    refine ⟨fun lit => ⟨fun day => on ?_, lit⟩, fun lit => lit.2⟩
    rw [kept light day] at lit
    exact Group.mem_inState.mpr ⟨day, lit⟩

/-- The script leaves the day lights alone. -/
theorem turnOnDefaultLights_dayLights (light : Item) (day : light ∈ groups.dayLights.members) :
    receive states (turnOnDefaultLights groups states) light = states light := by
  have other : light ∉ groups.smartSwitchDefaultLights.inState states .off := fun default =>
    groups.defaultLights_disjoint light (Group.mem_inState.mp default).1 day
  rw [turnOnDefaultLights, receive_sendAll, if_neg other]

end Commands

variable [DecidableEq Item]

open NightMode

theorem execute_lights (groups : LightGroups Item) (s : NightMode Item) :
    (s.execute groups).lights =
      receive s.lights (virtualSwitch5 groups s.running s.lights).commands := by
  rw [NightMode.execute]
  cases (virtualSwitch5 groups s.running s.lights).timer <;> rfl

/-- With some light on and no timer running, the night commands are the script's or none. -/
theorem lit_without_timer (groups : LightGroups Item) (states : Item → SwitchState)
    (lit : groups.lights.Lit states) :
    groups.lights.Lit (receive states (virtualSwitch5 groups none states).commands) ↔
      KeepsLight groups none states := by
  have someOn : ¬ (groups.lights.inState states .on).isEmpty := by
    rw [Group.isEmpty_inState_on]
    exact not_not_intro lit
  simp only [virtualSwitch5, if_neg someOn, KeepsLight, not_true_eq_false, lit, false_or]
  by_cases night : (groups.nightLights.inState states .on).isEmpty
  case pos =>
    have dark := Group.isEmpty_inState_on.mp night
    simp only [if_pos night, Group.Lit, receive_dayLights_off _ _ turnOnDefaultLights_dayLights,
      receive_turnOnDefaultLights]
    constructor
    · rintro ⟨light, inside, spared, on | ⟨default, off⟩⟩
      · exact Or.inl ⟨light, inside, spared, on⟩
      · exact Or.inr ⟨dark, light, default, off⟩
    · rintro (⟨light, inside, spared, on⟩ | ⟨-, light, default, off⟩)
      · exact ⟨light, inside, spared, Or.inl on⟩
      · exact ⟨light, groups.defaultLights_subset default,
          groups.defaultLights_disjoint light default, Or.inr ⟨default, off⟩⟩
  case neg =>
    have nightLit : groups.nightLights.Lit states := by
      rw [Group.isEmpty_inState_on] at night
      exact not_not.mp night
    simp only [if_neg night, Group.Lit, receive_dayLights_off [] _ fun _ _ => rfl, receive_nil]
    constructor
    · exact Or.inl
    · rintro (lights | ⟨dark, -⟩)
      · exact lights
      · exact absurd nightLit dark

/-- An execution leaves some light on exactly when `KeepsLight` holds before it. -/
theorem lit_after_smart_switch_iff (groups : LightGroups Item) (s : NightMode Item)
    (someDefault : groups.smartSwitchDefaultLights.members ≠ []) :
    groups.lights.Lit (s.execute groups).lights ↔ KeepsLight groups s.running s.lights := by
  rw [execute_lights]
  cases s.running with
  | some timer => exact lit_turnOnDefaultLights
  | none =>
    by_cases lit : groups.lights.Lit s.lights
    case pos => exact lit_without_timer groups s.lights lit
    case neg =>
      have dark : (groups.lights.inState s.lights .on).isEmpty :=
        Group.isEmpty_inState_on.mpr lit
      simp only [virtualSwitch5, if_pos dark, KeepsLight]
      exact ⟨fun _ => Or.inl lit, fun _ => lit_sendAll_defaultLights someDefault⟩

/-- The default light comes on if all lights are off, if only a day light is on, and if all are
    switched off while the timer runs. -/
theorem lit_after_smart_switch_thrice :
    let allOff : NightMode Light := start fun _ => .off
    let dayLight : NightMode Light := start fun light => if light = .light1 then .on else .off
    let darkened := { dayLight.execute mainLights with lights := fun _ => .off }
    mainLights.lights.Lit (allOff.execute mainLights).lights ∧
      mainLights.lights.Lit (dayLight.execute mainLights).lights ∧
      darkened.running = some 0 ∧ mainLights.lights.Lit (darkened.execute mainLights).lights := by
  intro allOff dayLight darkened
  have running : darkened.running = some 0 := rfl
  refine ⟨?_, ?_, running, ?_⟩
  · refine (lit_after_smart_switch_iff mainLights _ (by decide)).mpr (Or.inl ?_)
    rintro ⟨light, -, wrong⟩
    cases wrong
  · refine (lit_after_smart_switch_iff mainLights _ (by decide)).mpr (Or.inr (Or.inr ⟨?_, ?_⟩))
    · rintro ⟨light, night, on⟩
      cases light with
      | light1 => exact absurd night (by decide)
      | light2 | light3 | light4 => cases on
    · exact ⟨.light4, by decide, rfl⟩
  · refine (lit_after_smart_switch_iff mainLights _ (by decide)).mpr ?_
    rw [running]
    exact Or.inr ⟨.light4, by decide, rfl⟩

/-- The first day light on, the default light in no known state. -/
def onlyDayLight : Light → SwitchState
  | .light1 => .on
  | .light4 => .uninitialized
  | _ => .off

theorem dark_after_smart_switch :
    mainLights.smartSwitchDefaultLights.members ≠ [] ∧
      ¬ mainLights.lights.Lit ((start onlyDayLight).execute mainLights).lights := by
  refine ⟨by decide, ?_⟩
  rintro ⟨light, -, on⟩
  cases light <;> cases on

end HomeAutomation.OpenHab
