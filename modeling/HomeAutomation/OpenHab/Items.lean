import HomeAutomation.Lib.Updates
import Mathlib.Algebra.Order.Ring.Rat

/-! # Items of the home server

The states of switch and number items, the commands that rules send, and groups of
items.  Rules read the states as they are when they run; `receive` is what their
commands do to the states once they have been processed.
-/

namespace HomeAutomation.OpenHab

open HomeAutomation.Lib.Updates

/-- `OnOffType` -/
inductive OnOff
  | on
  | off
  deriving DecidableEq

inductive SwitchState
  | on
  | off
  | uninitialized
  deriving DecidableEq

/-- `decimal` is an instance of `DecimalType`. -/
inductive NumberState
  | decimal (value : ℚ)
  | uninitialized
  deriving DecidableEq

def OnOff.state : OnOff → SwitchState
  | .on => .on
  | .off => .off

/-- The members of a group item. -/
structure Group (Item : Type*) where
  members : List Item
  distinct : members.Nodup

variable {Item : Type*} [DecidableEq Item]

/-- The members with a given state, as `members.filter` returns them. -/
def Group.inState (group : Group Item) (states : Item → SwitchState) (state : SwitchState) :
    List Item :=
  group.members.filter (fun item => states item = state)

omit [DecidableEq Item] in
theorem Group.mem_inState {group : Group Item} {states : Item → SwitchState} {state : SwitchState}
    {item : Item} : item ∈ group.inState states state ↔
      item ∈ group.members ∧ states item = state := by
  simp [Group.inState]

/-- `items.forEach( item| item.sendCommand(command) )` -/
def sendAll (items : List Item) (command : OnOff) : List (Item × OnOff) :=
  items.map (·, command)

omit [DecidableEq Item] in
theorem mem_sendAll {items : List Item} {command sent : OnOff} {item : Item} :
    (item, sent) ∈ sendAll items command ↔ sent = command ∧ item ∈ items := by
  rw [sendAll, List.mem_map]
  constructor
  · rintro ⟨member, inside, same⟩
    cases same
    exact ⟨rfl, inside⟩
  · rintro ⟨rfl, inside⟩
    exact ⟨item, inside, rfl⟩

def receive (states : Item → SwitchState) (commands : List (Item × OnOff)) : Item → SwitchState :=
  assign states (commands.map fun (item, command) => (item, command.state))

@[simp] theorem receive_nil (states : Item → SwitchState) : receive states [] = states := rfl

theorem receive_append (states : Item → SwitchState) (first second : List (Item × OnOff)) :
    receive states (first ++ second) = receive (receive states first) second := by
  rw [receive, List.map_append, assign_append]
  rfl

theorem receive_sendAll (states : Item → SwitchState) (items : List Item) (command : OnOff)
    (item : Item) : receive states (sendAll items command) item =
      if item ∈ items then command.state else states item := by
  rw [receive, sendAll, List.map_map]
  exact assign_map_const states items command.state item

end HomeAutomation.OpenHab
