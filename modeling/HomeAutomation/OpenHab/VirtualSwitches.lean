import HomeAutomation.Lib.Register
import HomeAutomation.Lib.Transition
import HomeAutomation.OpenHab.Items
import Mathlib.Algebra.Ring.Parity

/-! # The rules "Virtual_Switch_1" to "Virtual_Switch_3"

Each change of a virtual switch triggers an execution of its rule.  An execution
reads the state of the light and later sends a command, which is queued and reaches
the light later still; executions may overlap.  A light ends up as the number of
changes says exactly when an even number of commands were decided on a stale state.
-/

namespace HomeAutomation.OpenHab

open HomeAutomation.Lib HomeAutomation.Lib.Transition

/-! ## The rules -/

inductive ToggledItem
  | light1
  | light2
  | light3
  | anounceTime
  deriving DecidableEq

structure SwitchRule where
  item : ToggledItem
  command : SwitchState → OnOff

def togglingRule (item : ToggledItem) : SwitchRule where
  item
  command state := if state = .on then .off else .on

def virtualSwitch1 : SwitchRule := togglingRule .light1
def virtualSwitch2 : SwitchRule := togglingRule .light2
def virtualSwitch3 : SwitchRule := togglingRule .light3
def virtualSwitch4 : SwitchRule := togglingRule .anounceTime

/-! ## The event bus -/

/-- A command, with the state its execution had read, and the state the commands sent
    before it leave the item in. -/
structure Sent where
  command : OnOff
  read : SwitchState
  latest : SwitchState
  deriving DecidableEq

/-- `waiting` executions have been triggered and not started; those under way are
    known by the states they have read. -/
structure SwitchBus where
  items : ToggledItem → Register SwitchState
  waiting : Nat
  running : List SwitchState
  sent : List Sent

inductive SwitchLabel
  | change
  | read
  | send (execution : Nat)
  | process (item : ToggledItem)
  deriving DecidableEq

namespace SwitchBus

def quiet (initial : ToggledItem → SwitchState) : SwitchBus where
  items item := Register.quiet (initial item)
  waiting := 0
  running := []
  sent := []

/-- `item.sendCommand(...)` in an execution that has read `state`. -/
def sendCommand (rule : SwitchRule) (state : SwitchState) (bus : SwitchBus) : SwitchBus :=
  let command := rule.command state
  let light := bus.items rule.item
  { bus with
    items := Function.update bus.items rule.item (light.post command.state)
    sent := bus.sent ++ [⟨command, state, light.settled⟩] }

def step (rule : SwitchRule) (bus : SwitchBus) : SwitchLabel → Option SwitchBus
  | .change => some { bus with waiting := bus.waiting + 1 }
  | .read =>
    match bus.waiting with
    | 0 => none
    | waiting + 1 =>
      some { bus with waiting, running := bus.running ++ [(bus.items rule.item).value] }
  | .send execution =>
    bus.running[execution]?.map fun state =>
      { bus with running := bus.running.eraseIdx execution }.sendCommand rule state
  | .process item =>
    (bus.items item).deliver.map fun light =>
      { bus with items := Function.update bus.items item light }

/-- Nothing is triggered, under way or queued for the light. -/
structure AtRest (rule : SwitchRule) (bus : SwitchBus) : Prop where
  waiting : bus.waiting = 0
  running : bus.running = []
  queued : (bus.items rule.item).queued = []

@[simp] theorem items_sendCommand (rule : SwitchRule) (state : SwitchState) (bus : SwitchBus) :
    (bus.sendCommand rule state).items rule.item =
      (bus.items rule.item).post (rule.command state).state :=
  Function.update_self _ _ _

@[simp] theorem sent_sendCommand (rule : SwitchRule) (state : SwitchState) (bus : SwitchBus) :
    (bus.sendCommand rule state).sent =
      bus.sent ++ [⟨rule.command state, state, (bus.items rule.item).settled⟩] := rfl

@[simp] theorem running_sendCommand (rule : SwitchRule) (state : SwitchState) (bus : SwitchBus) :
    (bus.sendCommand rule state).running = bus.running := rfl

@[simp] theorem waiting_sendCommand (rule : SwitchRule) (state : SwitchState) (bus : SwitchBus) :
    (bus.sendCommand rule state).waiting = bus.waiting := rfl

end SwitchBus

/-- Commands decided on a state that earlier commands had already changed. -/
def staleSends (sent : List Sent) : Nat := sent.countP fun command => command.read ≠ command.latest

theorem staleSends_snoc (sent : List Sent) (last : Sent) :
    staleSends (sent ++ [last]) = staleSends sent + if last.read = last.latest then 0 else 1 := by
  rw [staleSends, List.countP_append, List.countP_singleton]
  by_cases fresh : last.read = last.latest
  · simp [fresh, staleSends]
  · simp [fresh, staleSends]

/-! ## The invariant -/

open SwitchBus

/-- A light is known to be on or off, and so is everything that is queued for it or
    has been read from it.  Its state once the queue is empty is the initial one,
    toggled by every command but the stale ones. -/
structure Toggled (rule : SwitchRule) (initial : SwitchState) (labels : List SwitchLabel)
    (bus : SwitchBus) : Prop where
  value : (bus.items rule.item).value ≠ .uninitialized
  queued : ∀ state ∈ (bus.items rule.item).queued, state ≠ .uninitialized
  running : ∀ state ∈ bus.running, state ≠ .uninitialized
  settled : (bus.items rule.item).settled = .on ↔
    (initial = .on ↔ Even (bus.sent.length + staleSends bus.sent))
  changes : labels.count .change = bus.waiting + bus.running.length + bus.sent.length

theorem toggled_quiet (rule : SwitchRule) {initial : ToggledItem → SwitchState}
    (known : initial rule.item ≠ .uninitialized) :
    Toggled rule (initial rule.item) [] (quiet initial) where
  value := known
  queued _ member := by cases member
  running _ member := by cases member
  settled := by
    have nothing : Even (0 + 0) := ⟨0, rfl⟩
    exact ⟨fun on => ⟨fun _ => nothing, fun _ => on⟩, fun same => same.mpr nothing⟩
  changes := rfl

section Steps

variable {rule : SwitchRule} {initial : SwitchState} {labels : List SwitchLabel} {bus : SwitchBus}

theorem Toggled.settled_known (toggled : Toggled rule initial labels bus) :
    (bus.items rule.item).settled ≠ .uninitialized := by
  rw [Register.settled]
  rcases List.eq_nil_or_concat' (bus.items rule.item).queued with empty | ⟨front, last, queued⟩
  · rw [empty]
    exact toggled.value
  · rw [queued, List.getLastD_concat]
    exact toggled.queued last (by simp [queued])

theorem Toggled.change (toggled : Toggled rule initial labels bus) :
    Toggled rule initial (labels ++ [.change]) { bus with waiting := bus.waiting + 1 } where
  value := toggled.value
  queued := toggled.queued
  running := toggled.running
  settled := toggled.settled
  changes := by
    have changes := toggled.changes
    rw [List.count_append, List.count_singleton_self, changes]
    dsimp only
    omega

theorem Toggled.read (toggled : Toggled rule initial labels bus) {waiting : Nat}
    (triggered : bus.waiting = waiting + 1) :
    Toggled rule initial (labels ++ [.read])
      { bus with waiting, running := bus.running ++ [(bus.items rule.item).value] } where
  value := toggled.value
  queued := toggled.queued
  running state member := by
    rcases List.mem_append.mp member with before | now
    · exact toggled.running state before
    · rw [List.mem_singleton.mp now]
      exact toggled.value
  settled := toggled.settled
  changes := by
    have changes := toggled.changes
    rw [List.count_append, changes, triggered]
    simp only [List.length_append, List.length_singleton]
    have other : [SwitchLabel.read].count .change = 0 := rfl
    omega

/-- Of two known states, the first is on exactly when the second is not, if they
    differ. -/
theorem on_iff_of_ne {first second : SwitchState} (firstKnown : first ≠ .uninitialized)
    (secondKnown : second ≠ .uninitialized) (differs : first ≠ second) :
    first = .on ↔ second ≠ .on := by
  cases first <;> cases second <;> simp_all

theorem command_on_iff (item : ToggledItem) (state : SwitchState) :
    ((togglingRule item).command state).state = .on ↔ state ≠ .on := by
  by_cases on : state = .on
  · simp [togglingRule, on, OnOff.state]
  · simp [togglingRule, on, OnOff.state]

theorem Toggled.send (toggled : Toggled rule initial labels bus) {item : ToggledItem}
    (toggling : rule = togglingRule item) {execution : Nat} {state : SwitchState}
    (underWay : bus.running[execution]? = some state) :
    Toggled rule initial (labels ++ [.send execution])
      ({ bus with running := bus.running.eraseIdx execution }.sendCommand rule state) where
  value := by
    rw [items_sendCommand, Register.value_post]
    exact toggled.value
  queued other member := by
    rw [items_sendCommand, Register.queued_post, List.mem_append, List.mem_singleton] at member
    rcases member with before | rfl
    · exact toggled.queued other before
    · cases rule.command state <;> exact SwitchState.noConfusion
  running other member := toggled.running other (List.mem_of_mem_eraseIdx member)
  settled := by
    have known : state ≠ .uninitialized := toggled.running state (List.mem_of_getElem? underWay)
    have before := toggled.settled
    have decided : (rule.command state).state = .on ↔ state ≠ .on := by
      rw [toggling]
      exact command_on_iff item state
    rw [items_sendCommand, Register.settled_post, decided, sent_sendCommand, staleSends_snoc,
      List.length_append, List.length_singleton]
    dsimp only
    by_cases fresh : state = (bus.items rule.item).settled
    · -- a command decided on the latest state toggles the light
      rw [if_pos fresh, Nat.add_zero, Nat.add_right_comm, Nat.even_add_one, fresh, ne_eq, before]
      tauto
    · -- any other one leaves the light as the command before it
      have opposite := on_iff_of_ne known toggled.settled_known fresh
      rw [if_neg fresh, Nat.add_add_add_comm, Nat.even_add_one, Nat.even_add_one, not_not, ← before,
        ne_eq, opposite, not_not]
  changes := by
    have changes := toggled.changes
    obtain ⟨inside, -⟩ := List.getElem?_eq_some_iff.mp underWay
    have other : [SwitchLabel.send execution].count .change = 0 := rfl
    rw [List.count_append, changes, other, sent_sendCommand, running_sendCommand,
      waiting_sendCommand, List.length_append, List.length_singleton, List.length_eraseIdx,
      if_pos inside]
    dsimp only
    omega

theorem Toggled.process (toggled : Toggled rule initial labels bus) {item : ToggledItem}
    {light : Register SwitchState} (delivered : (bus.items item).deliver = some light) :
    Toggled rule initial (labels ++ [.process item])
      { bus with items := Function.update bus.items item light } := by
  have changes : (labels ++ [SwitchLabel.process item]).count .change =
      bus.waiting + bus.running.length + bus.sent.length := by
    rw [List.count_append, toggled.changes]
    rfl
  by_cases same : rule.item = item
  · subst same
    have queue := Register.deliver_eq_some delivered
    have known : light.value ≠ .uninitialized := toggled.queued light.value (by simp [queue])
    have settled := Register.settled_deliver delivered
    refine ⟨?_, fun state member => toggled.queued state ?_, toggled.running, ?_, changes⟩
    · simpa using known
    · have later : state ∈ light.queued := by simpa using member
      rw [queue]
      exact List.mem_cons_of_mem light.value later
    · simpa [settled] using toggled.settled
  · have untouched : Function.update bus.items item light rule.item = bus.items rule.item :=
      Function.update_of_ne same light bus.items
    refine ⟨?_, ?_, toggled.running, ?_, changes⟩
    · simpa [untouched] using toggled.value
    · simpa [untouched] using toggled.queued
    · simpa [untouched] using toggled.settled

theorem Toggled.step (toggled : Toggled rule initial labels bus) {item : ToggledItem}
    (toggling : rule = togglingRule item) {label : SwitchLabel} {next : SwitchBus}
    (stepped : bus.step rule label = some next) :
    Toggled rule initial (labels ++ [label]) next := by
  cases label with
  | change =>
    cases stepped
    exact toggled.change
  | read =>
    cases triggered : bus.waiting with
    | zero => simp [SwitchBus.step, triggered] at stepped
    | succ waiting =>
      simp only [SwitchBus.step, triggered, Option.some.injEq] at stepped
      subst stepped
      exact toggled.read triggered
  | send execution =>
    obtain ⟨state, underWay, rfl⟩ := Option.map_eq_some_iff.mp stepped
    exact toggled.send toggling underWay
  | process other =>
    obtain ⟨light, delivered, rfl⟩ := Option.map_eq_some_iff.mp stepped
    exact toggled.process delivered

end Steps

/-! ## Lights and changes -/

/-- A parity argument: the two counts differ by an even number. -/
theorem on_iff_expected {initial settled : SwitchState} (known : initial ≠ .uninitialized)
    {changes stale : Nat} (tracked : settled = .on ↔ (initial = .on ↔ Even (changes + stale))) :
    (settled = .on ↔ (initial = .on ∧ Even changes ∨ initial = .off ∧ Odd changes)) ↔
      Even stale := by
  rw [tracked, Nat.even_add, ← Nat.not_even_iff_odd]
  cases initial with
  | uninitialized => exact absurd rfl known
  | on => simp only [reduceCtorEq, true_and, true_iff, false_and, or_false]; tauto
  | off => simp only [reduceCtorEq, false_and, false_iff, true_and, false_or]; tauto

/-- Once everything is at rest, the light of a virtual switch is what the number of
    changes says exactly when an even number of the commands were sent by executions
    that had read another state than the one the light was last commanded to. -/
theorem toggles_iff (rule : SwitchRule)
    (listed : rule = virtualSwitch1 ∨ rule = virtualSwitch2 ∨ rule = virtualSwitch3)
    (initial : ToggledItem → SwitchState) (known : initial rule.item ≠ .uninitialized)
    (labels : List SwitchLabel) (bus : SwitchBus)
    (reached : run (SwitchBus.step rule) (quiet initial) labels = some bus)
    (rest : bus.AtRest rule) :
    ((bus.items rule.item).value = .on ↔
        (initial rule.item = .on ∧ Even (labels.count .change) ∨
          initial rule.item = .off ∧ Odd (labels.count .change))) ↔
      Even (staleSends bus.sent) := by
  have toggling : ∃ item, rule = togglingRule item := by
    rcases listed with rfl | rfl | rfl
    · exact ⟨_, rfl⟩
    · exact ⟨_, rfl⟩
    · exact ⟨_, rfl⟩
  obtain ⟨item, toggling⟩ := toggling
  have toggled : Toggled rule (initial rule.item) labels bus :=
    run_induction (Toggled rule (initial rule.item)) (toggled_quiet rule known)
      (fun _ _ _ _ _ toggled stepped => toggled.step toggling stepped) reached
  have changes := toggled.changes
  rw [rest.waiting, rest.running, List.length_nil, Nat.zero_add] at changes
  rw [← Register.settled_of_queued_nil rest.queued, changes]
  exact on_iff_expected known toggled.settled

/-- Two changes, the second one after the command of the first has arrived. -/
def oneAfterTheOther : List SwitchLabel :=
  [.change, .read, .send 0, .process .light1, .change, .read, .send 0, .process .light1]

/-- Two changes, both read before the first command has arrived. -/
def bothReadFirst : List SwitchLabel :=
  [.change, .change, .read, .send 0, .read, .send 0, .process .light1, .process .light1]

theorem toggles_iff_oneAfterTheOther :
    ∃ bus, run (SwitchBus.step virtualSwitch1) (quiet fun _ => .off) oneAfterTheOther = some bus ∧
      bus.AtRest virtualSwitch1 ∧
      ((bus.items .light1).value = .on ↔
        (SwitchState.off = .on ∧ Even (oneAfterTheOther.count .change) ∨
          SwitchState.off = .off ∧ Odd (oneAfterTheOther.count .change))) := by
  refine ⟨_, rfl, ⟨rfl, rfl, rfl⟩, ?_⟩
  exact (toggles_iff virtualSwitch1 (Or.inl rfl) (fun _ => .off) (by decide) oneAfterTheOther _ rfl
    ⟨rfl, rfl, rfl⟩).mpr (by decide)

/-- In the second run the light ends up on after an even number of changes. -/
theorem toggle_lost :
    ¬ ∀ (rule : SwitchRule),
      rule = virtualSwitch1 ∨ rule = virtualSwitch2 ∨ rule = virtualSwitch3 →
      ∀ (initial : ToggledItem → SwitchState), initial rule.item ≠ .uninitialized →
      ∀ (labels : List SwitchLabel) (bus : SwitchBus),
      run (SwitchBus.step rule) (quiet initial) labels = some bus → bus.AtRest rule →
      ((bus.items rule.item).value = .on ↔
        (initial rule.item = .on ∧ Even (labels.count .change) ∨
          initial rule.item = .off ∧ Odd (labels.count .change))) := by
  intro kept
  have expected := kept virtualSwitch1 (Or.inl rfl) (fun _ => .off) (by decide) bothReadFirst _ rfl
    ⟨rfl, rfl, rfl⟩
  exact absurd (expected.mp rfl) (by decide)

end HomeAutomation.OpenHab
