import HomeAutomation.Lib.Register
import HomeAutomation.Lib.Transition
import HomeAutomation.OpenHab.Items

/-! # The rule "Quick Set Heating Setpoint"

The user's selections and the updates posted by the rule reach
`Quick_Set_Heating_Setpoint` from two queues in any order; every change of the item
triggers an execution, and executions run one after another.  An execution tests the
state of the item, reads it, posts it to `Heating_Setpoint` and posts the reset, in
four steps.

A selection can be lost: a reset may overtake the execution that the selection has
triggered.  `Orderly` says when a reset does no harm, and in runs whose resets are
all orderly the last selection arrives.
-/

namespace HomeAutomation.OpenHab

open HomeAutomation.Lib HomeAutomation.Lib.Transition

/-! ## The rule on the event bus -/

/-- Where the execution under way stands; `read` holds the state it has read. -/
inductive QuickPc
  | idle
  | tested
  | read (state : NumberState)
  | posted
  deriving DecidableEq

/-- The numbers the user has selected are those that have been `applied`, followed by
    the `selections` on their way.  `unread` says that no execution has read the item
    since it changed to the number it holds. -/
structure QuickSet where
  applied : List ℚ
  selections : List ℚ
  quick : Register NumberState
  unread : Bool
  setpoint : Register NumberState
  triggered : Nat
  pc : QuickPc

inductive QuickLabel
  | select (value : ℚ)
  | applySelection
  | applyPosted
  | applySetpoint
  | advance
  deriving DecidableEq

namespace QuickSet

def start (setpoint : NumberState) : QuickSet where
  applied := []
  selections := []
  quick := Register.quiet .uninitialized
  unread := false
  setpoint := Register.quiet setpoint
  triggered := 0
  pc := .idle

/-- An update of `Quick_Set_Heating_Setpoint` triggers the rule if it is a change. -/
def become (quick : Register NumberState) (s : QuickSet) : QuickSet :=
  if quick.value = s.quick.value then { s with quick }
  else
    { s with
      quick
      unread := quick.value ≠ .uninitialized
      triggered := s.triggered + 1 }

/-- The next step of an execution, or the start of one that has been triggered. -/
def advance (s : QuickSet) : Option QuickSet :=
  match s.pc with
  | .idle =>
    match s.triggered with
    | 0 => none
    | triggered + 1 =>
      -- `Quick_Set_Heating_Setpoint.state instanceof DecimalType`
      if s.quick.value ≠ .uninitialized then some { s with triggered, pc := .tested }
      else some { s with triggered }
  -- the state is read again, and may have changed since the test
  | .tested => some { s with pc := .read s.quick.value, unread := false }
  | .read state => some { s with setpoint := s.setpoint.post state, pc := .posted }
  | .posted => some { s with quick := s.quick.post .uninitialized, pc := .idle }

def step (s : QuickSet) : QuickLabel → Option QuickSet
  | .select value => some { s with selections := s.selections ++ [value] }
  | .applySelection =>
    match s.selections with
    | [] => none
    | value :: selections =>
      some ({ s with applied := s.applied ++ [value], selections }.become
        { s.quick with value := .decimal value })
  | .applyPosted => s.quick.deliver.map fun quick => s.become quick
  | .applySetpoint => s.setpoint.deliver.map fun setpoint => { s with setpoint }
  | .advance => s.advance

def selected (s : QuickSet) : List ℚ := s.applied ++ s.selections

/-- No update and no execution is outstanding. -/
structure AtRest (s : QuickSet) : Prop where
  selections : s.selections = []
  quick : s.quick.queued = []
  setpoint : s.setpoint.queued = []
  triggered : s.triggered = 0
  pc : s.pc = .idle

/-- A reset is applied only when an execution has read the number the item holds, if
    it holds one, and no execution stands between its test and its read. -/
def Orderly (s : QuickSet) : QuickLabel → Prop
  | .applyPosted => s.unread = false ∧ s.pc ≠ .tested
  | _ => True

instance (s : QuickSet) (label : QuickLabel) : Decidable (s.Orderly label) := by
  cases label <;> unfold Orderly <;> infer_instance

/-- What `Heating_Setpoint` will hold once everything read so far has arrived. -/
def upcoming (s : QuickSet) : NumberState :=
  match s.pc with
  | .read state => state
  | _ => s.setpoint.settled

/-- A reset is queued, or an execution under way will post one. -/
def ResetComing (s : QuickSet) : Prop :=
  match s.pc with
  | .read _ | .posted => True
  | _ => s.quick.queued ≠ []

end QuickSet

/-! ## The invariant -/

open QuickSet

/-- A number the item holds is the selection applied last.  While it is unread, an
    execution is about to read it; after that the setpoint is about to take it, and a
    reset is coming. -/
structure Kept (s : QuickSet) : Prop where
  resets : ∀ state ∈ s.quick.queued, state = .uninitialized
  holds : ∀ number, s.quick.value = .decimal number → s.applied.getLast? = some number
  tested : s.pc = .tested → s.quick.value ≠ .uninitialized
  awaited : s.unread = true → s.quick.value ≠ .uninitialized ∧ (0 < s.triggered ∨ s.pc = .tested)
  reset : s.unread = false → s.quick.value ≠ .uninitialized → s.pc = .tested ∨ s.ResetComing
  passed : s.unread = false → ∀ number, s.applied.getLast? = some number →
    s.upcoming = .decimal number

theorem kept_start (setpoint : NumberState) : Kept (start setpoint) where
  resets _ member := by cases member
  holds _ wrong := by cases wrong
  tested wrong := by cases wrong
  awaited wrong := by cases wrong
  reset _ held := absurd rfl held
  passed _ _ wrong := by cases wrong

theorem Kept.select {s : QuickSet} (kept : Kept s) (value : ℚ) :
    Kept { s with selections := s.selections ++ [value] } :=
  ⟨kept.resets, kept.holds, kept.tested, kept.awaited, kept.reset, kept.passed⟩

theorem Kept.applySelection {s : QuickSet} (kept : Kept s) (value : ℚ) (selections : List ℚ) :
    Kept ({ s with applied := s.applied ++ [value], selections }.become
      { s.quick with value := .decimal value }) := by
  have last : (s.applied ++ [value]).getLast? = some value := List.getLast?_concat
  unfold become
  split
  case isTrue same =>
    -- the item held the number already, so it was the one applied before
    dsimp only at same
    have previous : s.applied.getLast? = some value := kept.holds value same.symm
    have unchanged : { s.quick with value := NumberState.decimal value } = s.quick := by rw [same]
    rw [unchanged]
    refine ⟨kept.resets, fun number held => ?_, kept.tested, kept.awaited, kept.reset, ?_⟩
    · rw [last, ← previous]
      exact kept.holds number held
    · intro read number lastNumber
      refine kept.passed read number ?_
      rw [previous, ← last]
      exact lastNumber
  case isFalse =>
    refine ⟨kept.resets, ?_, fun _ => NumberState.noConfusion, fun _ => ⟨NumberState.noConfusion,
      Or.inl (Nat.succ_pos _)⟩, fun wrong => ?_, fun wrong => ?_⟩
    · intro number held
      cases held
      exact last
    · cases wrong
    · cases wrong

theorem Kept.applyPosted {s : QuickSet} (kept : Kept s) (orderly : s.Orderly .applyPosted)
    {quick : Register NumberState} (delivered : s.quick.deliver = some quick) :
    Kept (s.become quick) := by
  obtain ⟨read, untested⟩ := orderly
  have queue := Register.deliver_eq_some delivered
  have value : quick.value = .uninitialized := kept.resets quick.value (by simp [queue])
  have rest : ∀ state ∈ quick.queued, state = .uninitialized := by
    intro state member
    exact kept.resets state (by simp [queue, member])
  unfold become
  split
  case isTrue same =>
    refine ⟨rest, ?_, fun tested => absurd tested untested, fun wrong => ?_, ?_, kept.passed⟩
    · intro number held
      rw [value] at held
      cases held
    · rw [read] at wrong
      cases wrong
    · exact fun _ held => absurd value held
  case isFalse =>
    -- the reset is a change itself, and triggers an execution that finds nothing
    have unread : decide (quick.value ≠ .uninitialized) = false := by simp [value]
    refine ⟨rest, ?_, fun tested => absurd tested untested, fun wrong => ?_, ?_, ?_⟩
    · intro number held
      rw [value] at held
      cases held
    · rw [unread] at wrong
      cases wrong
    · exact fun _ held => absurd value held
    · exact fun _ number last => kept.passed read number last

theorem Kept.applySetpoint {s : QuickSet} (kept : Kept s) {setpoint : Register NumberState}
    (delivered : s.setpoint.deliver = some setpoint) : Kept { s with setpoint } := by
  refine ⟨kept.resets, kept.holds, kept.tested, kept.awaited, kept.reset, ?_⟩
  intro read number last
  have passed := kept.passed read number last
  unfold upcoming at passed ⊢
  rw [Register.settled_deliver delivered]
  exact passed

theorem Kept.advance {s next : QuickSet} (kept : Kept s) (advanced : s.advance = some next) :
    Kept next := by
  have passed := kept.passed
  unfold upcoming at passed
  unfold QuickSet.advance at advanced
  cases here : s.pc with
  | idle =>
    rw [here] at advanced passed
    cases triggered : s.triggered with
    | zero =>
      rw [triggered] at advanced
      cases advanced
    | succ rest =>
      simp only [triggered] at advanced
      split at advanced
      case isTrue held =>
        cases advanced
        exact ⟨kept.resets, kept.holds, fun _ => held, fun _ => ⟨held, Or.inr rfl⟩,
          fun _ _ => Or.inl rfl, passed⟩
      case isFalse empty =>
        cases advanced
        have uninitialized : s.quick.value = .uninitialized := not_not.mp empty
        refine ⟨kept.resets, kept.holds, fun wrong => ?_, fun unread => ?_, ?_, passed⟩
        · cases wrong
        · exact absurd uninitialized (kept.awaited unread).1
        · exact fun _ held => absurd uninitialized held
  | tested =>
    rw [here] at advanced
    cases advanced
    -- the execution reads the number, which is the selection applied last
    have held := kept.tested here
    refine ⟨kept.resets, kept.holds, fun wrong => ?_, fun wrong => ?_, fun _ _ => Or.inr trivial, ?_⟩
    · cases wrong
    · cases wrong
    · intro _ number last
      cases value : s.quick.value with
      | uninitialized => exact absurd value held
      | decimal other =>
        have same := (kept.holds other value).symm.trans last
        cases same
        rfl
  | read state =>
    rw [here] at advanced passed
    cases advanced
    refine ⟨kept.resets, kept.holds, fun wrong => ?_, fun unread => ?_, fun _ _ => Or.inr trivial, ?_⟩
    · cases wrong
    · -- a number applied meanwhile has triggered an execution of its own
      obtain ⟨held, coming⟩ := kept.awaited unread
      rw [here] at coming
      exact ⟨held, coming.imp_right fun wrong => by cases wrong⟩
    · intro read number last
      exact (Register.settled_post s.setpoint state).trans (passed read number last)
  | posted =>
    rw [here] at advanced passed
    cases advanced
    refine ⟨fun state member => ?_, kept.holds, fun wrong => ?_, fun unread => ?_, ?_, passed⟩
    · rcases List.mem_append.mp member with before | now
      · exact kept.resets state before
      · exact List.mem_singleton.mp now
    · cases wrong
    · obtain ⟨held, coming⟩ := kept.awaited unread
      rw [here] at coming
      exact ⟨held, coming.imp_right fun wrong => by cases wrong⟩
    · exact fun _ _ => Or.inr (List.append_ne_nil_of_right_ne_nil _ (List.cons_ne_nil _ _))

theorem Kept.step {s next : QuickSet} {label : QuickLabel} (orderly : s.Orderly label)
    (kept : Kept s) (stepped : s.step label = some next) : Kept next := by
  cases label with
  | select value =>
    cases stepped
    exact kept.select value
  | applySelection =>
    simp only [QuickSet.step] at stepped
    split at stepped
    · cases stepped
    · rename_i value selections _
      cases stepped
      exact kept.applySelection value selections
  | applyPosted =>
    obtain ⟨quick, delivered, rfl⟩ := Option.map_eq_some_iff.mp stepped
    exact kept.applyPosted orderly delivered
  | applySetpoint =>
    obtain ⟨setpoint, delivered, rfl⟩ := Option.map_eq_some_iff.mp stepped
    exact kept.applySetpoint delivered
  | advance => exact kept.advance stepped

/-! ## The last selection -/

/-- At rest, after runs whose resets are all orderly, the setpoint is the number
    selected last, and the item it was selected with is reset. -/
theorem last_selection_kept (setpoint : NumberState) (labels : List QuickLabel) (s : QuickSet)
    (reached : run QuickSet.step (start setpoint) labels = some s)
    (orderly : Along QuickSet.step Orderly (start setpoint) labels) (rest : s.AtRest)
    (nonempty : s.selected ≠ []) :
    s.setpoint.value = .decimal (s.selected.getLast nonempty) ∧
      s.quick.value = .uninitialized := by
  have kept : Kept s :=
    run_invariant_along Kept (fun _ _ _ meets kept stepped => kept.step meets stepped)
      (kept_start setpoint) orderly reached
  have read : s.unread = false := by
    by_contra unread
    rcases (kept.awaited (Bool.eq_true_of_not_eq_false unread)).2 with triggered | tested
    · rw [rest.triggered] at triggered
      cases triggered
    · rw [rest.pc] at tested
      cases tested
  constructor
  · have last : s.applied.getLast? = some (s.selected.getLast nonempty) := by
      have all : s.selected = s.applied := by rw [selected, rest.selections, List.append_nil]
      rw [← List.getLast?_eq_some_getLast, all]
    have passed := kept.passed read _ last
    rw [upcoming, rest.pc] at passed
    rw [← Register.settled_of_queued_nil rest.setpoint]
    exact passed
  · by_contra held
    rcases kept.reset read held with tested | coming
    · rw [rest.pc] at tested
      cases tested
    · rw [ResetComing, rest.pc] at coming
      exact coming rest.quick

/-- 22 degrees are selected while the execution for 5 degrees is under way; its reset is applied
    when the second execution has read them. -/
def twoSelections : List QuickLabel :=
  [.select 5, .applySelection, .advance, .advance, .select 22, .advance, .applySelection, .advance,
    .applySetpoint, .advance, .advance, .applyPosted, .advance, .applySetpoint, .advance,
    .applyPosted, .advance]

/-- While the reset for 5 degrees is on its way, 22 degrees are selected, and reset
    before the execution they trigger has read them. -/
def selectionBeforeReset : List QuickLabel :=
  [.select 5, .applySelection, .advance, .advance, .advance, .advance, .applySetpoint,
    .select 22, .applySelection, .applyPosted, .advance, .advance]

theorem last_selection_kept_twoSelections :
    ∃ s, run QuickSet.step (start .uninitialized) twoSelections = some s ∧
      s.setpoint.value = .decimal 22 ∧ s.quick.value = .uninitialized := by
  refine ⟨_, rfl, ?_⟩
  exact last_selection_kept .uninitialized twoSelections _ rfl (by decide +kernel)
    ⟨rfl, rfl, rfl, rfl, rfl⟩ (by decide +kernel)

/-- In the second run the selection of 22 degrees is lost. -/
theorem last_selection_lost :
    ¬ ∀ (setpoint : NumberState) (labels : List QuickLabel) (s : QuickSet),
      run QuickSet.step (start setpoint) labels = some s → s.AtRest →
      ∀ nonempty : s.selected ≠ [],
        s.setpoint.value = .decimal (s.selected.getLast nonempty) ∧
          s.quick.value = .uninitialized := by
  intro kept
  have setpoint := (kept .uninitialized selectionBeforeReset _ rfl ⟨rfl, rfl, rfl, rfl, rfl⟩
    (by decide +kernel)).1
  exact absurd setpoint (by decide +kernel)

end HomeAutomation.OpenHab
