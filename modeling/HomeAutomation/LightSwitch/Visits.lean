import HomeAutomation.LightSwitch.Discipline
import Mathlib.Data.List.Induction

/-! # What a visit does

A visit of a button adds one of six blocks to the history.  The flag of a button is up
exactly while it is held, as far as the sketch has seen: it has sent a request and not
read the pin high since.
-/

namespace HomeAutomation.LightSwitch

open HomeAutomation.Lib.History HomeAutomation.Lib.WrapClock Sketch

variable {n : Nat}

/-! ## The two conditions -/

theorem checkReleased_cases (i : Fin n) (s : Sketch n) :
    (s.buttonWasPressed i = false ∧ s.checkReleased i = s) ∨
      (s.buttonWasPressed i = true ∧ ∃ seen, s.now ≤ seen ∧ seen = (s.checkReleased i).now ∧
        (((s.checkReleased i).history = s.history ++ [.read i .low seen] ∧
            (s.checkReleased i).buttonWasPressed = s.buttonWasPressed) ∨
          ((s.checkReleased i).history = s.history ++ [.read i .high seen, .led .low] ∧
            (s.checkReleased i).buttonWasPressed =
              Function.update s.buttonWasPressed i false))) := by
  cases flag : s.buttonWasPressed i with
  | false =>
    refine Or.inl ⟨rfl, ?_⟩
    simp [checkReleased, flag]
  | true =>
    refine Or.inr ⟨rfl, s.wait.now, now_le_wait s, ?_⟩
    cases level : s.answers.head.level with
    | low => simp [checkReleased, flag, digitalRead, level]
    | high => simp [checkReleased, flag, digitalRead, level, release, controlLed, log]

theorem checkPressed_cases (i : Fin n) (s : Sketch n) :
    (s.buttonWasPressed i = true ∧ s.checkPressed i = s) ∨
      (s.buttonWasPressed i = false ∧ ∃ seen, s.now ≤ seen ∧ seen ≤ (s.checkPressed i).now ∧
        (((s.checkPressed i).history = s.history ++ [.read i .high seen] ∧
            (s.checkPressed i).buttonWasPressed = s.buttonWasPressed) ∨
          ∃ start finish recorded, seen ≤ start ∧ start ≤ finish ∧
            finish ≤ (s.checkPressed i).now ∧
            (s.checkPressed i).history = s.history ++
              [.read i .low seen, .led .high, .request i start finish, .record recorded] ∧
            (s.checkPressed i).buttonWasPressed =
              Function.update s.buttonWasPressed i true)) := by
  cases flag : s.buttonWasPressed i with
  | true =>
    refine Or.inl ⟨rfl, ?_⟩
    simp [checkPressed, flag]
  | false =>
    refine Or.inr ⟨rfl, s.wait.now, now_le_wait s, ?_⟩
    cases level : s.answers.head.level with
    | high => simp [checkPressed, flag, digitalRead, level]
    | low =>
      have pressed : s.checkPressed i = (s.wait.log (.read i .low s.wait.now)).press i := by
        simp [checkPressed, flag, digitalRead, level]
      obtain ⟨start, finish, started, took, ended, history, flags, -⟩ :=
        press_spec i (s.wait.log (.read i .low s.wait.now))
      rw [pressed]
      refine ⟨(started.trans took).trans ended, Or.inr ?_⟩
      refine ⟨start, finish, ((s.wait.log (.read i .low s.wait.now)).press i).now, started, took,
        ended, ?_, flags⟩
      simp [history]

/-! ## A visit -/

/-- The block that a visit of `i` between two times adds, and the flags after it. -/
inductive Visited (i : Fin n) (flags : Fin n → Bool) (began ended : Nat) :
    List (Event n) → (Fin n → Bool) → Prop
  | closed (opened : Nat) : Visited i flags began ended [.gate i opened false] flags
  | idle (opened seen : Nat) (down : flags i = false) :
      Visited i flags began ended [.gate i opened true, .read i .high seen] flags
  | held (opened seen : Nat) (up : flags i = true) (afterBegin : began ≤ seen) :
      Visited i flags began ended [.gate i opened true, .read i .low seen] flags
  | released (opened seen : Nat) (up : flags i = true) :
      Visited i flags began ended [.gate i opened true, .read i .high seen, .led .low]
        (Function.update flags i false)
  | pressed (opened seen start finish recorded again : Nat) (down : flags i = false)
      (afterBegin : began ≤ seen) (started : seen ≤ start) (took : start ≤ finish)
      (readAgain : finish ≤ again) (beforeEnd : again ≤ ended) :
      Visited i flags began ended
        [.gate i opened true, .read i .low seen, .led .high, .request i start finish,
          .record recorded, .read i .low again]
        (Function.update flags i true)
  | tapped (opened seen start finish recorded again : Nat) (down : flags i = false)
      (afterBegin : began ≤ seen) (started : seen ≤ start) (took : start ≤ finish)
      (readAgain : finish ≤ again) (beforeEnd : again ≤ ended) :
      Visited i flags began ended
        [.gate i opened true, .read i .low seen, .led .high, .request i start finish,
          .record recorded, .read i .high again, .led .low]
        flags

/-- The second condition of a visit, after the first one has pressed. -/
theorem visited_of_pressed {i : Fin n} {s pressed : Sketch n} {began opened seen start finish
    recorded : Nat} (down : s.buttonWasPressed i = false) (afterBegin : began ≤ seen)
    (started : seen ≤ start) (took : start ≤ finish) (ended : finish ≤ pressed.now)
    (history : pressed.history = s.history ++ [.gate i opened true, .read i .low seen, .led .high,
      .request i start finish, .record recorded])
    (flags : pressed.buttonWasPressed = Function.update s.buttonWasPressed i true) :
    ∃ block, (pressed.checkReleased i).history = s.history ++ block ∧
      Visited i s.buttonWasPressed began (pressed.checkReleased i).now block
        (pressed.checkReleased i).buttonWasPressed := by
  rcases checkReleased_cases i pressed with ⟨notPressed, -⟩ | ⟨-, again, readAgain, last, levels⟩
  · rw [flags, Function.update_self] at notPressed
    cases notPressed
  · have beforeEnd : again ≤ (pressed.checkReleased i).now := Nat.le_of_eq last
    rcases levels with ⟨low, same⟩ | ⟨high, lowered⟩
    · rw [same, flags, low, history, List.append_assoc]
      exact ⟨_, rfl, .pressed opened seen start finish recorded again down afterBegin started took
        (ended.trans readAgain) beforeEnd⟩
    · have unchanged : (pressed.checkReleased i).buttonWasPressed = s.buttonWasPressed := by
        rw [lowered, flags, Function.update_idem, ← down, Function.update_eq_self]
      rw [unchanged, high, history, List.append_assoc]
      exact ⟨_, rfl, .tapped opened seen start finish recorded again down afterBegin started took
        (ended.trans readAgain) beforeEnd⟩

theorem visit_cases (i : Fin n) (s : Sketch n) :
    s.visit i = s.wait.log (.gate i s.wait.now false) ∨
      s.visit i = ((s.wait.log (.gate i s.wait.now true)).checkPressed i).checkReleased i := by
  by_cases gate : minimalDelay < s.wait.millis - s.wait.lastPressedAt
  case pos =>
    right
    simp only [visit, gate, decide_true, if_true]
  case neg =>
    left
    simp only [visit, gate, decide_false, Bool.false_eq_true, if_false]

theorem visited (i : Fin n) (s : Sketch n) :
    ∃ block, (s.visit i).history = s.history ++ block ∧
      Visited i s.buttonWasPressed s.now (s.visit i).now block (s.visit i).buttonWasPressed := by
  rcases visit_cases i s with closed | opened
  · rw [closed]
    exact ⟨_, rfl, .closed s.wait.now⟩
  · rw [opened]
    have waited := now_le_wait s
    rcases checkPressed_cases i (s.wait.log (.gate i s.wait.now true)) with
      ⟨up, skipped⟩ | ⟨down, seen, afterGate, beforeEnd, levels⟩
    · -- the flag is up: only the second condition reads the pin
      rw [skipped]
      rcases checkReleased_cases i (s.wait.log (.gate i s.wait.now true)) with
        ⟨down, -⟩ | ⟨-, seen, afterGate, -, levels⟩
      · rw [up] at down
        cases down
      · rcases levels with ⟨low, same⟩ | ⟨high, lowered⟩
        · rw [low, same]
          exact ⟨_, List.append_assoc _ _ _, .held s.wait.now seen up (waited.trans afterGate)⟩
        · rw [high, lowered]
          exact ⟨_, List.append_assoc _ _ _, .released s.wait.now seen up⟩
    · rcases levels with ⟨high, same⟩ |
        ⟨start, finish, recorded, started, took, ended, history, flags⟩
      · rcases checkReleased_cases i ((s.wait.log (.gate i s.wait.now true)).checkPressed i) with
          ⟨-, skipped⟩ | ⟨up, -⟩
        · rw [skipped, high, same]
          exact ⟨_, List.append_assoc _ _ _, .idle s.wait.now seen down⟩
        · rw [same, down] at up
          cases up
      · rw [history_log, List.append_assoc] at history
        exact visited_of_pressed down (waited.trans afterGate) started took ended history flags

theorem now_le_visit (i : Fin n) (s : Sketch n) : s.now ≤ (s.visit i).now := by
  have waited := now_le_wait s
  rcases visit_cases i s with closed | opened
  · rw [closed]
    exact waited
  · have pressed : s.wait.now ≤ ((s.wait.log (.gate i s.wait.now true)).checkPressed i).now := by
      rcases checkPressed_cases i (s.wait.log (.gate i s.wait.now true)) with
        ⟨-, skipped⟩ | ⟨-, seen, afterStart, beforeEnd, -⟩
      · rw [skipped]
        exact Nat.le_refl _
      · exact afterStart.trans beforeEnd
    have released := checkReleased_cases i ((s.wait.log (.gate i s.wait.now true)).checkPressed i)
    rw [opened]
    rcases released with ⟨-, skipped⟩ | ⟨-, seen, afterStart, last, -⟩
    · rw [skipped]
      exact waited.trans pressed
    · rw [← last]
      exact (waited.trans pressed).trans afterStart

/-! ## Held buttons -/

/-- What an event tells about a button: a request that it is held, a high reading that it
    is not. -/
def noticed (i : Fin n) : Event n → Option Bool
  | .request button _ _ => if button = i then some true else none
  | .read button .high _ => if button = i then some false else none
  | _ => none

/-- A request of the button has been sent, and its pin has not been read high since. -/
def Held (i : Fin n) (history : List (Event n)) : Prop := latest (noticed i) history = some true

instance (i : Fin n) (history : List (Event n)) : Decidable (Held i history) := by
  unfold Held
  infer_instance

theorem held_iff_not_answered (i : Fin n) (history : List (Event n)) :
    Held i history ↔ ¬ Answered (IsRequest i) (IsHigh i) history := by
  unfold Held
  induction history using List.reverseRecOn with
  | nil => simp [answered_nil]
  | append_singleton history event inductionHypothesis =>
    rw [latest_snoc]
    by_cases asked : IsRequest i event
    case pos =>
      have told : noticed i event = some true := by
        cases event <;> simp_all [IsRequest, noticed]
      have unanswered : ¬ Answered (IsRequest i) (IsHigh i) (history ++ [event]) :=
        not_answered_snoc history asked
      simp [told, unanswered]
    by_cases high : IsHigh i event
    case pos =>
      have told : noticed i event = some false := by
        cases event with
        | read button level time => cases level <;> simp_all [IsHigh, noticed]
        | _ => cases high
      have answered : Answered (IsRequest i) (IsHigh i) (history ++ [event]) :=
        answered_of_answer history high asked
      simp [told, answered]
    have told : noticed i event = none := by
      cases event with
      | request button start finish => simpa [noticed, IsRequest] using asked
      | read button level time => cases level <;> simp_all [noticed, IsHigh]
      | _ => rfl
    rw [told, answered_snoc_iff asked high]
    exact inductionHypothesis

/-- After a visit the flags are what its block tells about the buttons. -/
theorem Visited.flags {i : Fin n} {flags flags' : Fin n → Bool} {began ended : Nat}
    {block : List (Event n)} (visit : Visited i flags began ended block flags') (j : Fin n) :
    flags' j = (latest (noticed j) block).getD (flags j) := by
  by_cases same : i = j
  · subst same
    cases visit <;> simp [latest_cons, noticed, *]
  · have other : ¬ j = i := fun equal => same equal.symm
    cases visit <;> simp [latest_cons, noticed, same, other]

/-! ## Runs -/

/-- The blinking of `setup`. -/
def blinks : List (Event n) := (List.replicate 5 [.led .high, .led .low]).flatten

theorem setup_powerOn (answers : Stream' Answer) :
    ((powerOn answers : Sketch n).setup).history = blinks ∧
      ((powerOn answers : Sketch n).setup).buttonWasPressed = fun _ => false :=
  ⟨rfl, rfl⟩

/-- The flags are what the history tells about the buttons. -/
def Tracked (s : Sketch n) : Prop := ∀ i, s.buttonWasPressed i = true ↔ Held i s.history

theorem tracked_setup (answers : Stream' Answer) : Tracked (powerOn answers : Sketch n).setup := by
  intro i
  rw [(setup_powerOn answers).1, (setup_powerOn answers).2]
  simp [Held, latest_cons, noticed, blinks, List.replicate]

theorem Tracked.held_append {s : Sketch n} (tracked : Tracked s) (i : Fin n)
    (block : List (Event n)) :
    Held i (s.history ++ block) ↔
      (latest (noticed i) block).getD (s.buttonWasPressed i) = true := by
  rw [Held, latest_append]
  cases latest (noticed i) block with
  | none => exact (tracked i).symm
  | some held => simp

theorem Tracked.visit {s : Sketch n} (tracked : Tracked s) (i : Fin n) : Tracked (s.visit i) := by
  intro j
  obtain ⟨block, history, visit⟩ := visited i s
  rw [visit.flags j, history, tracked.held_append]

/-- What holds after `setup`, and is kept by waiting and by every visit, holds whenever
    `loop` returns. -/
theorem after_invariant {invariant : Sketch n → Prop}
    (base : ∀ answers, invariant (powerOn answers).setup)
    (delayed : ∀ s milliseconds, invariant s → invariant (s.delay milliseconds))
    (visited : ∀ i s, Tracked s → invariant s → invariant (s.visit i)) (answers : Stream' Answer)
    (passes : Nat) : invariant (Sketch.after answers passes) := by
  have both : Tracked (Sketch.after answers passes : Sketch n) ∧
      invariant (Sketch.after answers passes) := by
    induction passes with
    | zero => exact ⟨tracked_setup answers, base answers⟩
    | succ passes inductionHypothesis =>
      obtain ⟨tracked, holds⟩ := inductionHypothesis
      refine List.foldlRecOn (motive := fun s => Tracked s ∧ invariant s) _ _
        ⟨tracked, delayed _ 100 holds⟩ fun s kept i _ => ?_
      exact ⟨kept.1.visit i, visited i s kept.1 kept.2⟩
  exact both.2

end HomeAutomation.LightSwitch
