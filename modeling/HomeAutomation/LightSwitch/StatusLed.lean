import HomeAutomation.LightSwitch.Visits

/-! # The status LED

The LED is switched on at every press and off at every release.  So it shows whether
some button is held only until a button is released while another one is held: then it
goes dark, and stays so until the next press.
-/

namespace HomeAutomation.LightSwitch

open HomeAutomation.Lib.History Sketch

variable {n : Nat}

/-- The level written to `status_led_pin`. -/
def ledLevel : Event n → Option Level
  | .led level => some level
  | _ => none

/-- The presses and releases that the sketch takes notice of: a request, and a high
    reading of a button that is held. -/
def Registers (before : List (Event n)) : Event n → Prop
  | .request _ _ _ => True
  | .read i .high _ => Held i before
  | _ => False

/-- The last press or release is a release, and another button is held meanwhile. -/
def ReleasedWhileHeld (history : List (Event n)) : Prop :=
  ∃ before i seen after j, history = before ++ .read i .high seen :: after ∧
    LastOf Registers before (.read i .high seen) after ∧ j ≠ i ∧ Held j before

/-! ## The last press or release -/

/-- The level of the LED and the flags, by the last press or release. -/
inductive LedShown (s : Sketch n) : Prop
  | untouched (led : latest ledLevel s.history = some .low) (none : NoneOf Registers [] s.history)
      (down : ∀ i, s.buttonWasPressed i = false)
  | pressed (led : latest ledLevel s.history = some .high) (before after : List (Event n))
      (i : Fin n) (start finish : Nat)
      (split : s.history = before ++ .request i start finish :: after)
      (last : LastOf Registers before (.request i start finish) after)
      (up : s.buttonWasPressed i = true)
  | released (led : latest ledLevel s.history = some .low) (before after : List (Event n))
      (i : Fin n) (seen : Nat) (split : s.history = before ++ .read i .high seen :: after)
      (last : LastOf Registers before (.read i .high seen) after)
      (up : ∀ j, s.buttonWasPressed j = true ↔ j ≠ i ∧ Held j before)

theorem ledShown_setup (answers : Stream' Answer) :
    LedShown (powerOn answers : Sketch n).setup := by
  obtain ⟨history, down⟩ := setup_powerOn (n := n) answers
  refine .untouched ?_ ?_ fun i => congrFun down i
  · simp [history, blinks, List.replicate, latest_cons, ledLevel]
  · simp [history, blinks, List.replicate, NoneOf, Registers]

theorem LastOf.append {before after block : List (Event n)} {event : Event n}
    (last : LastOf Registers before event after)
    (quiet : NoneOf Registers (before ++ event :: after) block) :
    LastOf Registers before event (after ++ block) where
  ofKind := last.ofKind
  last := by
    rw [noneOf_append]
    exact ⟨last.last, by simpa using quiet⟩

/-- A visit that registers nothing does not write to the LED either, and leaves the
    flags. -/
theorem LedShown.quiet {s next : Sketch n} (shown : LedShown s) {block : List (Event n)}
    (history : next.history = s.history ++ block) (quiet : NoneOf Registers s.history block)
    (silent : latest ledLevel block = none) (flags : next.buttonWasPressed = s.buttonWasPressed) :
    LedShown next := by
  have led : latest ledLevel next.history = latest ledLevel s.history := by
    rw [history, latest_append, silent]
    rfl
  cases shown with
  | untouched low none down =>
    refine .untouched (led.trans low) ?_ (by rw [flags]; exact down)
    rw [history, noneOf_append]
    exact ⟨none, quiet⟩
  | pressed high before after i start finish split last up =>
    rw [split] at quiet
    exact .pressed (led.trans high) before (after ++ block) i start finish
      (by rw [history, split]; simp) (LastOf.append last quiet) (by rw [flags]; exact up)
  | released low before after i seen split last up =>
    rw [split] at quiet
    exact .released (led.trans low) before (after ++ block) i seen (by rw [history, split]; simp)
      (LastOf.append last quiet) (by rw [flags]; exact up)

/-- A visit whose block ends in a release. -/
theorem ledShown_of_release {s next : Sketch n} (tracked : Tracked next) (block : List (Event n))
    {i : Fin n} {seen : Nat}
    (history : next.history = s.history ++ (block ++ [.read i .high seen, .led .low]))
    (held : Held i (s.history ++ block)) : LedShown next := by
  have split : next.history = (s.history ++ block) ++ .read i .high seen :: [.led .low] := by
    rw [history]
    simp
  refine .released ?_ _ [.led .low] i seen split ⟨held, by simp [NoneOf, Registers]⟩ fun j => ?_
  · rw [split, latest_append]
    rfl
  · rw [tracked j, split, Held, latest_append, latest_cons, latest_cons]
    by_cases same : i = j
    · simp [noticed, same]
    · simp [noticed, same, Ne.symm same, Held]

theorem LedShown.visit {s : Sketch n} (shown : LedShown s) (tracked : Tracked s) (i : Fin n) :
    LedShown (s.visit i) := by
  have trackedNext := tracked.visit i
  obtain ⟨block, history, visit⟩ := visited i s
  generalize flags : (s.visit i).buttonWasPressed = flags' at visit
  cases visit with
  | closed opened => exact shown.quiet history (by simp [NoneOf, Registers]) rfl flags
  | idle opened seen down =>
    have free : ¬ Held i s.history := by
      rw [← tracked i, down]
      exact Bool.false_ne_true
    refine shown.quiet history ?_ rfl flags
    simpa [NoneOf, Registers, Held, latest_snoc, noticed] using free
  | held opened seen up afterBegin =>
    exact shown.quiet history (by simp [NoneOf, Registers]) rfl flags
  | released opened seen up =>
    have held := (tracked i).mp up
    refine ledShown_of_release trackedNext [.gate i opened true] history ?_
    simpa [Held, latest_snoc, noticed] using held
  | pressed opened seen start finish recorded again =>
    refine .pressed ?_ (s.history ++ [.gate i opened true, .read i .low seen, .led .high])
      [.record recorded, .read i .low again] i start finish (by rw [history]; simp)
      ⟨trivial, by simp [NoneOf, Registers]⟩ (by rw [flags, Function.update_self])
    rw [history, latest_append]
    rfl
  | tapped opened seen start finish recorded again =>
    refine ledShown_of_release trackedNext [.gate i opened true, .read i .low seen, .led .high,
      .request i start finish, .record recorded] history ?_
    simp [Held, latest_append, latest_cons, noticed]

theorem ledShown_after (answers : Stream' Answer) (passes : Nat) :
    LedShown (Sketch.after answers passes : Sketch n) := by
  refine after_invariant ledShown_setup (fun s milliseconds shown => ?_)
    (fun i s tracked shown => shown.visit tracked i) answers passes
  exact shown.quiet (List.append_nil _).symm trivial rfl rfl

/-! ## The invariant of the LED -/

theorem not_releasedWhileHeld_of_none {history : List (Event n)}
    (none : NoneOf Registers [] history) : ¬ ReleasedWhileHeld history := by
  rintro ⟨before, i, seen, after, j, rfl, last, -, -⟩
  exact not_kind_of_noneOf none last.ofKind

theorem not_releasedWhileHeld_of_press {before after : List (Event n)} {i : Fin n}
    {start finish : Nat} (last : LastOf Registers before (.request i start finish) after) :
    ¬ ReleasedWhileHeld (before ++ .request i start finish :: after) := by
  rintro ⟨earlier, k, seen, rest, j, same, lastRelease, -, -⟩
  have unique := (last.unique lastRelease same).2
  cases unique

theorem releasedWhileHeld_iff {before after : List (Event n)} {i : Fin n} {seen : Nat}
    (last : LastOf Registers before (.read i .high seen) after) :
    ReleasedWhileHeld (before ++ .read i .high seen :: after) ↔ ∃ j, j ≠ i ∧ Held j before := by
  constructor
  · rintro ⟨earlier, k, time, rest, j, same, lastRelease, other, held⟩
    obtain ⟨rfl, unique⟩ := last.unique lastRelease same
    cases unique
    exact ⟨j, other, held⟩
  · rintro ⟨j, other, held⟩
    exact ⟨before, i, seen, after, j, rfl, last, other, held⟩

/-- Whenever `loop` returns, the LED shows whether a flag is up, unless the last press or
    release was a release while another button was held. -/
theorem led_shows_flags_iff (answers : Stream' Answer) (passes : Nat) :
    (latest ledLevel (Sketch.after answers passes : Sketch n).history = some .high ↔
        ∃ i, (Sketch.after answers passes : Sketch n).buttonWasPressed i = true) ↔
      ¬ ReleasedWhileHeld (Sketch.after answers passes : Sketch n).history := by
  have shown : LedShown (Sketch.after answers passes : Sketch n) := ledShown_after answers passes
  cases shown with
  | untouched led none down =>
    have quiet := not_releasedWhileHeld_of_none none
    simp [led, down, quiet]
  | pressed led before after i start finish split last up =>
    have quiet := not_releasedWhileHeld_of_press last
    rw [← split] at quiet
    simp only [led, quiet, not_false_eq_true, iff_true, true_iff]
    exact ⟨i, up⟩
  | released led before after i seen split last up =>
    have released := releasedWhileHeld_iff last
    rw [← split, ← exists_congr up] at released
    simp [led, released]

/-- Two buttons are pressed in the first pass; in the second one the first button is
    read high, the other one is still low. -/
def firstReleased : Stream' Answer :=
  fun i => ⟨2000, if i = 14 then .high else .low, ⟨false, []⟩⟩

theorem led_dark_while_held :
    ¬ (latest ledLevel (Sketch.after firstReleased 2 : Sketch 2).history = some .high ↔
      ∃ i, (Sketch.after firstReleased 2 : Sketch 2).buttonWasPressed i = true) := by
  have dark : latest ledLevel (Sketch.after firstReleased 2 : Sketch 2).history = some .low := by
    decide
  have up : (Sketch.after firstReleased 2 : Sketch 2).buttonWasPressed 1 = true := by decide
  rw [dark]
  simp only [Option.some.injEq, reduceCtorEq, false_iff, not_exists]
  exact fun none => none 1 up

end HomeAutomation.LightSwitch
