import HomeAutomation.LightSwitch.Sketch
import HomeAutomation.Lib.History

/-! # The request discipline

`Allowed` states the discipline of one request against the history before it; the
history of every run is guarded by it.  `Sound` is the invariant that carries it:
the flag of a button is down only after the button was read high since its last
request, and `last_pressed_at` shows a time no earlier than any recorded one.
-/

namespace HomeAutomation.LightSwitch

open HomeAutomation.Lib.History HomeAutomation.Lib.WrapClock Sketch

variable {n : Nat}

/-! ## The discipline -/

def IsRequest (i : Fin n) : Event n → Prop
  | .request button _ _ => button = i
  | _ => False

def IsHigh (i : Fin n) : Event n → Prop
  | .read button .high _ => button = i
  | _ => False

/-- A request follows the record of every request before it, by more than a second. -/
def Recorded (delay : Nat) (before : List (Event n)) (start : Nat) : Prop :=
  ∀ past j began ended between, before = past ++ .request j began ended :: between →
    ∃ time rest, between = .record time :: rest ∧ ended ≤ time ∧ time + delay < start

/-- A request of a button may be sent when the button has just been read low, when
    it was read high since its last request, and when the time recorded after every
    earlier request is more than a second ago. -/
def Allowed (before : List (Event n)) : Event n → Prop
  | .request i start _ =>
    (∃ earlier opened seen, before =
      earlier ++ [.gate i opened true, .read i .low seen, .led .high]) ∧
    Answered (IsRequest i) (IsHigh i) before ∧
    Recorded 1000 before start
  | _ => True

/-! ## The invariant -/

/-- `last_pressed_at` shows the time `last`, and every request has been recorded by
    then. -/
structure ClockedAt (last : Nat) (s : Sketch n) : Prop where
  shown : s.lastPressedAt = counter last
  past : last ≤ s.now
  recorded : ∀ past j began ended between,
    s.history = past ++ .request j began ended :: between →
      ∃ time rest, between = .record time :: rest ∧ ended ≤ time ∧ time ≤ last

structure Sound (s : Sketch n) : Prop where
  guarded : Guarded Allowed s.history
  released : ∀ i, s.buttonWasPressed i = false → Answered (IsRequest i) (IsHigh i) s.history
  clocked : ∃ last, ClockedAt last s

theorem sound_powerOn (answers : Stream' Answer) : Sound (powerOn answers : Sketch n) where
  guarded := guarded_nil Allowed
  released _ _ := answered_nil _ _
  clocked := ⟨0, rfl, Nat.le_refl 0, fun past j began ended between split => by
    simp [powerOn] at split⟩

theorem Sound.later {s next : Sketch n} (sound : Sound s) (history : next.history = s.history)
    (flags : next.buttonWasPressed = s.buttonWasPressed)
    (clock : next.lastPressedAt = s.lastPressedAt) (time : s.now ≤ next.now) : Sound next where
  guarded := by rw [history]; exact sound.guarded
  released i down := by
    rw [flags] at down
    rw [history]
    exact sound.released i down
  clocked := by
    obtain ⟨last, shown, past, recorded⟩ := sound.clocked
    exact ⟨last, by rw [clock, shown], past.trans time, by rw [history]; exact recorded⟩

theorem Sound.wait {s : Sketch n} (sound : Sound s) : Sound s.wait :=
  sound.later rfl rfl rfl (now_le_wait s)

theorem Sound.delay {s : Sketch n} (sound : Sound s) (milliseconds : Nat) :
    Sound (s.delay milliseconds) := sound.later rfl rfl rfl (Nat.le_add_right _ _)

/-- Events other than requests and records. -/
def Quiet : Event n → Prop
  | .request _ _ _ => False
  | .record _ => False
  | _ => True

theorem not_isRequest_of_quiet {event : Event n} (quiet : Quiet event) (i : Fin n) :
    ¬ IsRequest i event := by
  cases event with
  | request button start finish => cases quiet
  | record time => cases quiet
  | gate button time isOpen => exact id
  | read button level time => exact id
  | led level => exact id

theorem ClockedAt.log {last : Nat} {s : Sketch n} (clocked : ClockedAt last s) {event : Event n}
    (quiet : Quiet event) : ClockedAt last (s.log event) where
  shown := clocked.shown
  past := clocked.past
  recorded := by
    -- the appended event is no request, so every request is an older one
    intro past j began ended between split
    rcases split_snoc split with ⟨-, rfl, -⟩ | ⟨rest, rfl, inside⟩
    · cases quiet
    · obtain ⟨time, later, rfl, ordered, bounded⟩ := clocked.recorded past j began ended rest inside
      exact ⟨time, later ++ [event], rfl, ordered, bounded⟩

theorem Sound.log {s : Sketch n} (sound : Sound s) {event : Event n} (quiet : Quiet event) :
    Sound (s.log event) where
  guarded := by
    refine guarded_snoc sound.guarded ?_
    cases event with
    | request button start finish => cases quiet
    | record time => cases quiet
    | gate button time isOpen => trivial
    | read button level time => trivial
    | led level => trivial
  released i down := answered_snoc (sound.released i down) (not_isRequest_of_quiet quiet i)
  clocked := by
    obtain ⟨last, clocked⟩ := sound.clocked
    exact ⟨last, clocked.log quiet⟩

/-! ## A press -/

/-- The state in which a press starts: the gate was seen open, the pin was just read
    low, and the flag is down. -/
structure Ready (i : Fin n) (s : Sketch n) : Prop where
  seen : ∃ earlier opened read, s.history = earlier ++ [.gate i opened true, .read i .low read]
  down : s.buttonWasPressed i = false
  late : ∃ last, ClockedAt last s ∧ last + 1000 < s.now

theorem recorded_of_ready {i : Fin n} {s : Sketch n} (ready : Ready i s) {start : Nat}
    (started : s.now ≤ start) : Recorded 1000 (s.history ++ [.led .high]) start := by
  obtain ⟨last, clocked, late⟩ := ready.late
  have lit : ClockedAt last (s.log (.led .high)) := clocked.log trivial
  intro past j began ended between split
  obtain ⟨time, rest, rfl, ordered, bounded⟩ := lit.recorded past j began ended between split
  exact ⟨time, rest, rfl, ordered, by omega⟩

theorem Sound.press {i : Fin n} {s : Sketch n} (sound : Sound s) (ready : Ready i s) :
    Sound (s.press i) := by
  obtain ⟨start, finish, started, took, ended, history, flags, shown⟩ := press_spec i s
  obtain ⟨earlier, opened, read, seen⟩ := ready.seen
  have lit : Sound (s.log (.led .high)) := sound.log trivial
  have answered : Answered (IsRequest i) (IsHigh i) (s.history ++ [.led .high]) :=
    lit.released i ready.down
  have allowed : Allowed (s.history ++ [.led .high]) (.request i start finish) :=
    ⟨⟨earlier, opened, read, by rw [seen]; simp⟩, answered, recorded_of_ready ready started⟩
  refine ⟨?_, fun j down => ?_, (s.press i).now, shown, Nat.le_refl _, ?_⟩
  · rw [history]
    exact guarded_snoc (guarded_snoc lit.guarded allowed) trivial
  · rw [flags] at down
    by_cases same : j = i
    · subst same
      simp at down
    · rw [Function.update_of_ne same] at down
      rw [history]
      exact answered_snoc (answered_snoc (lit.released j down) (Ne.symm same)) id
  · -- the appended request is followed by the appended record, the older ones as before
    intro past j began finished between split
    rw [history] at split
    rcases split_snoc split with ⟨-, same, -⟩ | ⟨rest, rfl, inside⟩
    · cases same
    rcases split_snoc inside with ⟨-, same, rfl⟩ | ⟨rest, rfl, older⟩
    · cases same
      exact ⟨_, [], rfl, ended, Nat.le_refl _⟩
    · obtain ⟨last, clocked⟩ := lit.clocked
      obtain ⟨time, later, rfl, ordered, bounded⟩ := clocked.recorded _ j began finished rest older
      have passed : last ≤ s.now := clocked.past
      exact ⟨time, _, rfl, ordered, by omega⟩

/-! ## A visit -/

theorem Sound.digitalRead {s : Sketch n} (sound : Sound s) (i : Fin n) :
    Sound (s.digitalRead i).2 := sound.wait.log trivial

theorem Sound.release {i : Fin n} {s : Sketch n} (sound : Sound s)
    (answered : Answered (IsRequest i) (IsHigh i) s.history) : Sound (s.release i) := by
  have lowered : Sound { s with buttonWasPressed := Function.update s.buttonWasPressed i false } :=
    { guarded := sound.guarded
      released := by
        intro j down
        by_cases same : j = i
        · subst same
          exact answered
        · exact sound.released j (by simpa [Function.update_of_ne same] using down)
      clocked := by
        obtain ⟨last, shown, past, recorded⟩ := sound.clocked
        exact ⟨last, shown, past, recorded⟩ }
  exact lowered.log trivial

theorem Sound.checkReleased {s : Sketch n} (sound : Sound s) (i : Fin n) :
    Sound (s.checkReleased i) := by
  unfold Sketch.checkReleased
  split
  case isFalse => exact sound
  dsimp only
  split
  case isFalse => exact sound.digitalRead i
  case isTrue high =>
    -- the reading just taken answers every request so far
    refine (sound.digitalRead i).release ?_
    refine answered_of_answer s.history ?_ (by intro asked; exact asked)
    simp only [Sketch.digitalRead] at high
    simp [IsHigh, high]

/-- The first condition of a visit whose gate has just been seen open. -/
theorem Sound.checkPressed {i : Fin n} {s : Sketch n} (sound : Sound s)
    {earlier : List (Event n)} {opened : Nat} (gate : s.history = earlier ++ [.gate i opened true])
    (isOpen : minimalDelay < s.millis - s.lastPressedAt) : Sound (s.checkPressed i) := by
  unfold Sketch.checkPressed
  split
  case isFalse => exact sound
  case isTrue down =>
    dsimp only
    split
    case isFalse => exact sound.digitalRead i
    case isTrue low =>
      refine (sound.digitalRead i).press ⟨?_, ?_, ?_⟩
      · simp only [Sketch.digitalRead] at low ⊢
        exact ⟨earlier, opened, s.wait.now, by simp [gate, low]⟩
      · have flag : s.buttonWasPressed i = false := by simpa using down
        exact flag
      · obtain ⟨last, clocked⟩ := sound.clocked
        -- the gate has measured the true time, however often the counter has wrapped
        rw [clocked.shown] at isOpen
        have late := delay_passed clocked.past isOpen
        have waited : ClockedAt last s.wait :=
          ⟨clocked.shown, clocked.past.trans (now_le_wait s), clocked.recorded⟩
        refine ⟨last, waited.log trivial, lt_of_lt_of_le ?_ (now_le_wait s)⟩
        exact late

theorem Sound.visit {s : Sketch n} (sound : Sound s) (i : Fin n) : Sound (s.visit i) := by
  have gated : ∀ isOpen, Sound (s.wait.log (.gate i s.wait.now isOpen)) :=
    fun isOpen => sound.wait.log trivial
  unfold Sketch.visit
  dsimp only
  split
  case isFalse => exact gated _
  case isTrue isOpen =>
    have opened : minimalDelay < s.wait.millis - s.wait.lastPressedAt := of_decide_eq_true isOpen
    have gate : (s.wait.log (.gate i s.wait.now
        (decide (minimalDelay < s.wait.millis - s.wait.lastPressedAt)))).history =
        s.history ++ [.gate i s.wait.now true] := by rw [isOpen, history_log, history_wait]
    exact ((gated _).checkPressed gate opened).checkReleased i

theorem Sound.loop {s : Sketch n} (sound : Sound s) : Sound s.loop :=
  List.foldlRecOn (motive := Sound) _ _ (sound.delay 100) fun _ visited i _ => visited.visit i

theorem Sound.setup {s : Sketch n} (sound : Sound s) : Sound s.setup := by
  have blinks : Sound s.sturtupBlink := by
    refine List.foldlRecOn (motive := Sound) _ _ sound fun s blinked _ _ => ?_
    have lit : Sound (s.controlLed .high) := blinked.log trivial
    have dark : Sound (((s.controlLed .high).delay 250).controlLed .low) :=
      (lit.delay 250).log trivial
    exact dark.delay 250
  exact blinks.wait

theorem sound_after (answers : Stream' Answer) (passes : Nat) :
    Sound (after answers passes : Sketch n) := by
  induction passes with
  | zero => exact (sound_powerOn answers).setup
  | succ passes inductionHypothesis => exact inductionHypothesis.loop

/-- In every run, a request of a button is sent only right after its pin was read
    low at a visit whose gate was open; its pin was read high since its last request;
    and the time recorded after each earlier request, of any button, lies more than
    1000 ms of true time before it. -/
theorem request_discipline (answers : Stream' Answer) (passes : Nat) (before after : List (Event n))
    (i : Fin n) (start finish : Nat)
    (sent : (Sketch.after answers passes : Sketch n).history =
      before ++ .request i start finish :: after) :
    (∃ earlier opened seen, before =
      earlier ++ [.gate i opened true, .read i .low seen, .led .high]) ∧
    (∀ past began ended between, before = past ++ .request i began ended :: between →
      ∃ time, .read i .high time ∈ between) ∧
    ∀ past j began ended between, before = past ++ .request j began ended :: between →
      ∃ time rest, between = .record time :: rest ∧ ended ≤ time ∧ time + 1000 < start := by
  obtain ⟨low, released, recorded⟩ := (sound_after answers passes).guarded before _ after sent
  refine ⟨low, fun past began ended between split => ?_, recorded⟩
  obtain ⟨event, member, high⟩ := released past _ between split rfl
  cases event with
  | read button level time =>
    cases level with
    | low => cases high
    | high => cases high; exact ⟨time, member⟩
  | gate button time isOpen => cases high
  | request button began ended => cases high
  | record time => cases high
  | led level => cases high

/-- A button is held from power on, released for a moment and held again: two requests. -/
theorem request_discipline_again :
    let answers : Stream' Answer := fun k => ⟨300, if k = 9 then .high else .low, ⟨false, []⟩⟩
    let past : List (Event 1) := (List.replicate 5 [.led .high, .led .low]).flatten ++
      [.gate 0 3200 true, .read 0 .low 3500, .led .high]
    let between : List (Event 1) := [.record 4400, .read 0 .low 4700, .gate 0 5100 false,
      .gate 0 5500 true, .read 0 .high 5800, .led .low,
      .gate 0 6200 true, .read 0 .low 6500, .led .high]
    (Sketch.after answers 4).history = past ++ .request 0 3800 4100 :: between ++
        .request 0 6800 7100 :: [.record 7400, .read 0 .low 7700] ∧
      (∃ earlier opened seen, past ++ .request 0 3800 4100 :: between =
        earlier ++ [.gate 0 opened true, .read 0 .low seen, .led .high]) ∧
      (∃ time, .read 0 .high time ∈ between) ∧
      ∃ time rest, between = .record time :: rest ∧ 4100 ≤ time ∧ time + 1000 < 6800 := by
  intro answers past between
  have sent : (Sketch.after answers 4).history = past ++ .request 0 3800 4100 :: between ++
      .request 0 6800 7100 :: [.record 7400, .read 0 .low 7700] := by decide
  obtain ⟨low, released, recorded⟩ := request_discipline answers 4 _ _ 0 6800 7100 sent
  exact ⟨sent, low, released past 3800 4100 between rfl, recorded past 0 3800 4100 between rfl⟩

end HomeAutomation.LightSwitch
