import HomeAutomation.LightSwitch.Visits
import Mathlib.Tactic.Tauto

/-! # Held presses

A press of a button is an interval in which its pin is low.  A release is noticed only
at a visit whose gate is open; where the button is released and pressed again between
two such visits, its flag stays up and the new press sends no request.
-/

namespace HomeAutomation.LightSwitch

open HomeAutomation.Lib.History Sketch

variable {n : Nat}

/-! ## Low readings -/

/-- Where a low reading can stand in the block of a visit: it is followed by the request,
    or it is the last event and the button is held. -/
theorem Visited.low_reading {i j : Fin n} {flags flags' : Fin n → Bool} {began ended seen : Nat}
    {block start after : List (Event n)} (visit : Visited i flags began ended block flags')
    (split : block = start ++ .read j .low seen :: after) :
    j = i ∧ began ≤ seen ∧ (∀ k sent finish, .request k sent finish ∈ start → sent ≤ seen) ∧
      (((latest (noticed i) start).getD (flags i) = false ∧
          ∃ sent finish rest, after = .led .high :: .request i sent finish :: rest) ∨
        ((latest (noticed i) start).getD (flags i) = true ∧ after = [])) := by
  cases visit with
  | closed opened => simp [List.cons_eq_append_iff] at split
  | idle opened read down => simp [List.cons_eq_append_iff] at split
  | held opened read up afterBegin =>
    simp [List.cons_eq_append_iff] at split
    obtain ⟨rfl, ⟨rfl, rfl⟩, rfl⟩ := split
    exact ⟨rfl, afterBegin, by simp, Or.inr ⟨by simp [latest_cons, noticed, up], rfl⟩⟩
  | released opened read up => simp [List.cons_eq_append_iff] at split
  | pressed opened read sent finish recorded again down afterBegin started took readAgain =>
    simp [List.cons_eq_append_iff] at split
    obtain ⟨middle, rfl, ⟨rfl, ⟨rfl, rfl⟩, rfl⟩ | ⟨rfl, ⟨rfl, rfl⟩, rfl⟩⟩ := split
    · exact ⟨rfl, afterBegin, by simp, Or.inl ⟨by simp [latest_cons, noticed, down], _, _, _, rfl⟩⟩
    · refine ⟨rfl, by omega, fun k other ended member => ?_, Or.inr ⟨?_, rfl⟩⟩
      · simp at member
        omega
      · simp [latest_cons, noticed]
  | tapped opened read sent finish recorded again down afterBegin started took readAgain =>
    simp [List.cons_eq_append_iff] at split
    obtain ⟨rfl, ⟨rfl, rfl⟩, rfl⟩ := split
    exact ⟨rfl, afterBegin, by simp, Or.inl ⟨by simp [latest_cons, noticed, down], _, _, _, rfl⟩⟩

theorem Visited.request_times {i j : Fin n} {flags flags' : Fin n → Bool}
    {began ended sent finish : Nat} {block : List (Event n)}
    (visit : Visited i flags began ended block flags')
    (member : .request j sent finish ∈ block) : sent ≤ finish ∧ sent ≤ ended := by
  cases visit with
  | pressed opened read start finish' recorded again down afterBegin started took readAgain =>
    simp at member
    omega
  | tapped opened read start finish' recorded again down afterBegin started took readAgain =>
    simp at member
    omega
  | _ => simp at member

/-- What the history tells about every request and every low reading in it. -/
structure Explained (s : Sketch n) : Prop where
  sent : ∀ j start finish, .request j start finish ∈ s.history → start ≤ finish ∧ start ≤ s.now
  low : ∀ before i seen after, s.history = before ++ .read i .low seen :: after →
    (∀ j start finish, .request j start finish ∈ before → start ≤ seen) ∧
      ((¬ Held i before ∧ ∃ start finish rest, after = .led .high :: .request i start finish :: rest) ∨
        (Held i before ∧ ∀ rest, after ≠ .led .high :: rest))

theorem Visited.starts {i : Fin n} {flags flags' : Fin n → Bool} {began ended : Nat}
    {block : List (Event n)} (visit : Visited i flags began ended block flags') :
    ∃ opened isOpen rest, block = .gate i opened isOpen :: rest := by
  cases visit <;> exact ⟨_, _, _, rfl⟩

theorem Explained.visit {s : Sketch n} (explained : Explained s) (tracked : Tracked s)
    (i : Fin n) : Explained (s.visit i) := by
  obtain ⟨block, history, visit⟩ := visited i s
  refine ⟨fun j start finish member => ?_, fun before j seen after split => ?_⟩
  · rw [history, List.mem_append] at member
    rcases member with old | new
    · obtain ⟨took, past⟩ := explained.sent j start finish old
      exact ⟨took, past.trans (now_le_visit i s)⟩
    · exact visit.request_times new
  · rw [history] at split
    rcases split_append split with ⟨rest, rfl, inside⟩ | ⟨start, rfl, inBlock⟩
    · obtain ⟨times, reading⟩ := explained.low before j seen rest inside
      refine ⟨times, ?_⟩
      rcases reading with ⟨free, start, finish, later, rfl⟩ | ⟨held, silent⟩
      · exact Or.inl ⟨free, start, finish, later ++ block, rfl⟩
      · refine Or.inr ⟨held, fun later led => ?_⟩
        obtain ⟨opened, isOpen, others, rfl⟩ := visit.starts
        cases rest with
        | nil => cases led
        | cons event rest =>
          obtain ⟨rfl, -⟩ := List.cons.inj led
          exact silent rest rfl
    · obtain ⟨rfl, afterBegin, times, reading⟩ := visit.low_reading inBlock
      refine ⟨fun k sent finish member => ?_, ?_⟩
      · rcases List.mem_append.mp member with old | new
        · exact ((explained.sent k sent finish old).2).trans afterBegin
        · exact times k sent finish new
      · rw [tracked.held_append]
        rcases reading with ⟨free, follows⟩ | ⟨held, rfl⟩
        · exact Or.inl ⟨by simp [free], follows⟩
        · exact Or.inr ⟨held, by simp⟩

theorem explained_setup (answers : Stream' Answer) :
    Explained (powerOn answers : Sketch n).setup where
  sent := by
    intro j start finish member
    rw [(setup_powerOn answers).1] at member
    simp [blinks, List.replicate] at member
  low := by
    intro before i seen after split
    have member : .read i .low seen ∈ (powerOn answers : Sketch n).setup.history := by
      rw [split]
      simp
    rw [(setup_powerOn answers).1] at member
    simp [blinks, List.replicate] at member

theorem explained_after (answers : Stream' Answer) (passes : Nat) :
    Explained (Sketch.after answers passes : Sketch n) := by
  refine after_invariant explained_setup (fun s milliseconds explained => ⟨?_, explained.low⟩)
    (fun i s tracked explained => explained.visit tracked i) answers passes
  intro j start finish member
  obtain ⟨took, past⟩ := explained.sent j start finish member
  exact ⟨took, past.trans (Nat.le_add_right _ _)⟩

/-! ## Served presses -/

/-- The press in which the pin of `i` is read low at `seen` has its request: at this visit,
    right after the reading, or earlier and with the pin low ever since. -/
def Served (signal : Nat → Level) (i : Fin n) (before : List (Event n)) (seen : Nat)
    (after : List (Event n)) : Prop :=
  (∃ start finish rest, after = .led .high :: .request i start finish :: rest) ∨
    ∃ past start finish between, before = past ++ .request i start finish :: between ∧
      start ≤ seen ∧ ∀ time, start ≤ time → time ≤ seen → signal time = .low

/-- Where the button has been released since one of its requests, the pin has been read
    high since that request. -/
def ReleasesRead (signal : Nat → Level) (i : Fin n) (before : List (Event n)) (seen : Nat) : Prop :=
  ∀ past start finish between, before = past ++ .request i start finish :: between →
    (∃ time, start ≤ time ∧ time ≤ seen ∧ signal time = .high) →
    ∃ time, .read i .high time ∈ between

theorem read_of_answered {i : Fin n} {past between : List (Event n)} {start finish : Nat}
    (answered : Answered (IsRequest i) (IsHigh i) (past ++ .request i start finish :: between)) :
    ∃ time, .read i .high time ∈ between := by
  obtain ⟨event, member, high⟩ := answered past _ between rfl rfl
  cases event with
  | read button level time =>
    cases level with
    | low => cases high
    | high =>
      cases high
      exact ⟨time, member⟩
  | _ => cases high

theorem exists_request_of_held {i : Fin n} {before : List (Event n)} (held : Held i before) :
    ∃ past start finish between, before = past ++ .request i start finish :: between ∧
      ∀ time, .read i .high time ∉ between := by
  have unanswered := (held_iff_not_answered i before).mp held
  simp only [Answered, not_forall] at unanswered
  obtain ⟨past, event, between, split, asked, silent⟩ := unanswered
  cases event with
  | request button start finish =>
    cases asked
    exact ⟨past, start, finish, between, split, fun time member => silent ⟨_, member, rfl⟩⟩
  | _ => cases asked

/-- Of two requests of a button, the second follows a high reading and starts later. -/
theorem request_after_request {answers : Stream' Answer} {passes : Nat} {i : Fin n}
    {past between after : List (Event n)} {start finish start' finish' : Nat}
    (sent : (Sketch.after answers passes : Sketch n).history =
      (past ++ .request i start finish :: between) ++ .request i start' finish' :: after) :
    (∃ time, .read i .high time ∈ between) ∧ start ≤ start' := by
  obtain ⟨-, answered, recorded⟩ := (sound_after answers passes).guarded _ _ after sent
  obtain ⟨time, rest, -, ended, later⟩ := recorded past i start finish between rfl
  have took : start ≤ finish :=
    ((explained_after answers passes).sent i start finish (by rw [sent]; simp)).1
  exact ⟨read_of_answered answered, by omega⟩

theorem high_of_not_low {level : Level} (notLow : level ≠ .low) : level = .high := by
  cases level with
  | low => exact absurd rfl notLow
  | high => rfl

/-- The reading of a held button: the request it can be served by is the last one. -/
theorem releasesRead_of_served {answers : Stream' Answer} {passes : Nat} {signal : Nat → Level}
    {i : Fin n} {before after past between : List (Event n)} {seen start finish : Nat}
    (read : (Sketch.after answers passes : Sketch n).history = before ++ .read i .low seen :: after)
    (split : before = past ++ .request i start finish :: between)
    (low : ∀ time, start ≤ time → time ≤ seen → signal time = .low) :
    ReleasesRead signal i before seen := by
  rintro other start' finish' rest split' ⟨time, afterStart, beforeSeen, high⟩
  rcases split_append (split.symm.trans split') with ⟨middle, rfl, rfl⟩ | ⟨middle, rfl, added⟩
  · -- the serving request is the later one, and the other one was read high before it
    have sent : (Sketch.after answers passes : Sketch n).history =
        (other ++ .request i start' finish' :: middle) ++ .request i start finish ::
          (between ++ .read i .low seen :: after) := by
      rw [read, split]
      simp
    obtain ⟨seenHigh, member⟩ := (request_after_request sent).1
    exact ⟨seenHigh, List.mem_append_left _ member⟩
  · cases middle with
    | nil =>
      cases added
      have wrong := low time afterStart beforeSeen
      rw [high] at wrong
      cases wrong
    | cons event middle =>
      -- the serving request is the earlier one: the pin was low all the time
      obtain ⟨rfl, rfl⟩ := List.cons.inj added
      have sent : (Sketch.after answers passes : Sketch n).history =
          (past ++ .request i start finish :: middle) ++ .request i start' finish' ::
            (rest ++ .read i .low seen :: after) := by
        rw [read, split]
        simp
      have later := (request_after_request sent).2
      have wrong := low time (later.trans afterStart) beforeSeen
      rw [high] at wrong
      cases wrong

/-- A low reading at a visit whose gate is open belongs to a press that has its request,
    exactly when every release of the button since one of its requests has been read.
    `signal` is any level of the pin over time. -/
theorem held_press_served_iff (answers : Stream' Answer) (passes : Nat) (signal : Nat → Level)
    (i : Fin n) (before after : List (Event n)) (seen : Nat)
    (read : (Sketch.after answers passes : Sketch n).history =
      before ++ .read i .low seen :: after) :
    Served signal i before seen after ↔ ReleasesRead signal i before seen := by
  obtain ⟨times, free, sent⟩ | ⟨times, held, silent⟩ :=
    and_or_left.mp ((explained_after answers passes).low before i seen after read)
  · refine ⟨fun _ past start finish between split _ => ?_, fun _ => Or.inl sent⟩
    have answered : Answered (IsRequest i) (IsHigh i) before := by
      rw [held_iff_not_answered] at free
      exact not_not.mp free
    rw [split] at answered
    exact read_of_answered answered
  · constructor
    · rintro (⟨start, finish, rest, follows⟩ | ⟨past, start, finish, between, split, -, low⟩)
      · exact absurd follows (silent _)
      · exact releasesRead_of_served read split low
    · intro releases
      obtain ⟨past, start, finish, between, split, unread⟩ := exists_request_of_held held
      refine Or.inr ⟨past, start, finish, between, split, times i start finish (by simp [split]), ?_⟩
      intro time afterStart beforeSeen
      by_contra notLow
      obtain ⟨readHigh, member⟩ := releases past start finish between split
        ⟨time, afterStart, beforeSeen, high_of_not_low notLow⟩
      exact unread readHigh member

/-- A button held from power on: its first reading is followed by the request. -/
theorem held_press_served_held :
    Served (fun _ => .low) (0 : Fin 1)
      (blinks ++ [.gate 0 3200 true]) 3500
      [.led .high, .request 0 3800 4100, .record 4400, .read 0 .low 4700] := by
  refine (held_press_served_iff (Stream'.const ⟨300, .low, ⟨false, []⟩⟩) 1 _ 0 _ _ 3500
    (by decide)).mpr ?_
  rintro past start finish between split ⟨time, -, -, high⟩
  cases high

/-- Low, but for a release of 100 ms. -/
def shortRelease (time : Nat) : Level := if 4850 ≤ time ∧ time < 4950 then .high else .low

/-- Two passes and the gate of the third, with the only button of the switch held. -/
def heldAgain (i : Fin n) : List (Event n) :=
  blinks ++ [.gate i 3200 true, .read i .low 3500, .led .high, .request i 3800 4100, .record 4400,
    .read i .low 4700, .gate i 5100 false, .gate i 5500 true]

/-- The button is released and pressed again while the gate is closed: 850 ms later the new
    press is read low at an open gate, and sends nothing. -/
theorem short_release_ignored :
    (Sketch.after (Stream'.const ⟨300, .low, ⟨false, []⟩⟩) 3 : Sketch 1).history =
        heldAgain 0 ++ .read 0 .low 5800 :: [] ∧
      (∀ level time, .read 0 level time ∈ heldAgain (0 : Fin 1) → level = shortRelease time) ∧
      shortRelease 5800 = .low ∧ ¬ Served shortRelease (0 : Fin 1) (heldAgain 0) 5800 [] := by
  refine ⟨by decide, fun level time member => ?_, by decide, ?_⟩
  · simp [heldAgain, blinks, List.replicate] at member
    rcases member with ⟨rfl, rfl⟩ | ⟨rfl, rfl⟩
    · decide
    · decide
  · rintro (⟨start, finish, rest, follows⟩ | ⟨past, start, finish, between, split, -, low⟩)
    · cases follows
    · have member : .request 0 start finish ∈ heldAgain (0 : Fin 1) := by
        rw [split]
        simp
      simp [heldAgain, blinks, List.replicate] at member
      have wrong := low 4900 (by omega) (by omega)
      exact absurd wrong (by decide)

end HomeAutomation.LightSwitch
