import HomeAutomation.CentralBoard.Loop

/-! # The periodic gates of the central board

A connection is attempted when 5 seconds have passed since the last attempt that
failed, a temperature round is run when 40 seconds have passed since the last round.
Both compare a stored reading of the 32-bit clock with a new one.  `Calm` says that an
operation does not concern the gates; what is left are the two loops, which store a
reading exactly when their gate is open.
-/

namespace HomeAutomation.CentralBoard

open HomeAutomation.Lib HomeAutomation.Lib.CString HomeAutomation.Lib.WrapClock

/-! ## What the gates let through -/

def Call.isConnect : Call → Bool
  | .connect _ _ => true
  | _ => false

def Call.isRequest : Call → Bool
  | .requestTemperatures _ => true
  | _ => false

/-- The connection attempts so far. -/
def connects (w : World) : Nat := w.calls.countP Call.isConnect

/-- The conversions that the temperature rounds have requested so far. -/
def requests (w : World) : Nat := w.calls.countP Call.isRequest

/-- The time at which `mqttLoop`, or `tempSensorsLoop`, reads the clock first. -/
def gateTime (w : World) : Nat := w.proceed.now

/-- `mqttLoop` finds the client disconnected. -/
def Disconnected (w : World) : Prop := w.proceed.connected = false

/-- `mqttLoop` attempts to connect. -/
def Attempts (w : World) : Prop := connects w < connects (mqttLoop w)

/-- `mqttLoop` attempts to connect, and `reconnect` returns false. -/
def Fails (w : World) : Prop := Attempts w ∧ (reconnect w.proceed).1 = false

/-- `tempSensorsLoop` runs a round. -/
def RunsRound (w : World) : Prop := requests w < requests (tempSensorsLoop w)

/-! ## What does not concern the gates -/

/-- Time may pass; neither gate is used. -/
structure Calm (w next : World) : Prop where
  now : w.now ≤ next.now
  lastReconnectAttempt : next.lastReconnectAttempt = w.lastReconnectAttempt
  lastTempRead : next.lastTempRead = w.lastTempRead
  connects : connects next = connects w
  requests : requests next = requests w

namespace Calm

theorem refl (w : World) : Calm w w := ⟨Nat.le_refl _, rfl, rfl, rfl, rfl⟩

theorem trans {first second third : World} (left : Calm first second) (right : Calm second third) :
    Calm first third where
  now := Nat.le_trans left.now right.now
  lastReconnectAttempt := right.lastReconnectAttempt.trans left.lastReconnectAttempt
  lastTempRead := right.lastTempRead.trans left.lastTempRead
  connects := right.connects.trans left.connects
  requests := right.requests.trans left.requests

theorem proceed (w : World) : Calm w w.proceed := ⟨Nat.le_add_right _ _, rfl, rfl, rfl, rfl⟩

theorem setPins (w : World) (mqttPins : List MqttPin) : Calm w { w with mqttPins } :=
  ⟨Nat.le_refl _, rfl, rfl, rfl, rfl⟩

theorem delay (w : World) (milliseconds : Nat) : Calm w (w.delay milliseconds) :=
  ⟨Nat.le_add_right _ _, rfl, rfl, rfl, rfl⟩

theorem log {call : Call} (noConnect : call.isConnect = false) (noRequest : call.isRequest = false)
    (w : World) : Calm w (w.log call) where
  now := Nat.le_refl _
  lastReconnectAttempt := rfl
  lastTempRead := rfl
  connects := by simp [CentralBoard.connects, noConnect]
  requests := by simp [CentralBoard.requests, noRequest]

theorem publish (w : World) (topic payload : CString) (retained : Bool) :
    Calm w (w.publish topic payload retained) where
  now := Nat.le_add_right _ _
  lastReconnectAttempt := rfl
  lastTempRead := rfl
  connects := by simp [CentralBoard.connects, Call.isConnect]
  requests := by simp [CentralBoard.requests, Call.isRequest]

theorem subscribe (w : World) (topic : CString) : Calm w (w.subscribe topic) :=
  (proceed w).trans (log rfl rfl _)

theorem foldl {α : Type} {step : World → α → World} (each : ∀ w a, Calm w (step w a))
    (items : List α) (w : World) : Calm w (items.foldl step w) :=
  List.foldlRecOn (motive := Calm w) items step (refl w)
    fun next same item _ => same.trans (each next item)

end Calm

theorem calm_publishPinState (pinIndex : Nat) (w : World) : Calm w (publishPinState pinIndex w) := by
  unfold publishPinState
  split
  · exact .refl w
  · exact (Calm.publish w _ _ _).trans (.delay _ _)

theorem calm_publishPinStates (w : World) : Calm w (publishPinStates w) :=
  .foldl (fun w i => calm_publishPinState i w) _ w

theorem calm_changePinState (pinNumber : Int) (newState : Bool) (w : World) :
    Calm w (changePinState pinNumber newState w) := by
  simp only [changePinState]
  split_ifs
  · exact .refl w
  split
  · exact .refl w
  split_ifs
  · exact ((Calm.setPins w _).trans (.log rfl rfl _)).trans (calm_publishPinState _ _)
  · exact .refl w

theorem calm_callback (message : Message) (w : World) : Calm w (callback message w) :=
  callback_induction (.refl w) fun number state => calm_changePinState number state w

theorem calm_clientLoop (w : World) : Calm w (clientLoop w) :=
  (Calm.proceed w).trans (.foldl (fun w message => calm_callback message w) _ _)

theorem calm_publishTemp (tempIndex : Nat) (w : World) : Calm w (publishTemp tempIndex w) := by
  unfold publishTemp
  split
  · exact .refl w
  · rename_i sensor _
    have read : Calm w (getTemperature sensor w).2 := (Calm.proceed w).trans (.log rfl rfl _)
    simp only
    split
    · exact read
    · exact (read.trans (.publish _ _ _ _)).trans (.delay _ _)

theorem calm_publishTempSensors (w : World) : Calm w (publishTempSensors w) :=
  .foldl (fun w i => calm_publishTemp i w) _ w

/-! ## The connection -/

/-- `mqttLoop` finds its gate open. -/
def ReconnectDue (w : World) : Prop :=
  mqttReconnectDelay < counter (gateTime w) - w.lastReconnectAttempt.toUInt32

/-- The outcome of an attempt does not depend on the stored time. -/
theorem reconnect_result (w : World) (stored : Int32) :
    (reconnect { w with lastReconnectAttempt := stored }).1 = (reconnect w).1 := by
  unfold reconnect
  dsimp only
  split <;> rfl

/-- One attempt is logged, the rest of `reconnect` is calm. -/
theorem reconnect_spec (w : World) :
    w.now ≤ (reconnect w).2.now ∧
      (reconnect w).2.lastReconnectAttempt = w.lastReconnectAttempt ∧
      (reconnect w).2.lastTempRead = w.lastTempRead ∧
      connects (reconnect w).2 = connects w + 1 := by
  have connected : w.now ≤ (w.connect (ofString "centralBoard")).now ∧
      connects (w.connect (ofString "centralBoard")) = connects w + 1 := by
    refine ⟨Nat.le_add_right _ _, ?_⟩
    simp [connects, World.connect, Call.isConnect]
  have rest : Calm (w.connect (ofString "centralBoard")) (reconnect w).2 := by
    unfold reconnect
    dsimp only
    split
    · exact (Calm.subscribe _ _).trans (.proceed _)
    · exact .proceed _
  exact ⟨connected.1.trans rest.now, rest.lastReconnectAttempt, rest.lastTempRead,
    rest.connects.trans connected.2⟩

/-- What `mqttLoop` does after the attempt it has made. -/
def afterReconnect (succeeded : Bool) (w : World) : World :=
  if succeeded then
    let w := { w with lastReconnectAttempt := 0 }
    if !w.published then { publishPinStates w with published := true } else w
  else w

theorem mqttLoop_eq (w : World) :
    mqttLoop w =
      if w.proceed.connected then clientLoop w.proceed
      else if mqttReconnectDelay < counter (gateTime w) - w.lastReconnectAttempt.toUInt32 then
        let attempt :=
          reconnect { w.proceed with lastReconnectAttempt := (counter (gateTime w)).toInt32 }
        afterReconnect attempt.1 attempt.2
      else w.proceed := by
  by_cases connected : w.proceed.connected = true
  case pos =>
    have notDisconnected : ¬ (!w.proceed.connected) = true := by simp [connected]
    rw [if_pos connected]
    exact if_neg notDisconnected
  case neg =>
    have disconnected : (!w.proceed.connected) = true := by simp [connected]
    rw [if_neg connected]
    exact if_pos disconnected

theorem afterReconnect_spec (succeeded : Bool) (w : World) :
    w.now ≤ (afterReconnect succeeded w).now ∧
      connects (afterReconnect succeeded w) = connects w ∧
      (afterReconnect succeeded w).lastTempRead = w.lastTempRead ∧
      (afterReconnect succeeded w).lastReconnectAttempt =
        if succeeded then 0 else w.lastReconnectAttempt := by
  cases succeeded with
  | false => exact ⟨Nat.le_refl _, rfl, rfl, rfl⟩
  | true =>
    have published := calm_publishPinStates { w with lastReconnectAttempt := 0 }
    simp only [afterReconnect, if_true]
    split
    · exact ⟨published.now, published.connects, published.lastTempRead,
        published.lastReconnectAttempt⟩
    · exact ⟨Nat.le_refl _, rfl, rfl, rfl⟩

/-- A call of `mqttLoop` that makes no attempt. -/
theorem mqttLoop_of_closed {w : World} (closed : ¬ (Disconnected w ∧ ReconnectDue w)) :
    Calm w.proceed (mqttLoop w) := by
  rw [mqttLoop_eq]
  by_cases connected : w.proceed.connected = true
  case pos =>
    rw [if_pos connected]
    exact calm_clientLoop w.proceed
  case neg =>
    have early : ¬ ReconnectDue w := fun due => closed ⟨by simpa [Disconnected] using connected, due⟩
    rw [ReconnectDue] at early
    rw [if_neg connected, if_neg early]
    exact .refl _

/-- What is stored by a call of `mqttLoop` that makes an attempt: the time of the attempt
    if it fails, and 0 if it succeeds. -/
theorem mqttLoop_of_open {w : World} (disconnected : Disconnected w) (due : ReconnectDue w) :
    gateTime w ≤ (mqttLoop w).now ∧ connects (mqttLoop w) = connects w + 1 ∧
      (mqttLoop w).lastTempRead = w.lastTempRead ∧
      (mqttLoop w).lastReconnectAttempt =
        if (reconnect w.proceed).1 then 0 else (counter (gateTime w)).toInt32 := by
  rw [Disconnected] at disconnected
  rw [ReconnectDue] at due
  rw [mqttLoop_eq, if_neg (by simp [disconnected]), if_pos due]
  dsimp only
  obtain ⟨now, stored, tempRead, attempt⟩ :=
    reconnect_spec { w.proceed with lastReconnectAttempt := (counter (gateTime w)).toInt32 }
  obtain ⟨later, kept, sameTempRead, outcome⟩ := afterReconnect_spec
    (reconnect { w.proceed with lastReconnectAttempt := (counter (gateTime w)).toInt32 }).1
    (reconnect { w.proceed with lastReconnectAttempt := (counter (gateTime w)).toInt32 }).2
  refine ⟨now.trans later, kept.trans attempt, sameTempRead.trans tempRead, ?_⟩
  rw [outcome, stored, reconnect_result]

theorem attempts_iff (w : World) : Attempts w ↔ Disconnected w ∧ ReconnectDue w := by
  constructor
  · intro attempt
    by_contra closed
    have calm := (mqttLoop_of_closed closed).connects
    rw [Attempts, calm] at attempt
    exact Nat.lt_irrefl _ attempt
  · rintro ⟨disconnected, due⟩
    have grown := (mqttLoop_of_open disconnected due).2.1
    rw [Attempts, grown]
    exact Nat.lt_succ_self _

/-- Every call of `mqttLoop`, as far as the other gate and the clock are concerned. -/
theorem mqttLoop_spec (w : World) :
    gateTime w ≤ (mqttLoop w).now ∧ (mqttLoop w).lastTempRead = w.lastTempRead := by
  by_cases attempt : Disconnected w ∧ ReconnectDue w
  case pos =>
    obtain ⟨now, -, tempRead, -⟩ := mqttLoop_of_open attempt.1 attempt.2
    exact ⟨now, tempRead⟩
  case neg =>
    have calm := mqttLoop_of_closed attempt
    exact ⟨calm.now, calm.lastTempRead⟩

/-! ## The temperature round -/

def RoundDue (w : World) : Prop := tempPublishDelay < counter (gateTime w) - w.lastTempRead

theorem tempSensorsLoop_of_closed {w : World} (closed : ¬ RoundDue w) :
    tempSensorsLoop w = w.proceed :=
  if_neg closed

theorem requestTemperatures_spec (bus : Bus) (w : World) :
    w.now ≤ (requestTemperatures bus w).now ∧
      requests (requestTemperatures bus w) = requests w + 1 ∧
      (requestTemperatures bus w).lastReconnectAttempt = w.lastReconnectAttempt := by
  refine ⟨Nat.le_add_right _ _, ?_, rfl⟩
  simp [requestTemperatures, requests, Call.isRequest]

/-- A round stores the time of its end. -/
theorem tempSensorsLoop_of_open {w : World} (due : RoundDue w) :
    gateTime w ≤ (tempSensorsLoop w).now ∧ requests w < requests (tempSensorsLoop w) ∧
      (tempSensorsLoop w).lastReconnectAttempt = w.lastReconnectAttempt ∧
      (tempSensorsLoop w).lastTempRead = counter (tempSensorsLoop w).now := by
  have opened : tempSensorsLoop w =
      let w := publishTempSensors
        (requestTemperatures .outsideTemp (requestTemperatures .roomTemp w.proceed))
      { w with lastTempRead := w.millis } := if_pos due
  rw [opened]
  obtain ⟨first, one, stored⟩ := requestTemperatures_spec .roomTemp w.proceed
  obtain ⟨second, two, kept⟩ :=
    requestTemperatures_spec .outsideTemp (requestTemperatures .roomTemp w.proceed)
  have calm := calm_publishTempSensors
    (requestTemperatures .outsideTemp (requestTemperatures .roomTemp w.proceed))
  refine ⟨(first.trans second).trans calm.now, ?_, ?_, rfl⟩
  · show requests w < requests (publishTempSensors _)
    rw [calm.requests, two, one]
    show requests w < requests w + 1 + 1
    omega
  · exact calm.lastReconnectAttempt.trans (kept.trans stored)

theorem runsRound_iff (w : World) : RunsRound w ↔ RoundDue w := by
  constructor
  · intro round
    by_contra closed
    rw [RunsRound, tempSensorsLoop_of_closed closed] at round
    exact Nat.lt_irrefl _ round
  · exact fun due => (tempSensorsLoop_of_open due).2.1

theorem tempSensorsLoop_spec (w : World) :
    gateTime w ≤ (tempSensorsLoop w).now ∧
      (tempSensorsLoop w).lastReconnectAttempt = w.lastReconnectAttempt := by
  by_cases due : RoundDue w
  case pos =>
    obtain ⟨now, -, kept, -⟩ := tempSensorsLoop_of_open due
    exact ⟨now, kept⟩
  case neg =>
    rw [tempSensorsLoop_of_closed due]
    exact ⟨Nat.le_refl _, rfl⟩

/-! ## Runs -/

/-- Passes of the loop, one after another. -/
def Passes (board : Nat → World) : Prop := ∀ k, board (k + 1) = loop (board k)

section Runs

variable {board : Nat → World} (passes : Passes board)

include passes

theorem gateTime_le_end (k : Nat) : gateTime (mqttLoop (board k)) ≤ (board (k + 1)).now := by
  rw [passes k, loop]
  exact (tempSensorsLoop_spec _).1

theorem gateTime_le_now (k : Nat) : gateTime (board k) ≤ (board (k + 1)).now := by
  have next : (mqttLoop (board k)).now ≤ gateTime (mqttLoop (board k)) := Nat.le_add_right _ _
  exact ((mqttLoop_spec _).1.trans next).trans (gateTime_le_end passes k)

theorem now_le_gateTime_of_lt {j k : Nat} (before : j < k) :
    (board (j + 1)).now ≤ gateTime (board k) := by
  have monotone : Monotone fun k => (board k).now := by
    refine monotone_nat_of_le_succ fun k => ?_
    have start : (board k).now ≤ gateTime (board k) := Nat.le_add_right _ _
    exact start.trans (gateTime_le_now passes k)
  have start : (board k).now ≤ gateTime (board k) := Nat.le_add_right _ _
  exact (monotone before).trans start

theorem gateTime_lt {j k : Nat} (before : j < k) : gateTime (board j) ≤ gateTime (board k) :=
  (gateTime_le_now passes j).trans (now_le_gateTime_of_lt passes before)

theorem lastReconnectAttempt_succ (k : Nat) :
    (board (k + 1)).lastReconnectAttempt = (mqttLoop (board k)).lastReconnectAttempt := by
  rw [passes k, loop, (tempSensorsLoop_spec _).2]

/-- While no attempt is made, the stored time stays. -/
theorem lastReconnectAttempt_kept {j k : Nat} (ordered : j ≤ k)
    (quiet : ∀ i, j ≤ i → i < k → ¬ Attempts (board i)) :
    (board k).lastReconnectAttempt = (board j).lastReconnectAttempt := by
  induction k, ordered using Nat.le_induction with
  | base => rfl
  | succ k ordered inductionHypothesis =>
    have closed := quiet k ordered (Nat.lt_succ_self k)
    rw [attempts_iff] at closed
    rw [lastReconnectAttempt_succ passes, (mqttLoop_of_closed closed).lastReconnectAttempt]
    exact inductionHypothesis fun i from_j below => quiet i from_j (Nat.lt_succ_of_lt below)

/-- A failed attempt stores its time, until the next attempt. -/
theorem lastReconnectAttempt_of_fails {j k : Nat} (before : j < k) (failed : Fails (board j))
    (quiet : ∀ i, j < i → i < k → ¬ Attempts (board i)) :
    (board k).lastReconnectAttempt = (counter (gateTime (board j))).toInt32 := by
  obtain ⟨disconnected, due⟩ := (attempts_iff _).mp failed.1
  rw [lastReconnectAttempt_kept passes before quiet, lastReconnectAttempt_succ passes,
    (mqttLoop_of_open disconnected due).2.2.2, failed.2]
  rfl

theorem lastTempRead_kept {j k : Nat} (ordered : j ≤ k)
    (quiet : ∀ i, j ≤ i → i < k → ¬ RunsRound (mqttLoop (board i))) :
    (board k).lastTempRead = (board j).lastTempRead := by
  induction k, ordered using Nat.le_induction with
  | base => rfl
  | succ k ordered inductionHypothesis =>
    have closed := quiet k ordered (Nat.lt_succ_self k)
    rw [runsRound_iff] at closed
    rw [passes k, loop, tempSensorsLoop_of_closed closed]
    show (mqttLoop (board k)).lastTempRead = _
    rw [(mqttLoop_spec _).2]
    exact inductionHypothesis fun i from_j below => quiet i from_j (Nat.lt_succ_of_lt below)

/-- A round stores the time of its end, until the next round. -/
theorem lastTempRead_of_round {j k : Nat} (before : j < k) (round : RunsRound (mqttLoop (board j)))
    (quiet : ∀ i, j < i → i < k → ¬ RunsRound (mqttLoop (board i))) :
    (board k).lastTempRead = counter (board (j + 1)).now := by
  have due := (runsRound_iff _).mp round
  rw [lastTempRead_kept passes before quiet, passes j, loop]
  exact (tempSensorsLoop_of_open due).2.2.2

theorem now_le_gateTime {j k : Nat} (before : j < k) :
    (board (j + 1)).now ≤ gateTime (mqttLoop (board k)) := by
  have next : (mqttLoop (board k)).now ≤ gateTime (mqttLoop (board k)) := Nat.le_add_right _ _
  exact (now_le_gateTime_of_lt passes before).trans ((mqttLoop_spec _).1.trans next)

theorem roundTime_lt {j k : Nat} (before : j < k) :
    gateTime (mqttLoop (board j)) ≤ gateTime (mqttLoop (board k)) :=
  (gateTime_le_end passes j).trans (now_le_gateTime passes before)

end Runs

/-! ## The gates -/

/-- The connection: an attempt that failed is followed by none for 5 seconds, and by one
    as soon as the client is found disconnected later, within one period of the clock;
    and a client that stays disconnected is connected again. -/
structure ReconnectGate (board : Nat → World) : Prop where
  spaced : ∀ j k, j < k → Fails (board j) → Attempts (board k) →
    gateTime (board j) + 5000 < gateTime (board k)
  retried : ∀ j k, j < k → Fails (board j) → (∀ i, j < i → i < k → ¬ Attempts (board i)) →
    Disconnected (board k) → 5000 < gateTime (board k) - gateTime (board j) →
    gateTime (board k) - gateTime (board j) < 2 ^ 32 → Attempts (board k)
  recovered : ∀ j k, j ≤ k → Disconnected (board j) → Disconnected (board k) →
    5001 ≤ gateTime (board k) - gateTime (board j) →
    gateTime (board k) - gateTime (board j) ≤ 2 ^ 32 - 5001 →
    ∃ i, j ≤ i ∧ i ≤ k ∧ Attempts (board i)

/-- The temperature rounds: 40 seconds lie between the end of one and the begin of a later
    one, and a pass after them, within one period of the clock, runs one. -/
structure TemperatureGate (board : Nat → World) : Prop where
  spaced : ∀ j k, j < k → RunsRound (mqttLoop (board j)) → RunsRound (mqttLoop (board k)) →
    (board (j + 1)).now + 40000 < gateTime (mqttLoop (board k))
  repeated : ∀ j k, j < k → RunsRound (mqttLoop (board j)) →
    (∀ i, j < i → i < k → ¬ RunsRound (mqttLoop (board i))) →
    40001 ≤ gateTime (mqttLoop (board k)) - (board (j + 1)).now →
    gateTime (mqttLoop (board k)) - (board (j + 1)).now ≤ 2 ^ 32 - 1 →
    RunsRound (mqttLoop (board k))

theorem reconnectGate {board : Nat → World} (passes : Passes board) : ReconnectGate board where
  spaced := by
    intro j k before failed attempt
    apply lt_of_first (fun k => Attempts (board k)) (fun i k => gateTime_lt passes) _ before attempt
    -- the next attempt after the failed one compares the clock with its time
    intro k before attempt quiet
    have due := ((attempts_iff _).mp attempt).2
    rw [ReconnectDue, lastReconnectAttempt_of_fails passes before failed quiet,
      UInt32.toUInt32_toInt32] at due
    exact delay_passed (gateTime_lt passes before) due
  retried := by
    intro j k before failed quiet disconnected passed period
    refine (attempts_iff _).mpr ⟨disconnected, ?_⟩
    rw [ReconnectDue, lastReconnectAttempt_of_fails passes before failed quiet,
      UInt32.toUInt32_toInt32]
    have delay : mqttReconnectDelay.toNat = 5000 := rfl
    exact gate_open (by omega) period
  recovered := by
    intro j k ordered first second apart period
    by_contra none
    have quiet : ∀ i, j ≤ i → i ≤ k → ¬ Attempts (board i) :=
      fun i after before attempt => none ⟨i, after, before, attempt⟩
    have kept := lastReconnectAttempt_kept passes ordered
      fun i after before => quiet i after (Nat.le_of_lt before)
    have delay : mqttReconnectDelay.toNat = 5000 := rfl
    have either : ReconnectDue (board j) ∨ ReconnectDue (board k) := by
      rw [ReconnectDue, ReconnectDue, kept]
      exact either_gate_open _ (by omega) (by omega)
    rcases either with due | due
    · exact quiet j (Nat.le_refl j) ordered ((attempts_iff _).mpr ⟨first, due⟩)
    · exact quiet k ordered (Nat.le_refl k) ((attempts_iff _).mpr ⟨second, due⟩)

theorem temperatureGate {board : Nat → World} (passes : Passes board) :
    TemperatureGate board where
  spaced := by
    intro j k before round later
    apply lt_of_first (fun k => RunsRound (mqttLoop (board k))) (fun i k => roundTime_lt passes) _
      before later
    intro k before later quiet
    have due := (runsRound_iff _).mp later
    rw [RoundDue, (mqttLoop_spec _).2, lastTempRead_of_round passes before round quiet] at due
    exact delay_passed (now_le_gateTime passes before) due
  repeated := by
    intro j k before round quiet passed period
    rw [runsRound_iff, RoundDue, (mqttLoop_spec _).2,
      lastTempRead_of_round passes before round quiet]
    have delay : tempPublishDelay.toNat = 40000 := rfl
    exact gate_open (by omega) (by omega)

/-- Both gates work over the whole life of the board, however often its clock wraps. -/
theorem periodic_gates (retained : CString → Option CString) (answers : Stream' Answer) :
    ReconnectGate (boardRun retained answers) ∧ TemperatureGate (boardRun retained answers) :=
  ⟨reconnectGate fun _ => rfl, temperatureGate fun _ => rfl⟩

end HomeAutomation.CentralBoard
