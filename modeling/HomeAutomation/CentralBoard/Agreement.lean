import HomeAutomation.CentralBoard.Commands
import HomeAutomation.CentralBoard.Loop

/-! # Agreement with the broker

The board publishes every pin once, after the first connection it made, and then a
pin when it changes.  It never looks at the result of a publish, so what the broker
retains for a pin is the pin's state exactly as far as the latest publish for that
pin went through.  `Mirrors` states this, and every operation of the sketch keeps
it: `publish` because it is sent the present state, and everything else because it
leaves the tables alone.
-/

namespace HomeAutomation.CentralBoard

open HomeAutomation.Lib HomeAutomation.Lib.CString HomeAutomation.Lib.History

/-- The result of a retained publish on the topic of a pin. -/
def publishResult (number : Int) : Call → Option Bool
  | .publish topic _ true result => if topic = infoTopic number then some result else none
  | _ => none

/-- The broker retains the state of every pin whose latest publish succeeded. -/
structure Mirrors (w : World) : Prop where
  distinct : (w.mqttPins.map (·.pinNumber)).Nodup
  retained : ∀ mqttPin ∈ w.mqttPins,
    latest (publishResult mqttPin.pinNumber) w.calls = some true →
      w.retained (infoTopic mqttPin.pinNumber) = some (payloadOf mqttPin.pinState)

/-- Every pin has been published, successfully or not. -/
def Attempted (w : World) : Prop :=
  ∀ number ∈ w.mqttPins.map (·.pinNumber), (latest (publishResult number) w.calls).isSome

/-! ## A publish -/

theorem latest_publish (number other : Int) (payload : CString) (w : World) :
    latest (publishResult other) (w.publish (infoTopic number) payload true).calls =
      if other = number then some w.answers.head.result
      else latest (publishResult other) w.calls := by
  rw [World.calls_publish, latest_snoc, publishResult]
  by_cases same : other = number
  · simp [same]
  · have topics : infoTopic number ≠ infoTopic other :=
      fun equal => same (infoTopic_injective equal).symm
    simp [same, topics]

theorem retained_publish (number other : Int) (payload : CString) (w : World) :
    (w.publish (infoTopic number) payload true).retained (infoTopic other) =
      if other = number ∧ w.answers.head.result = true then some payload
      else w.retained (infoTopic other) := by
  by_cases result : w.answers.head.result = true
  -- a failed publish stores nothing
  case neg => simp [World.publish, result]
  by_cases same : other = number
  · simp [World.publish, result, same]
  · have topics : infoTopic other ≠ infoTopic number :=
      fun equal => same (infoTopic_injective equal)
    simp [World.publish, result, same, topics]

/-- A publish that is not retained leaves what the broker keeps. -/
theorem latest_publish_unretained (number : Int) (topic payload : CString) (w : World) :
    latest (publishResult number) (w.publish topic payload false).calls =
      latest (publishResult number) w.calls := by
  rw [World.calls_publish]
  exact latest_snoc_none _ rfl

/-! ## What does not concern the pins -/

/-- `next` has the pins and the retained values of `w`, and the same latest
    publishes. -/
structure SameForPins (w next : World) : Prop where
  pins : next.mqttPins = w.mqttPins
  retained : next.retained = w.retained
  results : ∀ number, latest (publishResult number) next.calls =
    latest (publishResult number) w.calls
  published : next.published = w.published
  disconnected : next.connected = true → w.connected = true

namespace SameForPins

theorem refl (w : World) : SameForPins w w := ⟨rfl, rfl, fun _ => rfl, rfl, id⟩

theorem trans {first second third : World} (left : SameForPins first second)
    (right : SameForPins second third) : SameForPins first third where
  pins := right.pins.trans left.pins
  retained := right.retained.trans left.retained
  results number := (right.results number).trans (left.results number)
  published := right.published.trans left.published
  disconnected stays := left.disconnected (right.disconnected stays)

theorem mirrors {w next : World} (same : SameForPins w next) (holds : Mirrors w) : Mirrors next where
  distinct := by rw [same.pins]; exact holds.distinct
  retained := by
    intro mqttPin member succeeded
    rw [same.pins] at member
    rw [same.results] at succeeded
    rw [same.retained]
    exact holds.retained mqttPin member succeeded

theorem attempted {w next : World} (same : SameForPins w next) (holds : Attempted w) :
    Attempted next := by
  intro number member
  rw [same.pins] at member
  rw [same.results]
  exact holds number member

theorem proceed (w : World) : SameForPins w w.proceed :=
  ⟨rfl, rfl, fun _ => rfl, rfl, World.connected_proceed⟩

theorem log {w : World} {call : Call} (silent : ∀ number, publishResult number call = none) :
    SameForPins w (w.log call) :=
  ⟨rfl, rfl, fun number => latest_snoc_none _ (silent number), rfl, id⟩

theorem delay (w : World) (milliseconds : Nat) : SameForPins w (w.delay milliseconds) :=
  ⟨rfl, rfl, fun _ => rfl, rfl, id⟩

theorem publish (w : World) (topic payload : CString) :
    SameForPins w (w.publish topic payload false) :=
  ⟨rfl, by simp [World.publish], fun number => latest_publish_unretained number topic payload w,
    rfl, World.connected_publish⟩

theorem foldl {α : Type} {step : World → α → World} (each : ∀ w a, SameForPins w (step w a))
    (items : List α) (w : World) : SameForPins w (items.foldl step w) :=
  List.foldlRecOn (motive := SameForPins w) items step (refl w)
    fun next same item _ => same.trans (each next item)

end SameForPins

theorem sameForPins_publishTemp (tempIndex : Nat) (w : World) :
    SameForPins w (publishTemp tempIndex w) := by
  unfold publishTemp
  split
  · exact .refl w
  · rename_i sensor _
    have read : SameForPins w (getTemperature sensor w).2 :=
      (SameForPins.proceed w).trans (.log fun _ => rfl)
    simp only
    split
    · exact read
    · exact (read.trans (.publish _ _ _)).trans (.delay _ _)

theorem sameForPins_tempSensorsLoop (w : World) : SameForPins w (tempSensorsLoop w) := by
  unfold tempSensorsLoop
  have requested : ∀ bus w, SameForPins w (requestTemperatures bus w) :=
    fun bus w => (SameForPins.proceed w).trans (.log fun _ => rfl)
  have round : ∀ w, SameForPins w (publishTempSensors w) :=
    fun w => .foldl (fun w i => sameForPins_publishTemp i w) _ w
  simp only
  split
  · have started := (SameForPins.proceed w).trans (requested .roomTemp w.proceed)
    have finished := (started.trans (requested .outsideTemp _)).trans (round _)
    exact ⟨finished.pins, finished.retained, finished.results, finished.published,
      finished.disconnected⟩
  · exact .proceed w

theorem sameForPins_setup (w : World) : SameForPins w (setup w) := by
  have sensors : SameForPins w (setupTempSensors w) := .foldl (fun _ _ => .log fun _ => rfl) _ w
  have pins : SameForPins (setupTempSensors w) (setupInputPins (setupTempSensors w)) :=
    .foldl (fun w _ => (SameForPins.log fun _ => rfl).trans (.log fun _ => rfl)) _ _
  exact (sensors.trans pins).trans (.delay _ _)

/-! ## What publishes and switches pins -/

/-- What every operation keeps of a world that mirrors its pins. -/
structure Kept (w next : World) : Prop where
  mirrors : Mirrors next
  numbers : next.mqttPins.map (·.pinNumber) = w.mqttPins.map (·.pinNumber)
  attempted : ∀ number, (latest (publishResult number) w.calls).isSome →
    (latest (publishResult number) next.calls).isSome
  published : next.published = w.published
  disconnected : next.connected = true → w.connected = true

theorem Kept.refl {w : World} (holds : Mirrors w) : Kept w w :=
  ⟨holds, rfl, fun _ => id, rfl, id⟩

theorem Kept.trans {first second third : World} (left : Kept first second)
    (right : Kept second third) : Kept first third where
  mirrors := right.mirrors
  numbers := right.numbers.trans left.numbers
  attempted number past := right.attempted number (left.attempted number past)
  published := right.published.trans left.published
  disconnected stays := left.disconnected (right.disconnected stays)

theorem SameForPins.kept {w next : World} (same : SameForPins w next) (holds : Mirrors w) :
    Kept w next where
  mirrors := same.mirrors holds
  numbers := by rw [same.pins]
  attempted number past := by rw [same.results]; exact past
  published := same.published
  disconnected := same.disconnected

theorem Kept.foldl {α : Type} {step : World → α → World}
    (each : ∀ w a, Mirrors w → Kept w (step w a)) :
    ∀ (items : List α) (w : World), Mirrors w → Kept w (items.foldl step w)
  | [], _, holds => .refl holds
  | item :: items, w, holds =>
    (each w item holds).trans (Kept.foldl each items _ (each w item holds).mirrors)

/-- Publishing the present state of a pin makes the broker mirror it, if the publish
    succeeds; a pin whose publish fails is no longer promised anything. -/
theorem mirrors_publish {w : World} {number : Int} {state : Bool}
    (distinct : (w.mqttPins.map (·.pinNumber)).Nodup)
    (own : ∀ mqttPin ∈ w.mqttPins, mqttPin.pinNumber = number → mqttPin.pinState = state)
    (others : ∀ mqttPin ∈ w.mqttPins, mqttPin.pinNumber ≠ number →
      latest (publishResult mqttPin.pinNumber) w.calls = some true →
        w.retained (infoTopic mqttPin.pinNumber) = some (payloadOf mqttPin.pinState)) :
    Mirrors (w.publish (infoTopic number) (payloadOf state) true) where
  distinct := distinct
  retained := by
    intro mqttPin member succeeded
    rw [latest_publish] at succeeded
    rw [retained_publish]
    by_cases same : mqttPin.pinNumber = number
    · rw [if_pos same, Option.some.injEq] at succeeded
      rw [if_pos ⟨same, succeeded⟩, own mqttPin member same]
    · rw [if_neg same] at succeeded
      rw [if_neg fun chosen => same chosen.1]
      exact others mqttPin member same succeeded

theorem attempted_publish {w : World} {number other : Int} {payload : CString}
    (past : (latest (publishResult other) w.calls).isSome) :
    (latest (publishResult other) (w.publish (infoTopic number) payload true).calls).isSome := by
  rw [latest_publish]
  split
  · rfl
  · exact past

theorem kept_publishPinState (pinIndex : Nat) {w : World} (holds : Mirrors w) :
    Kept w (publishPinState pinIndex w) := by
  cases entry : w.mqttPins[pinIndex]? with
  | none =>
    have same : publishPinState pinIndex w = w := by simp [publishPinState, entry]
    rw [same]
    exact .refl holds
  | some mqttPin =>
    rw [publishPinState_eq entry]
    have member : mqttPin ∈ w.mqttPins := List.mem_of_getElem? entry
    have published : Kept w (w.publish (infoTopic mqttPin.pinNumber)
        (payloadOf mqttPin.pinState) true) := by
      refine ⟨mirrors_publish holds.distinct ?_ ?_, rfl, fun _ => attempted_publish, rfl,
        World.connected_publish⟩
      -- the payload is the state of the one entry with this number
      · intro other otherMember same
        rw [List.inj_on_of_nodup_map holds.distinct otherMember member same]
      · exact fun other otherMember _ => holds.retained other otherMember
    exact published.trans ((SameForPins.delay _ 20).kept published.mirrors)

theorem kept_switchPin {number : Int} {state : Bool} {w : World} (holds : Mirrors w) :
    Kept w (switchPin number state w) := by
  have numbers : (w.mqttPins.map (withState number state)).map (·.pinNumber) =
      w.mqttPins.map (·.pinNumber) := by
    rw [List.map_map]
    exact List.map_congr_left fun mqttPin _ => pinNumber_withState number state mqttPin
  let written := { w with mqttPins := w.mqttPins.map (withState number state) }.digitalWrite
    number state
  have results : ∀ other, latest (publishResult other) written.calls =
      latest (publishResult other) w.calls := fun other => latest_snoc_none _ rfl
  have published : Kept w (written.publish (infoTopic number) (payloadOf state) true) := by
    refine ⟨mirrors_publish ?_ ?_ ?_, numbers, ?_, rfl, World.connected_publish⟩
    · have same : written.mqttPins.map (·.pinNumber) = w.mqttPins.map (·.pinNumber) := numbers
      rw [same]
      exact holds.distinct
    · intro mqttPin member same
      obtain ⟨before, -, rfl⟩ := List.mem_map.mp member
      rw [pinNumber_withState] at same
      simp [withState, same]
    · -- an entry that was not switched is an entry of the old table
      intro mqttPin member other succeeded
      obtain ⟨before, beforeMember, rfl⟩ := List.mem_map.mp member
      rw [pinNumber_withState] at other
      have unchanged : withState number state before = before := by simp [withState, other]
      rw [unchanged, results] at succeeded
      rw [unchanged]
      exact holds.retained before beforeMember succeeded
    · intro other past
      exact attempted_publish (by rw [results]; exact past)
  exact published.trans ((SameForPins.delay _ 20).kept published.mirrors)

theorem kept_callback (message : Message) {w : World} (holds : Mirrors w) :
    Kept w (callback message w) := by
  refine callback_induction (.refl holds) fun number state => ?_
  rcases changePinState_cases holds.distinct number state with ⟨same, -⟩ | ⟨switched, -⟩
  · rw [same]
    exact .refl holds
  · rw [switched]
    exact kept_switchPin holds

theorem kept_publishPinStates {w : World} (holds : Mirrors w) : Kept w (publishPinStates w) :=
  .foldl (fun _ i holds => kept_publishPinState i holds) _ w holds

theorem kept_clientLoop {w : World} (holds : Mirrors w) : Kept w (clientLoop w) := by
  have waited := (SameForPins.proceed w).kept holds
  exact waited.trans
    (.foldl (fun _ message holds => kept_callback message holds) _ _ waited.mirrors)

/-- The pass over all pins attempts every one of them. -/
theorem attempted_publishPinStates {w : World} (holds : Mirrors w) :
    Attempted (publishPinStates w) := by
  have general : ∀ (indices : List Nat) (w' : World), Kept w w' → ∀ i ∈ indices, ∀ mqttPin,
      w.mqttPins[i]? = some mqttPin →
        (latest (publishResult mqttPin.pinNumber)
          (indices.foldl (fun w i => publishPinState i w) w').calls).isSome := by
    intro indices
    induction indices with
    | nil => intro w' _ i member; cases member
    | cons first indices inductionHypothesis =>
      intro w' kept i member mqttPin entry
      have next := kept.trans (kept_publishPinState first kept.mirrors)
      rcases List.mem_cons.mp member with rfl | later
      · -- this index is published now, and what follows does not undo it
        have rest := Kept.foldl (fun _ i holds => kept_publishPinState i holds) indices _ next.mirrors
        refine rest.attempted _ ?_
        have number : (w'.mqttPins.map (·.pinNumber))[i]? = some mqttPin.pinNumber := by
          rw [kept.numbers, List.getElem?_map, entry, Option.map_some]
        rw [List.getElem?_map, Option.map_eq_some_iff] at number
        obtain ⟨entry', present, number⟩ := number
        rw [publishPinState_eq present, World.calls_delay, latest_publish, if_pos number.symm]
        rfl
      · exact inductionHypothesis _ next i later mqttPin entry
  intro number member
  rw [(kept_publishPinStates holds).numbers] at member
  obtain ⟨mqttPin, pinMember, rfl⟩ := List.mem_map.mp member
  obtain ⟨i, bound, at_i⟩ := List.getElem_of_mem pinMember
  exact general _ w (.refl holds) i (List.mem_range.mpr bound) mqttPin
    (List.getElem?_eq_some_iff.mpr ⟨bound, at_i⟩)

/-! ## Runs -/

/-- What holds whenever `loop` returns. -/
structure Settled (w : World) : Prop where
  mirrors : Mirrors w
  numbers : w.mqttPins.map (·.pinNumber) = boardPins.map (·.pinNumber)
  attempted : w.published = true → Attempted w
  connected : w.connected = true → w.published = true

theorem Settled.kept {w next : World} (settled : Settled w) (kept : Kept w next) :
    Settled next where
  mirrors := kept.mirrors
  numbers := kept.numbers.trans settled.numbers
  attempted published number member := by
    rw [kept.published] at published
    rw [kept.numbers] at member
    exact kept.attempted number (settled.attempted published number member)
  connected stays := by
    rw [kept.published]
    exact settled.connected (kept.disconnected stays)

theorem settled_setup (retained : CString → Option CString) (answers : Stream' Answer) :
    Settled (setup (powerOn retained answers)) := by
  have off : Settled (powerOn retained answers) :=
    { mirrors := ⟨boardTable.distinct, fun _ _ succeeded => by cases succeeded⟩
      numbers := rfl
      attempted := fun published => by cases published
      connected := fun connected => by cases connected }
  exact off.kept ((sameForPins_setup _).kept off.mirrors)

theorem reconnect_fst (w : World) : (reconnect w).1 = (reconnect w).2.connected := rfl

/-- A reconnection concerns no pin, except that it may connect. -/
theorem sameForPins_reconnect (w : World) :
    SameForPins w { (reconnect w).2 with connected := false } := by
  have dialled : ∀ number, latest (publishResult number)
      (w.connect (ofString "centralBoard")).calls = latest (publishResult number) w.calls :=
    fun number => latest_snoc_none _ rfl
  unfold reconnect
  dsimp only
  split
  · exact ⟨rfl, rfl, fun number => (latest_snoc_none _ rfl).trans (dialled number), rfl,
      fun stays => by cases stays⟩
  · exact ⟨rfl, rfl, dialled, rfl, fun stays => by cases stays⟩

theorem Settled.of_disconnected {w : World} (settled : Settled { w with connected := false })
    (published : w.connected = true → w.published = true) : Settled w where
  mirrors := ⟨settled.mirrors.distinct, settled.mirrors.retained⟩
  numbers := settled.numbers
  attempted := settled.attempted
  connected := published

/-- The first connection publishes every pin, later ones publish nothing. -/
theorem settled_connected {w : World} (settled : Settled { w with connected := false }) :
    Settled (if !w.published then { publishPinStates w with published := true } else w) := by
  by_cases published : w.published = true
  · rw [if_neg (by simp [published])]
    exact settled.of_disconnected fun _ => published
  · rw [if_pos (by simpa using published)]
    -- the flag is set whatever became of the publishes
    have mirrors : Mirrors w := ⟨settled.mirrors.distinct, settled.mirrors.retained⟩
    have kept := kept_publishPinStates mirrors
    exact
      { mirrors := ⟨kept.mirrors.distinct, kept.mirrors.retained⟩
        numbers := kept.numbers.trans settled.numbers
        attempted := fun _ => attempted_publishPinStates mirrors
        connected := fun _ => rfl }

theorem settled_mqttLoop {w : World} (settled : Settled w) : Settled (mqttLoop w) := by
  have polled := settled.kept ((SameForPins.proceed w).kept settled.mirrors)
  unfold mqttLoop
  dsimp only
  split
  case isFalse => exact polled.kept (kept_clientLoop polled.mirrors)
  split
  case isFalse => exact polled
  -- `dialled` is the world after `reconnect`, its connection left out
  have dialling : Settled { w.proceed with lastReconnectAttempt := w.proceed.millis.toInt32 } :=
    ⟨⟨polled.mirrors.distinct, polled.mirrors.retained⟩, polled.numbers, polled.attempted,
      polled.connected⟩
  have dialled := dialling.kept ((sameForPins_reconnect _).kept dialling.mirrors)
  split
  case isFalse failed =>
    refine dialled.of_disconnected fun stays => absurd ?_ failed
    rw [reconnect_fst]
    exact stays
  exact settled_connected (w := { (reconnect _).2 with lastReconnectAttempt := 0 })
    ⟨⟨dialled.mirrors.distinct, dialled.mirrors.retained⟩, dialled.numbers, dialled.attempted,
      dialled.connected⟩

theorem settled_boardRun (retained : CString → Option CString) (answers : Stream' Answer)
    (passes : Nat) : Settled (boardRun retained answers passes) := by
  induction passes with
  | zero => exact settled_setup retained answers
  | succ passes inductionHypothesis =>
    have connected := settled_mqttLoop inductionHypothesis
    exact connected.kept ((sameForPins_tempSensorsLoop _).kept connected.mirrors)

/-- Whenever `loop` returns with the client connected, every pin has been published,
    and the broker retains the state of every pin whose latest publish returned
    true. -/
theorem agreement_of_latest_publish (retained : CString → Option CString)
    (answers : Stream' Answer) (passes : Nat)
    (connected : (boardRun retained answers passes).connected = true) :
    let board := boardRun retained answers passes
    board.mqttPins.map (·.pinNumber) = boardPins.map (·.pinNumber) ∧
      ∀ mqttPin ∈ board.mqttPins,
        ∃ result, latest (publishResult mqttPin.pinNumber) board.calls = some result ∧
          (result = true →
            board.retained (infoTopic mqttPin.pinNumber) = some (payloadOf mqttPin.pinState)) := by
  intro board
  have settled := settled_boardRun retained answers passes
  refine ⟨settled.numbers, fun mqttPin member => ?_⟩
  have attempted := settled.attempted (settled.connected connected) mqttPin.pinNumber
    (List.mem_map_of_mem member)
  obtain ⟨result, latestResult⟩ := Option.isSome_iff_exists.mp attempted
  refine ⟨result, latestResult, ?_⟩
  rintro rfl
  exact settled.mirrors.retained mqttPin member latestResult

/-- A network on which everything succeeds, from a time when the reconnection gate
    is open. -/
def reliable : Stream' Answer := fun i => ⟨if i = 0 then 6000 else 0, false, true, [], 0⟩

/-- The same, but every publish fails: it is the fifth call that is the first one. -/
def publishesFail : Stream' Answer :=
  fun i => ⟨if i = 0 then 6000 else 0, false, decide (i < 4), [], 0⟩

theorem agreement_of_latest_publish_reliable :
    (boardRun (fun _ => none) reliable 1).retained (infoTopic 47) = some (payloadOf false) := by
  have agreement := agreement_of_latest_publish (fun _ => none) reliable 1 rfl
  obtain ⟨result, latestResult, mirrored⟩ := agreement.2 ⟨47, false⟩ (by decide)
  have succeeded : latest (publishResult 47) (boardRun (fun _ => none) reliable 1).calls =
      some true := by decide
  exact mirrored (Option.some.inj (latestResult.symm.trans succeeded))

/-- Agreement at every connected return fails: the publishes of the first connection
    may all fail, and are not repeated. -/
theorem agreement_fails :
    ¬ ∀ (retained : CString → Option CString) (answers : Stream' Answer) (passes : Nat),
      (boardRun retained answers passes).connected = true →
        ∀ mqttPin ∈ (boardRun retained answers passes).mqttPins,
          (boardRun retained answers passes).retained (infoTopic mqttPin.pinNumber) =
            some (payloadOf mqttPin.pinState) := by
  intro agreement
  have stored := agreement (fun _ => none) publishesFail 1 rfl ⟨47, false⟩ (by decide)
  exact absurd stored (by decide)

end HomeAutomation.CentralBoard
