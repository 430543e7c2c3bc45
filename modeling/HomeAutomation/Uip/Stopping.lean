import HomeAutomation.Uip.InOrder

/-! # Stopping and restarting

When all places for packets are taken, `uipclient_appcall` stops the connection, and
reading a packet to its end lets it go on.  For this `read` asks `uip_stopped` about the
connection that stands in `uip_conns` where the client's data stand in `all_data`.  Where
that is the client's own, bytes are lost only for want of memory and reading always brings
the next ones; where it is another, the connection can be stopped for good.
-/

namespace HomeAutomation.Uip

open HomeAutomation.Lib.Transition MemoryPool Enc28J60

namespace Connection

variable {c d : Connection}

/-- Storing new data where a place is free stops the connection when that was the last one. -/
theorem Holding.newData_places (holding : Holding c) (notClosed : c.stateRemoteClosed = false)
    {address : UInt16} {payload : List UInt8} (arrived : Arrived c.pool address payload)
    (notEmpty : payload ≠ []) (free : noBlock ∈ c.packetsIn) {stored : Bool}
    (result : c.newData address payload.length = some (d, stored)) :
    d.stateRestart = c.stateRestart ∧ (d.stopped = false → noBlock ∈ d.packetsIn) ∧
      (stored = false → ¬ Heap.Room (contents c.pool) payload.length) ∧
      (stored = true → d.stopped = true → c.stopped = true ∨ noBlock ∉ d.packetsIn) := by
  obtain ⟨live, queue⟩ := holding.queue
  obtain ⟨r, live', found, valid, queueR, _, full, refused⟩ :=
    storePacket_spec holding.valid queue arrived notEmpty
  rw [newData, if_pos ⟨mt List.eq_nil_of_length_eq_zero notEmpty, by simp [notClosed]⟩, found]
    at result
  obtain ⟨rfl, rfl⟩ := Prod.mk.inj (Option.some_inj.mp result)
  refine ⟨rfl, fun goesOn => ?_, fun notStored => ?_, fun stored stops => ?_⟩
  · have goesOn := (Bool.or_eq_false_iff.mp goesOn).2
    have stored : r.stored = true := by
      by_contra notStored
      rw [(refused (Bool.eq_false_iff.mpr notStored)).2.1] at goesOn
      cases goesOn
    have notFull : live'.length ≠ socketNumPackets := by
      intro length
      rw [(full stored).mpr length] at goesOn
      cases goesOn
    exact (queueR.mem_noBlock_iff valid).mpr (Nat.lt_of_le_of_ne queueR.fits notFull)
  · rcases (refused notStored).2.2 with taken | noRoom
    · have more := (queue.mem_noBlock_iff holding.valid).mp free
      exact absurd taken more.ne
    · exact noRoom
  · rcases Bool.or_eq_true_iff.mp stops with before | now
    · exact Or.inl before
    · refine Or.inr fun more => ?_
      have less := (queueR.mem_noBlock_iff valid).mp more
      exact absurd ((full stored).mp now) less.ne

/-- Reading a packet to its end frees a place, and wants a restart if the connection is
    stopped. -/
theorem Holding.read_places (holding : Holding c) (notClosed : c.stateRemoteClosed = false)
    {size : Nat} {stopped : Bool} {bytes : List UInt8}
    (result : c.read size stopped = some (bytes, d)) :
    d.stopped = c.stopped ∧
      ∃ ate : Bool, d.stateRestart = (c.stateRestart || (ate && stopped)) ∧
        (if ate then noBlock ∈ d.packetsIn else (noBlock ∈ d.packetsIn ↔ noBlock ∈ c.packetsIn)) := by
  rw [read] at result
  by_cases reads : (c.isOpen && c.hasPacket) = true
  case neg =>
    rw [if_neg reads] at result
    cases result
    exact ⟨rfl, false, by simp, Iff.rfl⟩
  case pos =>
    rw [if_pos reads] at result
    obtain ⟨_, some⟩ := Bool.and_eq_true_iff.mp reads
    obtain ⟨live, queue⟩ := holding.queue
    have notEmpty := holding.live_ne_nil queue some
    obtain ⟨r, live', looped, valid, queueR, _, _, shorter⟩ :=
      @readLoop_spec _ _ live socketNumPackets size holding.valid queue notEmpty queue.fits
    rw [looped] at result
    simp only [Option.bind_eq_bind, Option.bind_some, notClosed, Bool.and_false,
      Bool.false_eq_true, if_false, Bool.not_false, Bool.and_true] at result
    cases result
    refine ⟨rfl, r.ate, rfl, ?_⟩
    simp only [queueR.mem_noBlock_iff valid, queue.mem_noBlock_iff holding.valid]
    split
    case isTrue ate =>
      rw [if_pos ate] at shorter
      exact Nat.lt_of_lt_of_le shorter queue.fits
    case isFalse part =>
      rw [if_neg part] at shorter
      rw [shorter]

/-- What a call does to the stop: a restart that is wanted is made. -/
theorem appcall_empty_places {stored : Bool} (called : c.appcall 0 0 false = some (d, stored)) :
    d.packetsIn = c.packetsIn ∧ d.stateRestart = false ∧
      d.stopped = (c.stopped && !c.stateRestart) := by
  have made : d = c.restart := by
    cases called
    rfl
  rw [made, restart]
  split
  case isTrue wanted => exact ⟨rfl, rfl, by rw [wanted, Bool.not_true, Bool.and_false]⟩
  case isFalse none =>
    have none := Bool.eq_false_iff.mpr none
    exact ⟨rfl, none, by rw [none, Bool.not_false, Bool.and_true]⟩

end Connection

namespace Flow

open Connection

variable {sent : List UInt8} {isn : SeqNo} {ownIndex : Bool} {s s' : Flow}

/-! ## The client's own connection -/

/-- The connection runs while a place is free, and is stopped without a restart only when all
    are taken. -/
structure Places (s : Flow) : Prop where
  free : s.conn.stopped = false → noBlock ∈ s.conn.packetsIn
  wanted : s.conn.stateRestart = true → s.conn.stopped = true ∧ noBlock ∈ s.conn.packetsIn
  full : s.lost = 0 → s.conn.stopped = true → s.conn.stateRestart = false →
    noBlock ∉ s.conn.packetsIn

theorem Places.arrive (places : Places s) (address : UInt16) (bytes : List UInt8) :
    Places (s.arrive address bytes) := ⟨places.free, places.wanted, places.full⟩

/-- A segment finds a free place; it is lost only for want of memory. -/
theorem Places.takes (sound : Sound sent isn s) (places : Places s)
    (established : s.conn.tcp = .established) (running : s.conn.stopped = false) {n : Nat}
    {address : UInt16} {payload : List UInt8} (arrived : Arrived s.conn.pool address payload)
    (notEmpty : payload ≠ []) {isClosed stored : Bool} {d : Connection}
    (called : (s.conn.uipAddRcvNxt n).appcall address payload.length isClosed =
      some (d, stored)) :
    (stored = false → ¬ Heap.Room (contents s.conn.pool) payload.length) ∧
      (isClosed = false → Places (s.taken payload address d stored)) := by
  have notWanted : s.conn.stateRestart = false := by
    by_contra wanted
    have stopped := (places.wanted (Bool.not_eq_false _ ▸ wanted)).1
    rw [running] at stopped
    cases stopped
  obtain ⟨⟨e, stored'⟩, result, done⟩ := Option.bind_eq_some_iff.mp called
  obtain ⟨restart, goesOn, lost, stops⟩ :=
    (sound.holding_next n).newData_places (sound.opened established).2.2 arrived notEmpty
      (places.free running) result
  obtain ⟨made, same⟩ := Prod.mk.inj (Option.some_inj.mp done)
  subst same
  refine ⟨lost, fun open' => ?_⟩
  have same : d = e := by
    rw [← made, open', if_neg Bool.false_ne_true, Connection.restart,
      if_neg (by rw [restart]; exact Bool.eq_false_iff.mp notWanted)]
  rw [same]
  refine ⟨goesOn, fun wanted => ?_, fun noLoss stopped _ => ?_⟩
  · exact absurd (notWanted.symm.trans (restart.symm.trans wanted)) Bool.noConfusion
  · have kept : stored' = true := by simpa using (Nat.add_eq_zero_iff.mp noLoss).2
    rcases stops kept stopped with before | full
    · exact absurd (running.symm.trans before) Bool.noConfusion
    · exact full

theorem Places.step (sound : Sound sent isn s)
    (places : s.conn.tcp = .established → Places s) {event : Event}
    (stepped : s.step sent isn true event = some s') (after : s'.conn.tcp = .established) :
    Places s' := by
  cases step_moved stepped with
  | stays => exact places after
  | arrives _ address bytes => exact (places after).arrive address bytes
  | takes isPayload isArrived inside arrived established running expected notEmpty called =>
    subst isArrived
    exact (((places established).arrive _ _).takes (sound.arrive _ _) established running arrived
      notEmpty called).2 rfl
  | closes => cases after
  | resets established called =>
    -- the connection is not established afterwards
    have closed := (sound.poll established (Or.inr rfl) called).2.2
    exact absurd (closed.symm.trans after) TcpState.noConfusion
  | timesOut established called =>
    have closed := (sound.timedOut established called).2
    exact absurd (closed.symm.trans after) TcpState.noConfusion
  | @polls d _ established called =>
    -- a wanted restart is made, and there is a place then
    obtain ⟨packets, made, stops⟩ := appcall_empty_places called
    have before := places established
    refine ⟨fun running => ?_, fun wanted => ?_, fun noLoss stopped _ => ?_⟩
    · show noBlock ∈ d.packetsIn
      rw [packets]
      rcases Bool.and_eq_false_iff.mp (stops.symm.trans running) with runs | wanted
      · exact before.free runs
      · exact (before.wanted (by simpa using wanted)).2
    · exact absurd (made.symm.trans wanted) Bool.noConfusion
    · show noBlock ∉ d.packetsIn
      rw [packets]
      obtain ⟨stopped, notWanted⟩ := Bool.and_eq_true_iff.mp (stops.symm.trans stopped)
      exact before.full noLoss stopped (by simpa using notWanted)
  | uses spares called => exact ⟨(places after).free, (places after).wanted, (places after).full⟩
  | @reads size _ bytes d result =>
    obtain ⟨bytes', d', result', _, _, _, tcp, _⟩ := sound.holding.read_spec size s.conn.stopped
    cases result.symm.trans result'
    have established := tcp.symm.trans after
    have before := places established
    obtain ⟨stays, ate, wants, more⟩ :=
      sound.holding.read_places (sound.opened established).2.2 result
    -- reading never takes a place, and frees one whenever it wants a restart
    have free : noBlock ∈ s.conn.packetsIn → noBlock ∈ d.packetsIn := by
      intro free
      split at more
      · exact more
      · exact more.mpr free
    refine ⟨fun running => ?_, fun wanted => ?_, fun noLoss stopped notWanted => ?_⟩
    · exact free (before.free (stays.symm.trans running))
    · rcases Bool.or_eq_true_iff.mp (wants.symm.trans wanted) with already | now
      · have wanted := before.wanted already
        exact ⟨stays.trans wanted.1, free wanted.2⟩
      · obtain ⟨whole, stopped⟩ := Bool.and_eq_true_iff.mp now
        rw [if_pos whole] at more
        exact ⟨stays.trans stopped, more⟩
    · obtain ⟨notBefore, notNow⟩ := Bool.or_eq_false_iff.mp (wants.symm.trans notWanted)
      have stopped := stays.symm.trans stopped
      rw [if_pos rfl, stopped, Bool.and_true] at notNow
      rw [notNow, if_neg Bool.false_ne_true] at more
      exact mt more.mp (before.full noLoss stopped notBefore)

/-- Nothing but a timeout ends the connection for the client, and it is stopped or gone. -/
structure Dead (accepted : List UInt8) (s : Flow) : Prop where
  opened : s.conn.Open
  holding : s.conn.Holding
  ended : s.conn.tcp = .closed ∨
    s.conn.tcp = .established ∧ s.conn.stopped = true ∧ s.conn.stateRestart = false
  accepted : s.accepted = accepted

theorem Dead.step {accepted : List UInt8} (dead : Dead accepted s) {event : Event}
    (calm : s.conn.tcp = .established →
      ownIndex = false ∧ event ≠ .timedOut ∧ ∀ size, event ≠ .read size true)
    (stepped : s.step sent isn ownIndex event = some s') :
    Dead accepted s' ∧ (s.conn.tcp = .closed → s'.conn.tcp = .closed) := by
  have stopped (established : s.conn.tcp = .established) :
      s.conn.stopped = true ∧ s.conn.stateRestart = false := by
    rcases dead.ended with closed | stopped
    · exact absurd (closed.symm.trans established) TcpState.noConfusion
    · exact stopped.2
  have notRunning (established : s.conn.tcp = .established) : s.conn.stopped ≠ false := by
    rw [(stopped established).1]
    exact Bool.noConfusion
  cases step_moved stepped with
  | stays => exact ⟨dead, id⟩
  | arrives _ address bytes =>
    obtain ⟨holding, _⟩ := dead.holding.arrive address bytes
    exact ⟨⟨dead.opened, holding, dead.ended, dead.accepted⟩, id⟩
  | takes _ isArrived _ _ established running =>
    subst isArrived
    exact absurd running (notRunning established)
  | closes _ isArrived _ _ established running =>
    subst isArrived
    exact absurd running (notRunning established)
  | resets established called =>
    have holding : Holding (s.conn.setState .closed) := ⟨dead.holding.valid, dead.holding.queue⟩
    obtain ⟨d, stored, called', holdingD, same, _⟩ := holding.poll_spec dead.opened.2.2
    cases called.symm.trans called'
    have opened : Open (s.conn.setState .closed) := dead.opened
    exact ⟨⟨opened.congr same, holdingD, Or.inl same.1, dead.accepted⟩, fun _ => same.1⟩
  | timesOut established called => exact absurd rfl (calm established).2.1
  | polls established called =>
    obtain ⟨d, stored, called', holdingD, same, _⟩ := dead.holding.poll_spec dead.opened.2.2
    cases called.symm.trans called'
    obtain ⟨_, notWanted, stops⟩ := appcall_empty_places called
    rw [(stopped established).1, (stopped established).2] at stops
    refine ⟨⟨dead.opened.congr same, holdingD, Or.inr ⟨?_, stops, notWanted⟩, dead.accepted⟩,
      fun closed => ?_⟩
    · exact same.1.trans established
    · exact same.1.trans closed
  | uses spares called =>
    obtain ⟨holding, _⟩ := dead.holding.other_spec spares called
    exact ⟨⟨dead.opened, holding, dead.ended, dead.accepted⟩, id⟩
  | @reads size otherStopped bytes d result =>
    obtain ⟨bytes', d', result', holdingD, _, _, tcp, _, same, _⟩ := dead.holding.read_spec size
      (if ownIndex then s.conn.stopped else otherStopped)
    cases result.symm.trans result'
    refine ⟨⟨dead.opened.congr (same dead.opened.2.2), holdingD, ?_, dead.accepted⟩,
      fun closed => tcp.trans closed⟩
    rcases dead.ended with closed | ⟨established, stopped, notWanted⟩
    · exact Or.inl (tcp.trans closed)
    · -- the connection that is asked about runs, so no restart is wanted
      obtain ⟨other, _, notStopped⟩ := calm established
      have notStopped : otherStopped = false := by
        by_contra stopped
        rw [Bool.not_eq_false] at stopped
        exact notStopped size (by rw [stopped])
      obtain ⟨stays, ate, wants, _⟩ := dead.holding.read_places dead.opened.2.2 result
      rw [notWanted, if_neg (by rw [other]; exact Bool.false_ne_true), notStopped, Bool.and_false]
        at wants
      exact Or.inr ⟨tcp.trans established, stays.trans stopped, wants⟩

/-- After a reset the connection counts as connected for ever: `uipclient_appcall` does not
    look at `uip_aborted`. -/
theorem connected_after_reset (short : sent.length < 2 ^ 32) {memory : Nat → UInt8}
    {events more : List Event} {final : Flow}
    (finished : run (step sent isn ownIndex) (start isn memory) events = some s)
    (established : s.conn.tcp = .established)
    (continued : run (step sent isn ownIndex) s (.reset :: more) = some final) :
    final.conn.connected = true ∧ final.accepted = s.accepted := by
  have sound := sound_run short finished
  rw [run_cons] at continued
  obtain ⟨next, reset, continued⟩ := Option.bind_eq_some_iff.mp continued
  have dead : Dead s.accepted next ∧ next.conn.tcp = .closed := by
    rw [step, if_pos established] at reset
    obtain ⟨⟨d, stored⟩, called, done⟩ := Option.bind_eq_some_iff.mp reset
    cases done
    obtain ⟨soundReset, opened, closed⟩ := sound.poll established (Or.inr rfl) called
    exact ⟨⟨opened, soundReset.holding, Or.inl closed, rfl⟩, closed⟩
  obtain ⟨dead, _⟩ : Dead s.accepted final ∧ final.conn.tcp = .closed := by
    refine run_invariant (fun state => Dead s.accepted state ∧ state.conn.tcp = .closed) dead ?_
      continued
    rintro state event next ⟨dead, closed⟩ stepped
    have notEstablished : state.conn.tcp ≠ .established := by
      rw [closed]
      exact TcpState.noConfusion
    obtain ⟨after, stays⟩ := dead.step (fun established => absurd established notEstablished) stepped
    exact ⟨after, stays closed⟩
  exact ⟨dead.opened.connected, dead.accepted⟩

theorem connected_after_reset_read :
    ∃ s final,
      run (step [1, 2, 3] ⟨0, 0, 0, 1⟩ true) (start ⟨0, 0, 0, 1⟩ fun _ => 0)
          [.segment 0 2 false false 6] = some s ∧
      run (step [1, 2, 3] ⟨0, 0, 0, 1⟩ true) s
          [.reset, .read 5 false, .segment 2 1 true false 2000, .timedOut] = some final ∧
      final.conn.connected = true ∧ final.accepted = s.accepted :=
  have ⟨s, finished⟩ := Option.isSome_iff_exists.mp (show (run _ _ _).isSome from rfl)
  have ⟨final, continued⟩ := Option.isSome_iff_exists.mp (show (run _ _ _).isSome by
    cases finished; rfl)
  ⟨s, final, finished, continued,
    connected_after_reset (by decide) finished (by cases finished; rfl) continued⟩

/-- Where `read` asks about another connection, which is not stopped, a connection that has
    been stopped stays so: nothing more is received, and it counts as connected for ever. -/
theorem stopped_for_good (short : sent.length < 2 ^ 32) {memory : Nat → UInt8}
    {events more : List Event} {final : Flow}
    (finished : run (step sent isn false) (start isn memory) events = some s)
    (established : s.conn.tcp = .established) (stopped : s.conn.stopped = true)
    (notWanted : s.conn.stateRestart = false) (noTimeout : .timedOut ∉ more)
    (otherRuns : ∀ size, .read size true ∉ more)
    (continued : run (step sent isn false) s more = some final) :
    final.conn.connected = true ∧ final.accepted = s.accepted := by
  have sound := sound_run short finished
  have dead : Dead s.accepted s :=
    ⟨sound.opened established, sound.holding, Or.inr ⟨established, stopped, notWanted⟩, rfl⟩
  have holds : .timedOut ∉ more → (∀ size, .read size true ∉ more) → Dead s.accepted final := by
    refine run_induction (fun events state =>
      .timedOut ∉ events → (∀ size, .read size true ∉ events) → Dead s.accepted state)
      (fun _ _ => dead) ?_ continued
    intro events state event next _ before stepped noTimeout otherRuns
    simp only [List.mem_append, List.mem_singleton, not_or] at noTimeout otherRuns
    have calm (_ : state.conn.tcp = .established) :
        false = false ∧ event ≠ .timedOut ∧ ∀ size, event ≠ .read size true :=
      ⟨rfl, Ne.symm noTimeout.2, fun size => Ne.symm (otherRuns size).2⟩
    exact ((before noTimeout.1 fun size => (otherRuns size).1).step calm stepped).1
  have dead := holds noTimeout otherRuns
  exact ⟨dead.opened.connected, dead.accepted⟩

/-- The client reads all that waits. -/
theorem stopped_for_good_full :
    ∃ s final,
      run (step [1, 2, 3, 4, 5, 6, 7] ⟨0, 0, 0, 1⟩ false) (start ⟨0, 0, 0, 1⟩ fun _ => 0)
          ((List.range 5).map fun pos => .segment pos 1 false false 6) = some s ∧
      run (step [1, 2, 3, 4, 5, 6, 7] ⟨0, 0, 0, 1⟩ false) s
          [.read 9 false, .poll, .segment 5 2 true false 80] = some final ∧
      final.conn.connected = true ∧ final.accepted = s.accepted := by
  obtain ⟨s, finished, state⟩ : ∃ s,
      run (step [1, 2, 3, 4, 5, 6, 7] ⟨0, 0, 0, 1⟩ false) (start ⟨0, 0, 0, 1⟩ fun _ => 0)
          ((List.range 5).map fun pos => .segment pos 1 false false 6) = some s ∧
        (s.conn.tcp, s.conn.stopped, s.conn.stateRestart,
          (run (step [1, 2, 3, 4, 5, 6, 7] ⟨0, 0, 0, 1⟩ false) s
            [.read 9 false, .poll, .segment 5 2 true false 80]).isSome) =
          (.established, true, false, true) :=
    Option.map_eq_some_iff.mp (by decide +kernel)
  simp only [Prod.mk.injEq] at state
  obtain ⟨established, stopped, notWanted, more⟩ := state
  obtain ⟨final, continued⟩ := Option.isSome_iff_exists.mp more
  exact ⟨s, final, finished, continued, stopped_for_good (by decide) finished established stopped
    notWanted (by decide) (by simp) continued⟩

end Flow

end HomeAutomation.Uip
