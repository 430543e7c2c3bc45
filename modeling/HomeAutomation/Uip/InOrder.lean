import HomeAutomation.Uip.Inbound

/-! # What the client reads is what the server has sent

For every order in which segments arrive: the bytes acknowledged to the server are the
beginning of its stream, and they are the bytes read and the bytes that wait, unless the
pool had no block for a packet, or one was stored that reached behind the end of the receive
buffer.
-/

namespace HomeAutomation.Uip

open HomeAutomation.Lib.Transition MemoryPool Enc28J60

namespace Connection

/-- The packets are in blocks of their own. -/
structure Holding (c : Connection) : Prop where
  valid : Valid c.pool
  queue : ∃ live, Queue c.pool c.packetsIn live

/-- The bytes stored and not read yet. -/
def waiting (c : Connection) : List UInt8 := Uip.waiting c.pool c.packetsIn

/-- The part of the state that receiving data does not change. -/
def SameState (c d : Connection) : Prop :=
  d.tcp = c.tcp ∧ d.rcvNxt = c.rcvNxt ∧ d.data = c.data ∧ d.stateConnected = c.stateConnected ∧
    d.stateRemoteClosed = c.stateRemoteClosed

theorem SameState.trans {c d e : Connection} (first : SameState c d) (second : SameState d e) :
    SameState c e :=
  ⟨second.1.trans first.1, second.2.1.trans first.2.1, second.2.2.1.trans first.2.2.1,
    second.2.2.2.1.trans first.2.2.2.1, second.2.2.2.2.trans first.2.2.2.2⟩

namespace Holding

variable {c : Connection}

theorem hasPacket_eq_false (holding : Holding c) : c.hasPacket = false ↔ c.waiting = [] := by
  obtain ⟨live, queue⟩ := holding.queue
  rw [hasPacket, bne_eq_false_iff_eq, waiting, queue.waiting_eq holding.valid]
  rw [queue.slots]
  cases live with
  | nil => exact iff_of_true rfl rfl
  | cons h live =>
    have notNone : h ≠ noBlock := queue.ne_noBlock holding.valid List.mem_cons_self
    have filled := queue.filled h List.mem_cons_self
    refine iff_of_false notNone fun empty => filled ?_
    rw [Uip.waiting, List.flatMap_cons, List.append_eq_nil_iff] at empty
    exact empty.1

theorem live_ne_nil (holding : Holding c) {live : List Nat} (queue : Queue c.pool c.packetsIn live)
    (found : c.hasPacket = true) : live ≠ [] := by
  rintro rfl
  have empty : c.waiting = [] := queue.waiting_eq holding.valid
  rw [holding.hasPacket_eq_false.mpr empty] at found
  cases found

/-- What the chip stores in the receive buffer is nothing that waits. -/
theorem arrive (holding : Holding c) (address : UInt16) (bytes : List UInt8) :
    Holding { c with pool := c.pool.arrive address bytes } ∧
      ({ c with pool := c.pool.arrive address bytes } : Connection).waiting = c.waiting := by
  obtain ⟨valid, same⟩ := holding.valid.arrive address bytes
  obtain ⟨live, queue⟩ := holding.queue
  refine ⟨⟨valid, live, queue.congr fun h _ => by rw [same]⟩, ?_⟩
  show Uip.waiting (c.pool.arrive address bytes) c.packetsIn = Uip.waiting c.pool c.packetsIn
  rw [Uip.waiting, same, Uip.waiting]

theorem newData_spec (holding : Holding c) {address : UInt16} {payload : List UInt8}
    (arrived : Arrived c.pool address payload) (notClosed : c.stateRemoteClosed = false) :
    ∃ d stored, c.newData address payload.length = some (d, stored) ∧ Holding d ∧ SameState c d ∧
      (Intact address payload stored →
        d.waiting = c.waiting ++ (if stored then payload else [])) := by
  rw [newData]
  by_cases notEmpty : payload = []
  case pos =>
    refine ⟨c, true, if_neg (by simp [notEmpty]), holding, ⟨rfl, rfl, rfl, rfl, rfl⟩, fun _ => ?_⟩
    rw [if_pos rfl, notEmpty, List.append_nil]
  case neg =>
    obtain ⟨live, queue⟩ := holding.queue
    obtain ⟨r, live', stored, valid, queueR, bytes, _⟩ :=
      storePacket_spec holding.valid queue arrived notEmpty
    rw [if_pos ⟨mt List.eq_nil_of_length_eq_zero notEmpty, by simp [notClosed]⟩, stored]
    exact ⟨_, _, rfl, ⟨valid, live', queueR⟩, ⟨rfl, rfl, rfl, rfl, rfl⟩, bytes⟩

theorem restart_spec (holding : Holding c) :
    Holding c.restart ∧ SameState c c.restart ∧ c.restart.waiting = c.waiting := by
  rw [restart]
  split
  · exact ⟨⟨holding.valid, holding.queue⟩, ⟨rfl, rfl, rfl, rfl, rfl⟩, rfl⟩
  · exact ⟨holding, ⟨rfl, rfl, rfl, rfl, rfl⟩, rfl⟩

theorem closed_spec (holding : Holding c) :
    Holding c.closed ∧ c.closed.waiting = c.waiting ∧ c.closed.tcp = c.tcp ∧
      c.closed.data = c.data := by
  rw [closed]
  split
  · exact ⟨⟨holding.valid, holding.queue⟩, rfl, rfl, rfl⟩
  · exact ⟨⟨holding.valid, holding.queue⟩, rfl, rfl, rfl⟩

/-- Other blocks of the pool may be used. -/
theorem other_spec (holding : Holding c) {call : PoolCall} {q : MemoryPool}
    (spares : (c.packetsIn.all fun h => h == noBlock || call.spares h) = true)
    (stepped : c.pool.step call = some q) :
    Holding { c with pool := q } ∧ ({ c with pool := q } : Connection).waiting = c.waiting := by
  obtain ⟨live, queue⟩ := holding.queue
  obtain ⟨valid, change⟩ := step_refines holding.valid stepped
  have same : ∀ h ∈ live, contents q h = contents c.pool h := by
    intro h member
    have notNone := queue.ne_noBlock holding.valid member
    have filled := queue.filled h member
    have spared := List.all_eq_true.mp spares h (queue.slots ▸ List.mem_append_left _ member)
    rw [Bool.or_eq_true, beq_iff_eq, or_iff_right notNone] at spared
    exact change.kept filled spared
  have queueQ := queue.congr same
  refine ⟨⟨valid, live, queueQ⟩, ?_⟩
  show Uip.waiting q c.packetsIn = Uip.waiting c.pool c.packetsIn
  rw [queueQ.waiting_eq valid, queue.waiting_eq holding.valid, waiting_congr same]

/-- A call with new data; the connection stays as it is. -/
theorem appcall_spec (holding : Holding c) {address : UInt16} {payload : List UInt8}
    (arrived : Arrived c.pool address payload) (notClosed : c.stateRemoteClosed = false) :
    ∃ d stored, c.appcall address payload.length false = some (d, stored) ∧ Holding d ∧
      SameState c d ∧
      (Intact address payload stored →
        d.waiting = c.waiting ++ (if stored then payload else [])) := by
  obtain ⟨d, stored, result, holdingD, same, bytes⟩ := holding.newData_spec arrived notClosed
  obtain ⟨holdingR, sameR, bytesR⟩ := holdingD.restart_spec
  refine ⟨d.restart, stored, ?_, holdingR, ?_, fun intact => bytesR.trans (bytes intact)⟩
  · rw [appcall, result]
    rfl
  · exact same.trans sameR

theorem poll_spec (holding : Holding c) (notClosed : c.stateRemoteClosed = false) :
    ∃ d stored, c.appcall 0 0 false = some (d, stored) ∧ Holding d ∧ SameState c d ∧
      d.waiting = c.waiting := by
  obtain ⟨d, stored, called, holdingD, same, bytes⟩ :=
    holding.appcall_spec (arrived_nothing c.pool) notClosed
  have bytes := bytes (intact_nothing stored)
  rw [ite_self, List.append_nil] at bytes
  exact ⟨d, stored, called, holdingD, same, bytes⟩

/-- A call that also tells that the connection is closed. -/
theorem appcall_closed_spec (holding : Holding c) {address : UInt16} {payload : List UInt8}
    (arrived : Arrived c.pool address payload) (notClosed : c.stateRemoteClosed = false) :
    ∃ d stored, c.appcall address payload.length true = some (d, stored) ∧ Holding d ∧
      d.tcp = c.tcp ∧ d.data = c.data ∧
      (Intact address payload stored →
        d.waiting = c.waiting ++ (if stored then payload else [])) := by
  obtain ⟨d, stored, result, holdingD, same, bytes⟩ := holding.newData_spec arrived notClosed
  obtain ⟨holdingR, sameR, bytesR⟩ := holdingD.restart_spec
  obtain ⟨holdingC, bytesC, tcpC, dataC⟩ := holdingR.closed_spec
  refine ⟨d.restart.closed, stored, ?_, holdingC, ?_, ?_,
    fun intact => bytesC.trans (bytesR.trans (bytes intact))⟩
  · rw [appcall, result]
    rfl
  · exact tcpC.trans (sameR.1.trans same.1)
  · exact dataC.trans (sameR.2.2.1.trans same.2.2.1)

/-- Reading takes bytes from the front; when it is over, and the connection, nothing is left. -/
theorem read_spec (holding : Holding c) (size : Nat) (stopped : Bool) :
    ∃ bytes d, c.read size stopped = some (bytes, d) ∧ Holding d ∧
      c.waiting = bytes ++ d.waiting ∧ (c.isOpen = true → bytes = c.waiting.take size) ∧
      d.tcp = c.tcp ∧ d.rcvNxt = c.rcvNxt ∧
      (c.stateRemoteClosed = false → SameState c d) ∧
      (d.data = false → c.data = false ∨ d.waiting = []) := by
  rw [read]
  by_cases reads : (c.isOpen && c.hasPacket) = true
  case neg =>
    refine ⟨[], c, if_neg reads, holding, rfl, fun isOpen => ?_, rfl, rfl,
      fun _ => ⟨rfl, rfl, rfl, rfl, rfl⟩, Or.inl⟩
    rw [isOpen, Bool.true_and, Bool.not_eq_true, holding.hasPacket_eq_false] at reads
    rw [reads, List.take_nil]
  case pos =>
    rw [if_pos reads]
    obtain ⟨_, some⟩ := Bool.and_eq_true_iff.mp reads
    obtain ⟨live, queue⟩ := holding.queue
    have notEmpty := holding.live_ne_nil queue some
    obtain ⟨r, live', looped, valid, queueR, data, left, _⟩ :=
      @readLoop_spec _ _ live socketNumPackets size holding.valid queue notEmpty queue.fits
    rw [looped]
    -- the connection after the loop
    have taken : c.waiting = r.data ++ Uip.waiting r.pool r.packets := by
      rw [data, left, List.take_append_drop]
      rfl
    simp only [Option.bind_eq_bind, Option.bind_some]
    split
    case isTrue finishing =>
      simp only [Bool.and_eq_true, Bool.not_eq_true'] at finishing
      obtain ⟨⟨_, none⟩, remote⟩ := finishing
      have holdingD : Holding { c with pool := r.pool, packetsIn := r.packets } :=
        ⟨valid, live', queueR⟩
      have empty := holdingD.hasPacket_eq_false.mp none
      refine ⟨_, _, rfl, ⟨valid, live', queueR⟩, taken, fun _ => data, rfl, rfl, ?_, fun _ => Or.inr empty⟩
      intro notClosed
      rw [notClosed] at remote
      cases remote
    case isFalse goesOn =>
      exact ⟨_, _, rfl, ⟨valid, live', queueR⟩, taken, fun _ => data, rfl, rfl,
        fun _ => ⟨rfl, rfl, rfl, rfl, rfl⟩, Or.inl⟩

end Holding

/-- The connection counts as connected, and a FIN or a timeout has not been seen. -/
def Open (c : Connection) : Prop :=
  c.data = true ∧ c.stateConnected = true ∧ c.stateRemoteClosed = false

variable {c d : Connection}

theorem Open.congr (opened : Open c) (same : SameState c d) : Open d :=
  ⟨same.2.2.1.trans opened.1, same.2.2.2.1.trans opened.2.1, same.2.2.2.2.trans opened.2.2⟩

theorem Open.connected (opened : Open c) : c.connected = true := by
  rw [Connection.connected, opened.1, opened.2.1, Bool.or_true, Bool.and_true]

end Connection

namespace Flow

open Connection

variable {sent : List UInt8} {isn : SeqNo} {ownIndex : Bool} {s s' : Flow}

/-- What an event can do.  A segment that is taken brings the bytes that are expected next,
    alone or with the FIN; its packet is in the receive buffer by then. -/
inductive Moved (sent : List UInt8) (isn : SeqNo) (ownIndex : Bool) (s : Flow) :
    Event → Flow → Prop
  | stays (event : Event) : Moved sent isn ownIndex s event s
  | arrives (event : Event) (address : UInt16) (bytes : List UInt8) :
      Moved sent isn ownIndex s event (s.arrive address bytes)
  | takes {pos n : Nat} {outstanding : Bool} {begin : UInt16} {payload : List UInt8} {t : Flow}
      {d : Connection} {stored : Bool} (isPayload : payload = (sent.drop pos).take n)
      (isArrived : t = s.arrive (uipAppdata begin) payload)
      (inside : pos + n ≤ sent.length) (arrived : Arrived t.conn.pool (uipAppdata begin) payload)
      (established : t.conn.tcp = .established) (running : t.conn.stopped = false)
      (expected : SeqNo.ofNat (isn.toNat + pos) = t.conn.rcvNxt) (notEmpty : payload ≠ [])
      (called : (t.conn.uipAddRcvNxt payload.length).appcall (uipAppdata begin) payload.length
        false = some (d, stored)) :
      Moved sent isn ownIndex s (.segment pos n false outstanding begin)
        (t.taken payload (uipAppdata begin) d stored)
  | closes {pos n : Nat} {outstanding : Bool} {begin : UInt16} {payload : List UInt8} {t : Flow}
      {d : Connection} {stored : Bool} (isPayload : payload = (sent.drop pos).take n)
      (isArrived : t = s.arrive (uipAppdata begin) payload)
      (last : pos + n = sent.length) (arrived : Arrived t.conn.pool (uipAppdata begin) payload)
      (established : t.conn.tcp = .established) (running : t.conn.stopped = false)
      (expected : SeqNo.ofNat (isn.toNat + pos) = t.conn.rcvNxt)
      (called : (t.conn.uipAddRcvNxt (1 + payload.length)).appcall (uipAppdata begin)
        payload.length true = some (d, stored)) :
      Moved sent isn ownIndex s (.segment pos n true outstanding begin)
        (t.taken payload (uipAppdata begin) (d.setState .lastAck) stored)
  | resets {d : Connection} {stored : Bool} (established : s.conn.tcp = .established)
      (called : (s.conn.setState .closed).appcall 0 0 false = some (d, stored)) :
      Moved sent isn ownIndex s .reset { s with conn := d }
  | timesOut {d : Connection} {stored : Bool} (established : s.conn.tcp = .established)
      (called : (s.conn.setState .closed).appcall 0 0 true = some (d, stored)) :
      Moved sent isn ownIndex s .timedOut { s with conn := d }
  | polls {d : Connection} {stored : Bool} (established : s.conn.tcp = .established)
      (called : s.conn.appcall 0 0 false = some (d, stored)) :
      Moved sent isn ownIndex s .poll { s with conn := d }
  | uses {call : PoolCall} {q : MemoryPool}
      (spares : (s.conn.packetsIn.all fun h => h == noBlock || call.spares h) = true)
      (called : s.conn.pool.step call = some q) :
      Moved sent isn ownIndex s (.other call) { s with conn := { s.conn with pool := q } }
  | reads {size : Nat} {otherStopped : Bool} {bytes : List UInt8} {d : Connection}
      (result : s.conn.read size (if ownIndex then s.conn.stopped else otherStopped) =
        some (bytes, d)) :
      Moved sent isn ownIndex s (.read size otherStopped)
        { s with conn := d, delivered := s.delivered ++ bytes }

/-- The packet of a segment with its headers is in the receive buffer. -/
theorem arrived_segment {pos n : Nat} {begin : UInt16} (short : hdrLen + n < rxSize)
    (place : begin.toNat < rxSize) (p : MemoryPool) :
    Arrived (p.arrive (uipAppdata begin) ((sent.drop pos).take n)) (uipAppdata begin)
      ((sent.drop pos).take n) := by
  have ring : rxSize = 2048 := rfl
  have headers : hdrLen = 54 := rfl
  have length : ((sent.drop pos).take n).length ≤ n := List.length_take_le _ _
  have address : (uipAppdata begin).toNat = begin.toNat + hdrLen := by
    rw [uipAppdata, UInt16.toNat_add]
    exact Nat.mod_eq_of_lt (show begin.toNat + hdrLen < 2 ^ 16 by omega)
  exact arrived_arrive p (by omega) (by omega)

theorem input_moved {pos n : Nat} {fin outstanding : Bool} {begin : UInt16}
    (inside : pos + n ≤ sent.length) (short : hdrLen + n < rxSize) (place : begin.toNat < rxSize)
    (last : fin = true → pos + n = sent.length)
    (result : (s.arrive (uipAppdata begin) ((sent.drop pos).take n)).input
      (SeqNo.ofNat (isn.toNat + pos)) ((sent.drop pos).take n) (uipAppdata begin) fin outstanding =
      some s') :
    Moved sent isn ownIndex s (.segment pos n fin outstanding begin) s' := by
  have arrived := @arrived_segment sent pos n begin short place s.conn.pool
  unfold input at result
  simp only at result
  split at result
  case isTrue =>
    cases result
    exact .arrives _ _ _
  case isFalse established =>
    rw [not_not] at established
    split at result
    case isTrue =>
      -- repeated, or too early
      cases result
      exact .arrives _ _ _
    case isFalse expected =>
      split at result
      case isTrue closes =>
        split at result
        case isTrue =>
          -- a FIN has to wait for what is outstanding
          cases result
          exact .arrives _ _ _
        case isFalse =>
          obtain ⟨⟨d, stored⟩, called, done⟩ := Option.bind_eq_some_iff.mp result
          cases done
          obtain ⟨rfl, running⟩ := closes
          have inOrder : SeqNo.ofNat (isn.toNat + pos) = s.conn.rcvNxt := by
            by_contra other
            exact expected ⟨Or.inr rfl, other⟩
          exact .closes rfl rfl (last rfl) arrived established (Bool.eq_false_iff.mpr running) inOrder
            called
      case isFalse noFin =>
        split at result
        case isTrue data =>
          obtain ⟨⟨d, stored⟩, called, done⟩ := Option.bind_eq_some_iff.mp result
          cases done
          obtain ⟨notEmpty, running⟩ := data
          have inOrder : SeqNo.ofNat (isn.toNat + pos) = s.conn.rcvNxt := by
            by_contra other
            exact expected ⟨Or.inl notEmpty, other⟩
          have alone : fin = false := Bool.eq_false_iff.mpr fun closes => noFin ⟨closes, running⟩
          rw [alone]
          exact .takes rfl rfl inside arrived established (Bool.eq_false_iff.mpr running) inOrder
            notEmpty called
        case isFalse =>
          cases result
          exact .arrives _ _ _

theorem step_moved {event : Event} (stepped : s.step sent isn ownIndex event = some s') :
    Moved sent isn ownIndex s event s' := by
  cases event with
  | segment pos n fin outstanding begin =>
    rw [step] at stepped
    split at stepped
    case isFalse => cases stepped
    case isTrue possible =>
      obtain ⟨inside, short, place, last⟩ := possible
      exact input_moved inside short place last stepped
  | frame place bytes =>
    cases stepped
    exact .arrives _ _ _
  | reset =>
    rw [step] at stepped
    split at stepped
    case isFalse =>
      cases stepped
      exact .stays _
    case isTrue established =>
      obtain ⟨⟨d, stored⟩, called, done⟩ := Option.bind_eq_some_iff.mp stepped
      cases done
      exact .resets established called
  | timedOut =>
    rw [step] at stepped
    split at stepped
    case isFalse =>
      cases stepped
      exact .stays _
    case isTrue established =>
      obtain ⟨⟨d, stored⟩, called, done⟩ := Option.bind_eq_some_iff.mp stepped
      cases done
      exact .timesOut established called
  | poll =>
    rw [step] at stepped
    split at stepped
    case isFalse =>
      cases stepped
      exact .stays _
    case isTrue established =>
      obtain ⟨⟨d, stored⟩, called, done⟩ := Option.bind_eq_some_iff.mp stepped
      cases done
      exact .polls established called
  | other call =>
    rw [step] at stepped
    split at stepped
    case isFalse => cases stepped
    case isTrue spares =>
      obtain ⟨q, called, done⟩ := Option.bind_eq_some_iff.mp stepped
      cases done
      exact .uses spares called
  | read size otherStopped =>
    obtain ⟨⟨bytes, d⟩, result, done⟩ := Option.bind_eq_some_iff.mp stepped
    cases done
    exact .reads result

/-! ## The stream -/

/-- What holds in every state, for a stream shorter than the sequence numbers. -/
structure Sound (sent : List UInt8) (isn : SeqNo) (s : Flow) : Prop where
  holding : s.conn.Holding
  accepted : s.accepted <+: sent
  next : s.conn.tcp = .established →
    s.conn.rcvNxt.toNat = (isn.toNat + s.accepted.length) % 2 ^ 32
  kept : s.lost = 0 → s.passed = false → s.accepted = s.delivered ++ s.conn.waiting
  opened : s.conn.tcp = .established → s.conn.Open
  whole : s.conn.tcp = .lastAck → s.accepted = sent
  empty : s.conn.data = false → s.conn.waiting = []

theorem sound_start (isn : SeqNo) (memory : Nat → UInt8) : Sound sent isn (start isn memory) := by
  have unused : Queue (MemoryPool.init memory) (List.replicate socketNumPackets noBlock) [] :=
    ⟨rfl, Nat.zero_le _, List.nodup_nil, fun h member => absurd member List.not_mem_nil⟩
  have valid : Valid (MemoryPool.init memory) := ⟨[], ordered_init memory⟩
  have empty : (start isn memory).conn.waiting = [] := unused.waiting_eq valid
  refine ⟨⟨valid, [], unused⟩, List.nil_prefix, fun _ => ?_, fun _ _ => ?_,
    fun _ => ⟨rfl, rfl, rfl⟩, fun closing => ?_, fun _ => empty⟩
  · rw [show (start isn memory).accepted = [] from rfl, List.length_nil, Nat.add_zero]
    exact (Nat.mod_eq_of_lt isn.toNat_lt).symm
  · rw [empty]
    rfl
  · cases closing

/-- A segment that is taken has the bytes that follow those accepted. -/
theorem segment_in_order {pos n : Nat} (short : sent.length < 2 ^ 32) (sound : Sound sent isn s)
    (inside : pos + n ≤ sent.length) (established : s.conn.tcp = .established)
    (expected : SeqNo.ofNat (isn.toNat + pos) = s.conn.rcvNxt) :
    pos = s.accepted.length ∧ s.accepted ++ (sent.drop pos).take n = sent.take (pos + n) := by
  have next := sound.next established
  rw [← expected, SeqNo.toNat_ofNat] at next
  have length := sound.accepted.length_le
  have here : pos = s.accepted.length := by omega
  refine ⟨here, ?_⟩
  rw [List.take_add]
  congr 1
  rw [here]
  exact List.prefix_iff_eq_take.mp sound.accepted

namespace Sound

theorem arrive (sound : Sound sent isn s) (address : UInt16) (bytes : List UInt8) :
    Sound sent isn (s.arrive address bytes) := by
  obtain ⟨holding, same⟩ := sound.holding.arrive address bytes
  exact ⟨holding, sound.accepted, sound.next,
    fun noLoss inside => (sound.kept noLoss inside).trans (congrArg (s.delivered ++ ·) same.symm),
    sound.opened, sound.whole, fun none => same.trans (sound.empty none)⟩

/-- What is stored comes behind what waits. -/
theorem kept_behind (sound : Sound sent isn s) {address : UInt16} {payload : List UInt8}
    {d : Connection} {stored : Bool} (noLoss : (s.taken payload address d stored).lost = 0)
    (inside : (s.taken payload address d stored).passed = false) {rest : List UInt8}
    (split : Intact address payload stored →
      rest = s.conn.waiting ++ (if stored then payload else [])) :
    s.accepted ++ payload = s.delivered ++ rest := by
  obtain ⟨before, now⟩ := Nat.add_eq_zero_iff.mp noLoss
  obtain ⟨insideBefore, insideNow⟩ := Bool.or_eq_false_iff.mp inside
  have kept : stored = true := by simpa using now
  have intact : Intact address payload stored := by
    intro _ notEmpty
    simpa [kept, notEmpty] using insideNow
  have split := split intact
  rw [kept, if_pos rfl] at split
  rw [sound.kept before insideBefore, split, List.append_assoc]

theorem holding_next (sound : Sound sent isn s) (n : Nat) : Holding (s.conn.uipAddRcvNxt n) :=
  ⟨sound.holding.valid, sound.holding.queue⟩

theorem takes (short : sent.length < 2 ^ 32) (sound : Sound sent isn s) {pos n : Nat}
    {payload : List UInt8} {address : UInt16} {d : Connection} {stored : Bool}
    (isPayload : payload = (sent.drop pos).take n) (inside : pos + n ≤ sent.length)
    (arrived : Arrived s.conn.pool address payload) (established : s.conn.tcp = .established)
    (expected : SeqNo.ofNat (isn.toNat + pos) = s.conn.rcvNxt)
    (called : (s.conn.uipAddRcvNxt payload.length).appcall address payload.length false =
      some (d, stored)) :
    Sound sent isn (s.taken payload address d stored) ∧ Open d := by
  obtain ⟨here, bytes⟩ := segment_in_order short sound inside established expected
  rw [← isPayload] at bytes
  have opened : Open (s.conn.uipAddRcvNxt payload.length) := sound.opened established
  have small : payload.length < 2 ^ 16 := Nat.lt_trans arrived.short (by decide)
  obtain ⟨d', stored', called', holdingD, same, waiting⟩ :=
    (sound.holding_next payload.length).appcall_spec arrived opened.2.2
  cases called.symm.trans called'
  have openD := opened.congr same
  refine ⟨⟨holdingD, ?_, fun _ => ?_,
    fun noLoss inside => sound.kept_behind noLoss inside waiting, fun _ => openD, ?_, ?_⟩, openD⟩
  · show s.accepted ++ payload <+: sent
    rw [bytes]
    exact List.take_prefix _ _
  · have added := SeqNo.toNat_uipAdd32 s.conn.rcvNxt (UInt16.ofNat payload.length)
    show d.rcvNxt.toNat = (isn.toNat + (s.accepted ++ payload).length) % 2 ^ 32
    rw [same.2.1, Connection.uipAddRcvNxt, added, sound.next established, List.length_append,
      UInt16.toNat_ofNat_of_lt' small, Nat.mod_add_mod, Nat.add_assoc]
  · intro (closing : d.tcp = .lastAck)
    rw [same.1] at closing
    exact absurd (established.symm.trans closing) TcpState.noConfusion
  · intro (none : d.data = false)
    exact absurd (openD.1.symm.trans none) Bool.noConfusion

theorem closes (short : sent.length < 2 ^ 32) (sound : Sound sent isn s) {pos n : Nat}
    {payload : List UInt8} {address : UInt16} {d : Connection} {stored : Bool}
    (isPayload : payload = (sent.drop pos).take n) (last : pos + n = sent.length)
    (arrived : Arrived s.conn.pool address payload) (established : s.conn.tcp = .established)
    (expected : SeqNo.ofNat (isn.toNat + pos) = s.conn.rcvNxt)
    (called : (s.conn.uipAddRcvNxt (1 + payload.length)).appcall address payload.length true =
      some (d, stored)) :
    Sound sent isn (s.taken payload address (d.setState .lastAck) stored) := by
  obtain ⟨_, bytes⟩ := segment_in_order short sound last.le established expected
  rw [last, List.take_length, ← isPayload] at bytes
  have opened : Open (s.conn.uipAddRcvNxt (1 + payload.length)) := sound.opened established
  obtain ⟨d', stored', called', holdingD, tcp, data, waiting⟩ :=
    (sound.holding_next (1 + payload.length)).appcall_closed_spec arrived opened.2.2
  cases called.symm.trans called'
  refine ⟨⟨holdingD.valid, holdingD.queue⟩, ?_, ?_,
    fun noLoss inside => sound.kept_behind noLoss inside waiting, ?_, fun _ => bytes, ?_⟩
  · show s.accepted ++ payload <+: sent
    rw [bytes]
  · intro still
    cases still
  · intro still
    cases still
  · intro (none : d.data = false)
    exact absurd ((data.trans opened.1).symm.trans none) Bool.noConfusion

/-- A call without data, in whatever state it leaves the connection. -/
theorem poll (sound : Sound sent isn s) (established : s.conn.tcp = .established) {c d : Connection}
    {stored : Bool} (start : c = s.conn ∨ c = s.conn.setState .closed)
    (called : c.appcall 0 0 false = some (d, stored)) :
    Sound sent isn { s with conn := d } ∧ Open d ∧ d.tcp = c.tcp := by
  have opened := sound.opened established
  have holding : Holding c := by
    rcases start with rfl | rfl
    · exact sound.holding
    · exact ⟨sound.holding.valid, sound.holding.queue⟩
  have openC : Open c := by rcases start with rfl | rfl <;> exact opened
  have waitingC : c.waiting = s.conn.waiting := by rcases start with rfl | rfl <;> rfl
  have nextC : c.rcvNxt = s.conn.rcvNxt := by rcases start with rfl | rfl <;> rfl
  have notClosing : c.tcp ≠ .lastAck := by
    rcases start with rfl | rfl
    · rw [established]
      exact TcpState.noConfusion
    · exact TcpState.noConfusion
  obtain ⟨d', stored', called', holdingD, same, bytes⟩ := holding.poll_spec openC.2.2
  cases called.symm.trans called'
  have openD := openC.congr same
  refine ⟨⟨holdingD, sound.accepted, fun _ => ?_, fun noLoss inside => ?_, fun _ => openD, ?_, ?_⟩,
    openD, same.1⟩
  · rw [same.2.1, nextC]
    exact sound.next established
  · rw [bytes, waitingC]
    exact sound.kept noLoss inside
  · intro (closing : d.tcp = .lastAck)
    exact absurd (same.1.symm.trans closing) notClosing
  · intro (none : d.data = false)
    exact absurd (openD.1.symm.trans none) Bool.noConfusion

/-- The connection is given up. -/
theorem timedOut (sound : Sound sent isn s) (established : s.conn.tcp = .established)
    {d : Connection} {stored : Bool}
    (called : (s.conn.setState .closed).appcall 0 0 true = some (d, stored)) :
    Sound sent isn { s with conn := d } ∧ d.tcp = .closed := by
  obtain ⟨hasData, _, notClosed⟩ := sound.opened established
  have holding : Holding (s.conn.setState .closed) := ⟨sound.holding.valid, sound.holding.queue⟩
  obtain ⟨d', stored', called', holdingD, tcp, data, bytes⟩ :=
    holding.appcall_closed_spec (arrived_nothing _) notClosed
  cases called.symm.trans called'
  have bytes := bytes (intact_nothing stored)
  rw [ite_self, List.append_nil] at bytes
  have ended : d.tcp = .closed := tcp
  refine ⟨⟨holdingD, sound.accepted, ?_, fun noLoss inside => ?_, ?_, ?_, ?_⟩, ended⟩
  · intro (still : d.tcp = .established)
    exact absurd (ended.symm.trans still) TcpState.noConfusion
  · rw [bytes]
    exact sound.kept noLoss inside
  · intro (still : d.tcp = .established)
    exact absurd (ended.symm.trans still) TcpState.noConfusion
  · intro (closing : d.tcp = .lastAck)
    exact absurd (ended.symm.trans closing) TcpState.noConfusion
  · intro (none : d.data = false)
    exact absurd (hasData.symm.trans (data.symm.trans none)) Bool.noConfusion

theorem read (sound : Sound sent isn s) {size : Nat} {stopped : Bool} {bytes : List UInt8}
    {d : Connection} (result : s.conn.read size stopped = some (bytes, d)) :
    Sound sent isn { s with conn := d, delivered := s.delivered ++ bytes } := by
  obtain ⟨bytes', d', result', holdingD, split, _, tcp, next, same, empty⟩ :=
    sound.holding.read_spec size stopped
  cases result.symm.trans result'
  refine ⟨holdingD, sound.accepted, ?_, fun noLoss inside => ?_, ?_, ?_, ?_⟩
  · intro (established : d.tcp = .established)
    rw [tcp] at established
    rw [next]
    exact sound.next established
  · rw [sound.kept noLoss inside, split, List.append_assoc]
  · intro (established : d.tcp = .established)
    rw [tcp] at established
    have opened := sound.opened established
    exact opened.congr (same opened.2.2)
  · intro (closing : d.tcp = .lastAck)
    rw [tcp] at closing
    exact sound.whole closing
  · intro (none : d.data = false)
    rcases empty none with before | nothing
    · have nothing := sound.empty before
      rw [split, List.append_eq_nil_iff] at nothing
      exact nothing.2
    · exact nothing

theorem step (short : sent.length < 2 ^ 32) (sound : Sound sent isn s) {event : Event}
    (stepped : s.step sent isn ownIndex event = some s') : Sound sent isn s' := by
  cases step_moved stepped with
  | stays => exact sound
  | arrives _ address bytes => exact sound.arrive address bytes
  | takes isPayload isArrived inside arrived established _ expected _ called =>
    subst isArrived
    exact ((sound.arrive _ _).takes short isPayload inside arrived established expected called).1
  | closes isPayload isArrived last arrived established _ expected called =>
    subst isArrived
    exact (sound.arrive _ _).closes short isPayload last arrived established expected called
  | resets established called => exact (sound.poll established (Or.inr rfl) called).1
  | timesOut established called => exact (sound.timedOut established called).1
  | polls established called => exact (sound.poll established (Or.inl rfl) called).1
  | uses spares called =>
    obtain ⟨holding, bytes⟩ := sound.holding.other_spec spares called
    refine ⟨holding, sound.accepted, sound.next, fun noLoss inside => ?_, sound.opened, sound.whole,
      fun none => ?_⟩
    · rw [bytes]
      exact sound.kept noLoss inside
    · rw [bytes]
      exact sound.empty none
  | reads result => exact sound.read result

end Sound

theorem sound_run (short : sent.length < 2 ^ 32) {memory : Nat → UInt8} {events : List Event}
    {final : Flow}
    (finished : run (step sent isn ownIndex) (start isn memory) events =
      some final) :
    Sound sent isn final :=
  run_invariant (Sound sent isn) (sound_start isn memory)
    (fun _ _ _ sound stepped => sound.step short stepped) finished

end Flow

end HomeAutomation.Uip
