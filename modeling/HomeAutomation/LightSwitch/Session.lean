import HomeAutomation.Ethernet.Receive
import HomeAutomation.LightSwitch.Response

/-! # Reading a reply from the socket

The loop of `readResponse` calls `connected`, `available` and `read` while the chip
receives: a segment, the end of the stream or a reset may come between any two calls.
`Session` is the loop with its place in it, over the socket of the Ethernet library.
-/

namespace HomeAutomation.LightSwitch

open HomeAutomation.Ethernet HomeAutomation.Lib.Transition RestClient

/-- `char c = client.read()`, for a byte and for -1. -/
def charOfInt (result : Int) : Char := Char.ofNat (result % 256).toNat

def text (bytes : List UInt8) : List Char := bytes.map fun b => Char.ofNat b.toNat

namespace Session

/-- The next call of the loop. -/
inductive Call
  | connected
  | available
  | read
  deriving DecidableEq

/-- What the other side does, and the client's next call. -/
inductive Event
  | segment (bytes : List UInt8)
  | fin
  | reset
  | call
  deriving DecidableEq

end Session

/-- `next` is `none` when the loop has ended. -/
structure Session where
  line : Line
  reader : Reader
  next : Option Session.Call

namespace Session

def startReader (response : Option (List Char)) : Reader := ⟨true, false, false, [], 0, response⟩

def start (memory : Nat → UInt8) (origin : Nat) (response : Option (List Char)) : Session where
  line := Line.start .established memory origin
  reader := startReader response
  next := some .connected

def call (layout : Layout) (s : Session) : Call → Option Session
  | .connected =>
    (s.line.step layout .connected).map fun line =>
      { s with line, next := if s.line.socket.connected.1 then some .available else none }
  | .available =>
    (s.line.step layout .available).map fun line =>
      { s with
        line
        next := if s.line.socket.available.1 ≠ 0 then some .read else some .connected }
  | .read =>
    (s.line.step layout (.recv 1)).map fun line =>
      { line
        reader := readChar s.reader (charOfInt (s.line.socket.readByte layout).1)
        next := some .connected }

/-- After the end of the stream no segment comes. -/
def step (layout : Layout) (s : Session) : Event → Option Session
  | .segment bytes =>
    if s.line.socket.status = .established then
      (s.line.step layout (.segment bytes)).map fun line => { s with line }
    else none
  | .fin =>
    if s.line.socket.status = .established then
      (s.line.step layout (.status .closeWait)).map fun line => { s with line }
    else none
  | .reset => (s.line.step layout (.status .closed)).map fun line => { s with line }
  | .call => s.next.bind (s.call layout)

/-! ## The line below -/

variable {layout : Layout} {origin : Nat} {response : Option (List Char)}

theorem charOfInt_toNat (b : UInt8) : charOfInt b.toNat = Char.ofNat b.toNat := by
  have byte := b.toNat_lt
  rw [charOfInt]
  congr 1
  omega

/-- Asking changes nothing the loop sees. -/
theorem connected_line {line next : Line} (ordered : line.Ordered layout origin)
    (stepped : line.step layout .connected = some next) :
    next.Ordered layout origin ∧ next.received = line.received ∧
      next.delivered = line.delivered ∧ next.socket.status = line.socket.status := by
  refine ⟨(Line.step_refines ordered stepped).1, ?_⟩
  rw [Line.step_connected] at stepped
  cases stepped
  exact ⟨rfl, rfl, line.socket.connected_status⟩

theorem available_line {line next : Line} (ordered : line.Ordered layout origin)
    (stepped : line.step layout .available = some next) :
    next.Ordered layout origin ∧ next.received = line.received ∧
      next.delivered = line.delivered ∧ next.socket.status = line.socket.status := by
  refine ⟨(Line.step_refines ordered stepped).1, ?_⟩
  rw [Line.step_available] at stepped
  cases stepped
  exact ⟨rfl, rfl, line.socket.available_status⟩

/-- A read that finds something takes the first byte of the queue. -/
theorem read_line {line next : Line} {b : UInt8} {rest : List UInt8}
    (ordered : line.Ordered layout origin) (queue : Streams.unread line = b :: rest)
    (stepped : line.step layout (.recv 1) = some next) :
    (line.socket.readByte layout).1 = b.toNat ∧ next.Ordered layout origin ∧
      next.received = line.received ∧ next.delivered = line.delivered ++ [b] ∧
      Streams.unread next = rest ∧ next.socket.status = line.socket.status := by
  have refines := Line.step_refines ordered stepped
  obtain ⟨committed, streams⟩ := ordered
  obtain ⟨socket, _, result, status, _⟩ :=
    streams.recv_some (by rw [queue]; exact List.cons_ne_nil b rest) Nat.one_pos
  rw [queue] at result
  have byte : (line.socket.readByte layout).1 = b.toNat := by
    rw [Receiver.readByte, result]
    simp
  rw [Line.step_recv layout line (by decide), result] at stepped
  cases stepped
  refine ⟨byte, refines.1, rfl, rfl, ?_, status⟩
  have same := refines.2
  rw [Fifo.step, if_neg (by rw [Line.toFifo, queue]; simp), Option.some.injEq] at same
  have tail := congrArg Fifo.queue same
  rw [Line.toFifo, queue] at tail
  exact tail.symm

/-! ## The invariant -/

/-- The loop has processed what the client has read; and where it has ended, the stream
    has, too, and has been read to its end. -/
structure Reads (layout : Layout) (origin : Nat) (response : Option (List Char))
    (events : List Event) (s : Session) : Prop where
  ordered : s.line.Ordered layout origin
  reader : s.reader = (text s.line.delivered).foldl readChar (startReader response)
  found : s.next = some .read → Streams.unread s.line ≠ []
  status : s.line.socket.status = .established ∨
    (s.line.socket.status = .closeWait ∧ Event.fin ∈ events) ∨
    (s.line.socket.status = .closed ∧ Event.reset ∈ events)
  returned : s.next = none → s.line.socket.status = .closed ∨
    (s.line.socket.status = .closeWait ∧ Streams.unread s.line = [])

theorem Reads.start (memory : Nat → UInt8) :
    Reads layout origin response [] (Session.start memory origin response) where
  ordered := ⟨0, Streams.start .established memory⟩
  reader := rfl
  found notRead := by cases notRead
  status := Or.inl rfl
  returned notNone := by cases notNone

/-- `connected` ends the loop after a reset and at the end of the stream. -/
theorem Reads.of_not_connected {events : List Event} {s : Session}
    (reads : Reads layout origin response events s) (ended : s.line.socket.connected.1 = false) :
    s.line.socket.status = .closed ∨
      (s.line.socket.status = .closeWait ∧ Streams.unread s.line = []) := by
  obtain ⟨committed, streams⟩ := reads.ordered
  rw [streams.connected_result, Fifo.isConnected] at ended
  rcases reads.status with up | closing | closed
  · rw [show s.line.toFifo.status = .established from up] at ended
    cases ended
  · rw [show s.line.toFifo.status = .closeWait from closing.1] at ended
    exact Or.inr ⟨closing.1, by simpa [Line.toFifo] using ended⟩
  · exact Or.inl closed.1

theorem Reads.call {events : List Event} {s next : Session}
    (reads : Reads layout origin response events s) {which : Call} (here : s.next = some which)
    (stepped : s.call layout which = some next) : Reads layout origin response events next := by
  cases which with
  | connected =>
    rw [Session.call] at stepped
    obtain ⟨line, asked, rfl⟩ := Option.map_eq_some_iff.mp stepped
    obtain ⟨ordered, received, delivered, status⟩ := connected_line reads.ordered asked
    refine ⟨ordered, ?_, ?_, ?_, ?_⟩
    · rw [delivered]
      exact reads.reader
    · intro read
      cases result : s.line.socket.connected.1 <;> simp [result] at read
    · rw [status]
      exact reads.status
    · intro ended
      have notConnected : s.line.socket.connected.1 = false := by
        cases result : s.line.socket.connected.1
        · rfl
        · simp [result] at ended
      rw [status, Streams.unread, received, delivered]
      exact reads.of_not_connected notConnected
  | available =>
    rw [Session.call] at stepped
    obtain ⟨line, asked, rfl⟩ := Option.map_eq_some_iff.mp stepped
    obtain ⟨ordered, received, delivered, status⟩ := available_line reads.ordered asked
    refine ⟨ordered, ?_, ?_, ?_, ?_⟩
    · rw [delivered]
      exact reads.reader
    · intro read
      obtain ⟨committed, streams⟩ := reads.ordered
      have some : s.line.socket.available.1 ≠ 0 := by
        intro zero
        simp [zero] at read
      rw [Streams.unread, received, delivered]
      exact fun empty => some (streams.available_count.2.mpr empty)
    · rw [status]
      exact reads.status
    · intro ended
      dsimp only at ended
      split at ended <;> cases ended
  | read =>
    rw [Session.call] at stepped
    obtain ⟨line, asked, rfl⟩ := Option.map_eq_some_iff.mp stepped
    obtain ⟨b, tail, queue⟩ := List.exists_cons_of_ne_nil (reads.found here)
    obtain ⟨byte, ordered, received, delivered, unread, status⟩ :=
      read_line reads.ordered queue asked
    refine ⟨ordered, ?_, ?_, ?_, ?_⟩
    · rw [delivered, text, List.map_append, List.foldl_append, byte, charOfInt_toNat, reads.reader]
      rfl
    · intro read
      cases read
    · rw [status]
      exact reads.status
    · intro ended
      cases ended

theorem Reads.later {events : List Event} {s : Session}
    (reads : Reads layout origin response events s) (event : Event) :
    Reads layout origin response (events ++ [event]) s where
  ordered := reads.ordered
  reader := reads.reader
  found := reads.found
  status := by
    rcases reads.status with up | closing | closed
    · exact Or.inl up
    · exact Or.inr (Or.inl ⟨closing.1, List.mem_append_left _ closing.2⟩)
    · exact Or.inr (Or.inr ⟨closed.1, List.mem_append_left _ closed.2⟩)
  returned := reads.returned

/-- While the connection is up the loop goes on. -/
theorem Reads.not_returned {events : List Event} {s : Session}
    (reads : Reads layout origin response events s) (up : s.line.socket.status = .established) :
    s.next ≠ none := by
  intro ended
  rcases reads.returned ended with closed | closing
  · rw [up] at closed
    cases closed
  · rw [up] at closing
    cases closing.1

theorem Reads.step {events : List Event} {s next : Session} {event : Event}
    (reads : Reads layout origin response events s) (stepped : s.step layout event = some next) :
    Reads layout origin response (events ++ [event]) next := by
  cases event with
  | segment bytes =>
    rw [Session.step] at stepped
    split at stepped
    case isFalse => cases stepped
    case isTrue up =>
      obtain ⟨line, arrived, rfl⟩ := Option.map_eq_some_iff.mp stepped
      have refines := Line.step_refines reads.ordered arrived
      have queue := congrArg Fifo.queue (Option.some.inj refines.2)
      rw [Line.step] at arrived
      split at arrived
      case isFalse => cases arrived
      case isTrue =>
        cases arrived
        refine ⟨refines.1, reads.reader, ?_, Or.inl up, fun ended => ?_⟩
        · intro read
          change Streams.unread s.line ++ bytes = Streams.unread _ at queue
          rw [← queue]
          exact List.append_ne_nil_of_left_ne_nil (reads.found read) _
        · exact absurd ended (reads.not_returned up)
  | fin =>
    rw [Session.step] at stepped
    split at stepped
    case isFalse => cases stepped
    case isTrue up =>
      obtain ⟨line, closing, rfl⟩ := Option.map_eq_some_iff.mp stepped
      have refines := Line.step_refines reads.ordered closing
      cases closing
      exact ⟨refines.1, reads.reader, reads.found, Or.inr (Or.inl ⟨rfl, by simp⟩),
        fun ended => absurd ended (reads.not_returned up)⟩
  | reset =>
    rw [Session.step] at stepped
    obtain ⟨line, closed, rfl⟩ := Option.map_eq_some_iff.mp stepped
    have refines := Line.step_refines reads.ordered closed
    cases closed
    exact ⟨refines.1, reads.reader, reads.found, Or.inr (Or.inr ⟨rfl, by simp⟩),
      fun _ => Or.inl rfl⟩
  | call =>
    obtain ⟨which, here, called⟩ := Option.bind_eq_some_iff.mp stepped
    exact (reads.later .call).call here called

theorem run_reads {memory : Nat → UInt8} {events : List Event} {final : Session}
    (finished : run (Session.step layout) (start memory origin response) events = some final) :
    Reads layout origin response events final :=
  run_induction (Reads layout origin response) (Reads.start memory)
    (fun _ _ _ _ _ reads stepped => reads.step stepped) finished

/-- When the loop has ended, its result is what `readResponse` makes of the bytes read; and
    unless there was a reset, the server has closed the connection and these are all the
    bytes it has sent. -/
theorem result_of_returned {memory : Nat → UInt8} {events : List Event} {final : Session}
    (finished : run (Session.step layout) (start memory origin response) events = some final)
    (returned : final.next = none) :
    ∃ lost, final.line.received = final.line.delivered ++ lost ∧
      (final.reader.code, final.reader.response) =
        readResponse (text final.line.delivered) response ∧
      (Event.reset ∉ events → Event.fin ∈ events ∧ lost = []) := by
  have reads := run_reads finished
  obtain ⟨committed, streams⟩ := reads.ordered
  refine ⟨Streams.unread final.line, streams.delivered_append_unread.symm, ?_, fun noReset => ?_⟩
  · rw [reads.reader]
    rfl
  · have notClosed : final.line.socket.status ≠ .closed := by
      intro isClosed
      rcases reads.status with up | closing | closed
      · rw [isClosed] at up
        cases up
      · rw [isClosed] at closing
        cases closing.1
      · exact noReset closed.2
    rcases reads.returned returned with closed | closing
    · exact absurd closed notClosed
    · refine ⟨?_, closing.2⟩
      rcases reads.status with up | fin | closed
      · rw [closing.1] at up
        cases up
      · exact fin.2
      · exact absurd closed.1 notClosed

/-- Two bytes, the second while the loop is under way. -/
theorem result_of_returned_two_bytes :
    ∃ final,
      run (Session.step ⟨11, by decide, true⟩) (start (fun _ => 0) 0 (some []))
          [.segment [32], .call, .call, .segment [50], .call, .call, .call, .call, .call, .fin,
            .call, .call] =
        some final ∧
      ∃ lost, final.line.received = final.line.delivered ++ lost ∧
        (final.reader.code, final.reader.response) =
          readResponse (text final.line.delivered) (some []) ∧
        (Event.reset ∉ [Event.segment [32], .call, .call, .segment [50], .call, .call, .call, .call,
            .call, .fin, .call, .call] →
          Event.fin ∈ [Event.segment [32], .call, .call, .segment [50], .call, .call, .call, .call,
            .call, .fin, .call, .call] ∧ lost = []) :=
  have ⟨final, finished, returned⟩ : ∃ final, run _ _ _ = some final ∧ final.next = none :=
    ⟨_, rfl, rfl⟩
  ⟨final, finished, result_of_returned finished returned⟩

/-! ## The loop ends -/

/-- A bound on the calls that are still made once the server has closed, with `unread`
    bytes in the queue. -/
def callsLeft (next : Option Call) (unread : Nat) : Nat :=
  match next with
  | none => 0
  | some .connected => 3 * unread + 1
  | some .available => if unread = 0 then 2 else 3 * unread
  | some .read => 3 * unread - 1

theorem callsLeft_le (next : Option Call) (unread : Nat) :
    callsLeft next unread ≤ 3 * unread + 2 := by
  unfold callsLeft
  split
  case h_3 => split <;> omega
  all_goals omega

/-- Every call brings the end nearer. -/
theorem Reads.progress {events : List Event} {s : Session}
    (reads : Reads layout origin response events s)
    (closing : s.line.socket.status = .closeWait) (goesOn : s.next ≠ none) :
    ∃ next, s.step layout .call = some next ∧
      callsLeft next.next (Streams.unread next.line).length <
        callsLeft s.next (Streams.unread s.line).length ∧
      next.line.socket.status = .closeWait ∧ next.line.received = s.line.received := by
  have ordered := reads.ordered
  obtain ⟨committed, streams⟩ := ordered
  obtain ⟨which, here⟩ := Option.ne_none_iff_exists'.mp goesOn
  rw [Session.step, here, Option.bind_some]
  cases which with
  | connected =>
    obtain ⟨line, asked⟩ : ∃ line, s.line.step layout .connected = some line := ⟨_, rfl⟩
    obtain ⟨_, received, delivered, status⟩ := connected_line reads.ordered asked
    have result : s.line.socket.connected.1 = !(Streams.unread s.line).isEmpty := by
      rw [streams.connected_result, Fifo.isConnected, show s.line.toFifo.status = .closeWait
        from closing]
      rfl
    have same : Streams.unread line = Streams.unread s.line := by
      rw [Streams.unread, received, delivered, Streams.unread]
    rw [Session.call, asked, Option.map_some]
    refine ⟨_, rfl, ?_, status.trans closing, received⟩
    rw [same, result]
    cases Streams.unread s.line with
    | nil => exact Nat.zero_lt_one
    | cons b rest => exact Nat.lt_succ_self _
  | available =>
    obtain ⟨line, asked⟩ : ∃ line, s.line.step layout .available = some line := ⟨_, rfl⟩
    obtain ⟨_, received, delivered, status⟩ := available_line reads.ordered asked
    have result := streams.available_count.2
    have same : Streams.unread line = Streams.unread s.line := by
      rw [Streams.unread, received, delivered, Streams.unread]
    rw [Session.call, asked, Option.map_some]
    refine ⟨_, rfl, ?_, status.trans closing, received⟩
    rw [same]
    by_cases empty : Streams.unread s.line = []
    case pos =>
      -- one more round: the next `connected` ends the loop
      rw [if_neg (not_not.mpr (result.mpr empty)), empty]
      exact Nat.lt_succ_self 1
    case neg =>
      have positive := List.length_pos_of_ne_nil empty
      rw [if_pos (mt result.mp empty), callsLeft, callsLeft, if_neg positive.ne']
      omega
  | read =>
    obtain ⟨b, rest, queue⟩ := List.exists_cons_of_ne_nil (reads.found here)
    have asked := Line.step_recv layout s.line (show 0 < 1 ∧ 1 < 2 ^ 15 by decide)
    obtain ⟨_, _, received, _, unread, status⟩ := read_line reads.ordered queue asked
    rw [Session.call, asked, Option.map_some]
    refine ⟨_, rfl, ?_, status.trans closing, received⟩
    rw [unread, queue, List.length_cons, callsLeft, callsLeft]
    omega

theorem Reads.returns {events : List Event} {s : Session}
    (reads : Reads layout origin response events s)
    (closing : s.line.socket.status = .closeWait) :
    ∃ n final, n ≤ callsLeft s.next (Streams.unread s.line).length ∧
      run (Session.step layout) s (List.replicate n .call) = some final ∧ final.next = none ∧
      final.line.socket.status = .closeWait ∧ final.line.received = s.line.received ∧
      ∃ all, Reads layout origin response all final := by
  -- the induction is on the number of calls left
  induction left : callsLeft s.next (Streams.unread s.line).length using Nat.strong_induction_on
    generalizing s events with
  | _ left inductionHypothesis =>
    by_cases ended : s.next = none
    case pos => exact ⟨0, s, Nat.zero_le _, rfl, ended, closing, rfl, events, reads⟩
    case neg =>
      obtain ⟨next, stepped, fewer, still, received⟩ := reads.progress closing ended
      obtain ⟨n, final, bound, finished, ending⟩ :=
        inductionHypothesis _ (by rwa [← left]) (reads.step stepped) still rfl
      rw [received] at ending
      refine ⟨n + 1, final, by omega, ?_, ending⟩
      rw [List.replicate_succ, run_cons, stepped]
      exact finished

/-- Once the server has closed, the loop ends after at most three calls for every byte that
    is left, and its result is what `readResponse` makes of all the server has sent. -/
theorem returns_of_closeWait {memory : Nat → UInt8} {events : List Event} {s : Session}
    (finished : run (Session.step layout) (start memory origin response) events = some s)
    (closing : s.line.socket.status = .closeWait) :
    ∃ n final, n ≤ 3 * (s.line.received.length - s.line.delivered.length) + 2 ∧
      run (Session.step layout) s (List.replicate n .call) = some final ∧ final.next = none ∧
      (final.reader.code, final.reader.response) = readResponse (text s.line.received) response := by
  obtain ⟨n, final, bound, calls, ended, closing, received, all, reads⟩ :=
    (run_reads finished).returns closing
  refine ⟨n, final, ?_, calls, ended, ?_⟩
  · rw [← Streams.length_unread]
    exact bound.trans (callsLeft_le _ _)
  · obtain ⟨committed, streams⟩ := reads.ordered
    have whole := streams.delivered_append_unread
    rcases reads.returned ended with closed | atEnd
    · rw [closing] at closed
      cases closed
    · rw [atEnd.2, List.append_nil, received] at whole
      rw [← whole, reads.reader]
      rfl

theorem returns_of_closeWait_two_bytes :
    ∃ s n final,
      run (Session.step ⟨11, by decide, true⟩) (start (fun _ => 0) 0 (some []))
        [.segment [32, 50], .call, .fin] = some s ∧
      n ≤ 3 * (s.line.received.length - s.line.delivered.length) + 2 ∧
      run (Session.step ⟨11, by decide, true⟩) s (List.replicate n .call) = some final ∧
      final.next = none ∧
      (final.reader.code, final.reader.response) =
        readResponse (text s.line.received) (some []) :=
  have ⟨s, finished, closing⟩ : ∃ s, run _ _ _ = some s ∧ s.line.socket.status = .closeWait :=
    ⟨_, rfl, rfl⟩
  have ⟨n, final, returns⟩ := returns_of_closeWait finished closing
  ⟨s, n, final, finished, returns⟩

end Session

end HomeAutomation.LightSwitch
