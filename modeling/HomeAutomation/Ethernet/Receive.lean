import HomeAutomation.Ethernet.Socket

/-! # The receiving side is a queue

`Line` is a socket together with what has passed through it; `Fifo` is a plain queue of
bytes with a count of them, which is taken again only when it is too small.  `Streams` ties the three pointers to the stream of all bytes received: up to
where the chip has been told, up to where the client has read, and its end.  It follows
that the socket, through all its pointers, counters and wrapped copies, answers every call as
the queue does.
-/

namespace HomeAutomation.Ethernet

open HomeAutomation.Lib.Memory HomeAutomation.Lib.Transition

/-! ## What can happen -/

/-- `len` is an `int16_t`, and positive. -/
inductive Label
  | segment (bytes : List UInt8)
  | status (status : SnSR)
  | available
  | connected
  | recv (len : Nat)
  deriving DecidableEq

/-- The results of the client's calls. -/
inductive Output
  | available (result : Nat)
  | connected (result : Bool)
  | recv (result : Int) (data : List UInt8)
  deriving DecidableEq

structure Line where
  socket : Receiver
  received : List UInt8
  delivered : List UInt8
  log : List Output

namespace Line

/-- A socket that has just been opened, wherever the chip's pointers are then. -/
def start (status : SnSR) (memory : Nat → UInt8) (origin : Nat) : Line where
  socket := Receiver.socketBegin
    ⟨status, memory, UInt16.ofNat origin, UInt16.ofNat origin, ⟨0, 0, 0⟩⟩
  received := []
  delivered := []
  log := []

def step (layout : Layout) (s : Line) : Label → Option Line
  | .segment bytes =>
    if s.socket.getSnRxRsr.toNat + bytes.length ≤ layout.ssize then
      some { s with socket := s.socket.receive layout bytes, received := s.received ++ bytes }
    else none
  | .status status => some { s with socket := { s.socket with status } }
  | .available =>
    let (len, socket) := s.socket.available
    some { s with socket, log := s.log ++ [.available len.toNat] }
  | .connected =>
    let (result, socket) := s.socket.connected
    some { s with socket, log := s.log ++ [.connected result] }
  | .recv len =>
    if 0 < len ∧ len < 2 ^ 15 then
      let (result, data, socket) := s.socket.socketRecv layout len
      some { s with
        socket
        delivered := s.delivered ++ data
        log := s.log ++ [.recv result data] }
    else none

theorem step_available (layout : Layout) (s : Line) :
    s.step layout .available = some { s with
      socket := s.socket.available.2
      log := s.log ++ [.available s.socket.available.1.toNat] } := rfl

theorem step_connected (layout : Layout) (s : Line) :
    s.step layout .connected = some { s with
      socket := s.socket.connected.2
      log := s.log ++ [.connected s.socket.connected.1] } := rfl

theorem step_recv (layout : Layout) (s : Line) {len : Nat} (possible : 0 < len ∧ len < 2 ^ 15) :
    s.step layout (.recv len) = some { s with
      socket := (s.socket.socketRecv layout len).2.2
      delivered := s.delivered ++ (s.socket.socketRecv layout len).2.1
      log := s.log ++
        [.recv (s.socket.socketRecv layout len).1 (s.socket.socketRecv layout len).2.1] } :=
  if_pos possible

end Line

/-! ## The queue -/

/-- `known` of the bytes have been counted. -/
structure Fifo where
  queue : List UInt8
  known : Nat
  status : SnSR
  log : List Output
  deriving DecidableEq

namespace Fifo

/-- The connection is up as long as something may still arrive or is there to be read. -/
def isConnected (s : Fifo) : Bool :=
  match s.status with
  | .listen | .closed | .finWait => false
  | .closeWait => !s.queue.isEmpty
  | _ => true

/-- The result of a read that finds nothing: 0 once the other side has closed, else -1. -/
def endResult (status : SnSR) : Int :=
  if status = .listen ∨ status = .closed ∨ status = .closeWait then 0 else -1

/-- The bytes that are known of are counted again where `len` are wanted and fewer known. -/
def renewed (s : Fifo) (len : Nat) : Nat := if s.known < len then s.queue.length else s.known

def step (s : Fifo) : Label → Option Fifo
  | .segment bytes => some { s with queue := s.queue ++ bytes }
  | .status status => some { s with status }
  | .available =>
    some { s with known := s.renewed 1, log := s.log ++ [.available (s.renewed 1)] }
  | .connected =>
    some { s with
      known := if s.status = .closeWait then s.renewed 1 else s.known
      log := s.log ++ [.connected s.isConnected] }
  | .recv len =>
    if s.queue.isEmpty then
      some { s with
        known := s.renewed len - len
        log := s.log ++ [.recv (endResult s.status) []] }
    else
      some { s with
        queue := s.queue.drop len
        known := s.renewed len - len
        log := s.log ++ [.recv (min s.queue.length len : Nat) (s.queue.take len)] }

end Fifo

/-! ## Results of the driver -/

namespace Receiver

theorem refresh_status (r : Receiver) (len : Nat) : (r.refresh len).status = r.status := by
  rw [refresh]
  split <;> rfl

theorem available_status (r : Receiver) : r.available.2.status = r.status := by
  rw [available, socketRecvAvailable]
  split <;> rfl

theorem connected_status (r : Receiver) : r.connected.2.status = r.status := by
  rw [connected]
  split
  case h_4 => exact r.available_status
  all_goals rfl

theorem socketRecv_of_ne {layout : Layout} {r : Receiver} {len : Nat}
    (something : (r.refresh len).state.rxRsr ≠ 0) :
    r.socketRecv layout len =
      (((min (r.refresh len).state.rxRsr.toNat len : Nat) : Int),
        (r.refresh len).readData layout (r.refresh len).state.rxRd
          (min (r.refresh len).state.rxRsr.toNat len),
        (r.refresh len).consume (min (r.refresh len).state.rxRsr.toNat len)) :=
  if_neg something

end Receiver

/-! ## The pointers -/

/-- `committed` bytes are known to the chip as read. -/
structure Streams (layout : Layout) (origin : Nat) (s : Line) (committed : Nat) : Prop where
  inOrder : s.delivered = s.received.take s.delivered.length
  room : s.received.length ≤ committed + layout.ssize
  written : s.socket.rxWr = UInt16.ofNat (origin + s.received.length)
  register : s.socket.snRxRd = UInt16.ofNat (origin + committed)
  pointer : s.socket.state.rxRd = UInt16.ofNat (origin + s.delivered.length)
  behind : s.delivered.length = committed + s.socket.state.rxInc.toNat
  few : s.socket.state.rxInc.toNat < 250
  known : s.delivered.length + s.socket.state.rxRsr.toNat ≤ s.received.length
  quiet : s.socket.state.rxRsr = 0 → s.socket.state.rxInc = 0
  window : Window layout.ssize s.socket.memory origin s.received committed

namespace Streams

variable {layout : Layout} {origin committed : Nat} {s : Line}

theorem start (status : SnSR) (memory : Nat → UInt8) :
    Streams layout origin (Line.start status memory origin) 0 where
  inOrder := rfl
  room := Nat.zero_le _
  written := rfl
  register := rfl
  pointer := rfl
  behind := rfl
  few := Nat.zero_lt_succ _
  known := Nat.le_refl _
  quiet _ := rfl
  window _ _ inside := by cases inside

theorem length_delivered_le (streams : Streams layout origin s committed) :
    s.delivered.length ≤ s.received.length := by
  have known := streams.known
  omega

/-- The bytes the client has not read. -/
def unread (s : Line) : List UInt8 := s.received.drop s.delivered.length

theorem length_unread (s : Line) : (unread s).length = s.received.length - s.delivered.length :=
  List.length_drop

theorem delivered_append_unread (streams : Streams layout origin s committed) :
    s.delivered ++ unread s = s.received := by
  conv_lhs => rw [streams.inOrder]
  exact List.take_append_drop _ _

theorem toNat_getSnRxRsr (streams : Streams layout origin s committed) :
    s.socket.getSnRxRsr.toNat = s.received.length - committed := by
  have known := streams.known
  have behind := streams.behind
  have room := streams.room
  have small := layout.ssize_le
  rw [Receiver.getSnRxRsr, streams.written, streams.register, UInt16.toNat_sub,
    UInt16.toNat_ofNat', UInt16.toNat_ofNat']
  omega

/-- What the driver finds when it asks the chip: everything not read yet. -/
theorem toNat_asked (streams : Streams layout origin s committed) :
    (s.socket.getSnRxRsr - s.socket.state.rxInc.toUInt16).toNat = (unread s).length := by
  have known := streams.known
  have behind := streams.behind
  have room := streams.room
  have small := layout.ssize_le
  rw [UInt16.toNat_sub, streams.toNat_getSnRxRsr, UInt8.toNat_toUInt16, length_unread]
  omega

/-- Segments are put behind the bytes received before. -/
theorem segment (streams : Streams layout origin s committed) {bytes : List UInt8}
    (fits : s.socket.getSnRxRsr.toNat + bytes.length ≤ layout.ssize) :
    Streams layout origin
      { s with socket := s.socket.receive layout bytes, received := s.received ++ bytes }
      committed := by
  have known := streams.known
  have behind := streams.behind
  rw [streams.toNat_getSnRxRsr] at fits
  refine ⟨?_, ?_, ?_, streams.register, streams.pointer, streams.behind, streams.few, ?_,
    streams.quiet, ?_⟩
  · rw [List.take_append_of_le_length streams.length_delivered_le]
    exact streams.inOrder
  · rw [List.length_append]
    omega
  · rw [Receiver.receive, streams.written, List.length_append, ← Nat.add_assoc]
    exact (UInt16.ofNat_add _ _).symm
  · rw [List.length_append]
    exact known.trans (Nat.le_add_right _ _)
  · have place : ∀ i < bytes.length, (s.socket.rxWr.toNat + i) % layout.ssize =
        (origin + s.received.length + i) % layout.ssize := by
      intro i _
      have divides : layout.ssize ∣ 2 ^ 16 :=
        Nat.pow_dvd_pow 2 (layout.bounded.trans (by decide))
      rw [streams.written, UInt16.toNat_ofNat', Nat.add_mod, Nat.mod_mod_of_dvd _ divides,
        ← Nat.add_mod]
    have same : store (· % layout.ssize) s.socket.memory s.socket.rxWr.toNat bytes =
        store (· % layout.ssize) s.socket.memory (origin + s.received.length) bytes :=
      store_congr place s.socket.memory
    show Window layout.ssize (store (· % layout.ssize) s.socket.memory s.socket.rxWr.toNat bytes)
      origin (s.received ++ bytes) committed
    rw [same]
    exact streams.window.append (by omega)

/-- What the driver knows about is there. -/
theorem known_le (streams : Streams layout origin s committed) :
    s.socket.state.rxRsr.toNat ≤ (unread s).length := by
  have known := streams.known
  rw [length_unread]
  omega

/-- The driver may learn at any time how much has arrived. -/
theorem learn (streams : Streams layout origin s committed) :
    Streams layout origin
      { s with
        socket := { s.socket with
          state := { s.socket.state with
            rxRsr := s.socket.getSnRxRsr - s.socket.state.rxInc.toUInt16 } } } committed where
  inOrder := streams.inOrder
  room := streams.room
  written := streams.written
  register := streams.register
  pointer := streams.pointer
  behind := streams.behind
  few := streams.few
  known := by
    have inside := streams.length_delivered_le
    show s.delivered.length + (s.socket.getSnRxRsr - s.socket.state.rxInc.toUInt16).toNat ≤
      s.received.length
    rw [streams.toNat_asked, length_unread]
    omega
  quiet := by
    intro (nothing : s.socket.getSnRxRsr - s.socket.state.rxInc.toUInt16 = 0)
    have asked := streams.toNat_asked
    rw [nothing] at asked
    have known := streams.known_le
    rw [← asked] at known
    exact streams.quiet (UInt16.toNat_inj.mp (Nat.le_zero.mp known))
  window := streams.window

/-- The results do not matter for the pointers. -/
theorem relog (streams : Streams layout origin s committed) (log : List Output) :
    Streams layout origin { s with log } committed :=
  ⟨streams.inOrder, streams.room, streams.written, streams.register, streams.pointer,
    streams.behind, streams.few, streams.known, streams.quiet, streams.window⟩

/-! ### `available` and `connected` -/

theorem available_streams (streams : Streams layout origin s committed) :
    Streams layout origin { s with socket := s.socket.available.2 } committed := by
  rw [Receiver.available, Receiver.socketRecvAvailable]
  split
  case isTrue => exact streams.learn
  case isFalse => exact streams

/-- `available` reports no more than there is, and nothing only if there is nothing. -/
theorem available_count (streams : Streams layout origin s committed) :
    s.socket.available.1.toNat ≤ (unread s).length ∧
      (s.socket.available.1 = 0 ↔ unread s = []) := by
  have known := streams.known_le
  have asked := streams.toNat_asked
  have zero_iff (n : UInt16) : n = 0 ↔ n.toNat = 0 := UInt16.toNat_inj.symm
  rw [zero_iff, ← List.length_eq_zero_iff, Receiver.available, Receiver.socketRecvAvailable]
  split
  case isTrue => exact ⟨asked.le, by rw [asked]⟩
  case isFalse someKnown =>
    rw [zero_iff] at someKnown
    exact ⟨known, fun zero => absurd zero someKnown, fun empty => by omega⟩

theorem available_any (streams : Streams layout origin s committed) :
    (s.socket.available.1 != 0) = !(unread s).isEmpty := by
  rw [Bool.eq_iff_iff, bne_iff_ne, Ne, streams.available_count.2]
  simp

theorem connected_streams (streams : Streams layout origin s committed) :
    Streams layout origin { s with socket := s.socket.connected.2 } committed := by
  rw [Receiver.connected]
  split
  case h_4 => exact streams.available_streams
  all_goals exact streams

end Streams

/-- The queue the client of the socket sees. -/
def Line.toFifo (s : Line) : Fifo :=
  ⟨Streams.unread s, s.socket.state.rxRsr.toNat, s.socket.status, s.log⟩

namespace Streams

variable {layout : Layout} {origin committed : Nat} {s : Line}

theorem connected_result (streams : Streams layout origin s committed) :
    s.socket.connected.1 = s.toFifo.isConnected := by
  rw [Receiver.connected, Fifo.isConnected]
  show _ = match s.socket.status with
    | .listen | .closed | .finWait => false
    | .closeWait => !(unread s).isEmpty
    | _ => true
  cases s.socket.status with
  | closeWait => exact streams.available_any
  | _ => rfl

/-- What `available` returns is what the driver knows of afterwards. -/
theorem toNat_available (streams : Streams layout origin s committed) :
    s.socket.available.1.toNat = s.toFifo.renewed 1 ∧
      s.socket.available.2.state.rxRsr.toNat = s.toFifo.renewed 1 := by
  have asked := streams.toNat_asked
  rw [Receiver.available, Receiver.socketRecvAvailable, Fifo.renewed, Line.toFifo]
  dsimp only
  by_cases nothing : s.socket.state.rxRsr = 0
  case pos =>
    have less : s.socket.state.rxRsr.toNat < 1 := by
      rw [nothing]
      decide
    rw [if_pos nothing, if_pos less]
    exact ⟨asked, asked⟩
  case neg =>
    have notLess : ¬ s.socket.state.rxRsr.toNat < 1 := fun less =>
      nothing (UInt16.toNat_inj.mp (Nat.lt_one_iff.mp less))
    rw [if_neg nothing, if_neg notLess]
    exact ⟨rfl, rfl⟩

theorem connected_known (streams : Streams layout origin s committed) :
    s.socket.connected.2.state.rxRsr.toNat =
      if s.socket.status = .closeWait then s.toFifo.renewed 1 else s.toFifo.known := by
  rw [Receiver.connected]
  cases s.socket.status with
  | closeWait => exact streams.toNat_available.2
  | _ => rfl

/-! ### `recv` -/

theorem refresh_known (streams : Streams layout origin s committed) (len : Nat) :
    (s.socket.refresh len).state.rxRsr.toNat = s.toFifo.renewed len := by
  rw [Receiver.refresh, Fifo.renewed, Line.toFifo]
  dsimp only
  split
  case isTrue => exact streams.toNat_asked
  case isFalse => rfl

theorem refresh_streams (streams : Streams layout origin s committed) (len : Nat) :
    Streams layout origin { s with socket := s.socket.refresh len } committed := by
  rw [Receiver.refresh]
  split
  case isTrue => exact streams.learn
  case isFalse => exact streams

/-- After asking, the driver knows of all it needs to know. -/
theorem refresh_count (streams : Streams layout origin s committed) (len : Nat) :
    min (s.socket.refresh len).state.rxRsr.toNat len = min (unread s).length len := by
  have known := streams.known_le
  rw [Receiver.refresh]
  split
  case isTrue =>
    show min (s.socket.getSnRxRsr - s.socket.state.rxInc.toUInt16).toNat len = _
    rw [streams.toNat_asked]
  case isFalse enough => omega

/-- In one part, in two, or wrapped by the chip: the bytes read are the next ones. -/
theorem readData_eq (streams : Streams layout origin s committed) {count : Nat}
    (available : count ≤ (unread s).length) :
    s.socket.readData layout s.socket.state.rxRd count = (unread s).take count := by
  have behind := streams.behind
  have room := streams.room
  have inside := streams.length_delivered_le
  rw [length_unread] at available
  have next : load (· % layout.ssize) s.socket.memory (origin + s.delivered.length) count =
      (unread s).take count := streams.window.load_eq (by omega) (by omega)
  rw [Receiver.readData, streams.pointer]
  simp only [Layout.toNat_and_smask, Receiver.read]
  rw [← next]
  cases layout.offsetAddressMapping with
  | true =>
    apply load_congr
    intro i _
    show s.socket.memory (((origin + s.delivered.length) % layout.ssize + i) % layout.ssize) = _
    rw [Nat.mod_add_mod]
  | false =>
    simp only [Bool.false_or, decide_eq_true_eq, Bool.false_eq_true, if_false]
    split
    case isTrue fits => exact load_ring_of_le _ fits
    case isFalse passes => exact load_ring_split _ (by omega) (by omega) layout.ssize_pos

/-- A read that finds nothing changes no pointer of the chip. -/
theorem recv_empty (streams : Streams layout origin s committed) (empty : unread s = [])
    {len : Nat} (positive : 0 < len) :
    s.socket.socketRecv layout len =
        (Fifo.endResult s.socket.status, [], s.socket.refresh len) ∧
      (s.socket.refresh len).state.rxRsr.toNat = 0 := by
  have count := streams.refresh_count len
  rw [empty, List.length_nil, Nat.zero_min] at count
  have nothing : (s.socket.refresh len).state.rxRsr = 0 := by
    rw [← UInt16.toNat_inj]
    show _ = 0
    omega
  refine ⟨?_, congrArg UInt16.toNat nothing⟩
  rw [Receiver.socketRecv, if_pos nothing, Receiver.refresh_status, Fifo.endResult]
  split <;> rfl

/-- The driver's pointer moves over what has been read, and the chip's follows at the
    latest when 250 bytes have been read or there is nothing more to read. -/
theorem advance (streams : Streams layout origin s committed) {count : Nat}
    (available : count ≤ s.socket.state.rxRsr.toNat) :
    (∃ later, Streams layout origin
      { s with
        socket := s.socket.consume count
        delivered := s.delivered ++ (unread s).take count } later) ∧
      (s.socket.consume count).state.rxRsr.toNat = s.socket.state.rxRsr.toNat - count := by
  have behind := streams.behind
  have room := streams.room
  have known := streams.known
  have whole := streams.known_le
  have length : (s.delivered ++ (unread s).take count).length = s.delivered.length + count := by
    rw [List.length_append, List.length_take]
    omega
  have inOrder : s.delivered ++ (unread s).take count =
      s.received.take (s.delivered ++ (unread s).take count).length := by
    conv_rhs => rw [length, ← streams.delivered_append_unread]
    rw [List.take_length_add_append]
  have pointer : s.socket.state.rxRd + UInt16.ofNat count =
      UInt16.ofNat (origin + (s.delivered ++ (unread s).take count).length) := by
    rw [length, streams.pointer, ← UInt16.ofNat_add, Nat.add_assoc]
  have left : (s.socket.state.rxRsr - UInt16.ofNat count).toNat =
      s.socket.state.rxRsr.toNat - count := by
    have small : count < 2 ^ 16 :=
      Nat.lt_of_le_of_lt available (UInt16.toNat_lt s.socket.state.rxRsr)
    have toNat : (UInt16.ofNat count).toNat = count := UInt16.toNat_ofNat_of_lt small
    rw [UInt16.toNat_sub_of_le, toNat]
    rwa [UInt16.le_iff_toNat_le, toNat]
  have stillKnown : (s.delivered ++ (unread s).take count).length +
      (s.socket.state.rxRsr - UInt16.ofNat count).toNat ≤ s.received.length := by
    rw [length, left]
    omega
  rw [Receiver.consume]
  split
  case isTrue =>
    -- the chip is told of all that has been read
    refine ⟨⟨(s.delivered ++ (unread s).take count).length,
      { inOrder, pointer, known := stillKnown
        room := by
          show s.received.length ≤ (s.delivered ++ (unread s).take count).length + layout.ssize
          omega
        written := streams.written
        register := pointer
        behind := rfl
        few := Nat.zero_lt_succ _
        quiet := fun _ => rfl
        window := streams.window.mono (by omega) }⟩, left⟩
  case isFalse waits =>
    -- less than 250 bytes: the sum stays in its byte
    have fits : s.socket.state.rxInc.toNat + count < 2 ^ 8 := by omega
    have counted : (UInt8.ofNat (s.socket.state.rxInc.toNat + count)).toNat =
        s.socket.state.rxInc.toNat + count := UInt8.toNat_ofNat_of_lt fits
    refine ⟨⟨committed,
      { inOrder, pointer, known := stillKnown
        room := room
        written := streams.written
        register := streams.register
        behind := by
          show (s.delivered ++ (unread s).take count).length = committed +
            (UInt8.ofNat (s.socket.state.rxInc.toNat + count)).toNat
          rw [length, counted]
          omega
        few := by
          show (UInt8.ofNat (s.socket.state.rxInc.toNat + count)).toNat < 250
          rw [counted]
          omega
        quiet := fun nothing => absurd (Or.inr nothing) waits
        window := streams.window }⟩, left⟩

/-- A read that finds something. -/
theorem recv_some (streams : Streams layout origin s committed) (some : unread s ≠ [])
    {len : Nat} (positive : 0 < len) :
    ∃ socket later,
      s.socket.socketRecv layout len =
        (((min (unread s).length len : Nat) : Int), (unread s).take len, socket) ∧
      socket.status = s.socket.status ∧
      socket.state.rxRsr.toNat = s.toFifo.renewed len - len ∧
      Streams layout origin
        { s with socket, delivered := s.delivered ++ (unread s).take len } later := by
  have refreshed := streams.refresh_streams len
  have count := streams.refresh_count len
  have notEmpty : 0 < (unread s).length := List.length_pos_of_ne_nil some
  have same : (unread s).take (min (unread s).length len) = (unread s).take len := by
    rw [Nat.min_comm]
    exact List.take_eq_take_min.symm
  -- what waits has been counted, so the driver knows of something
  have something : (s.socket.refresh len).state.rxRsr ≠ 0 := by
    intro (zero : _ = 0)
    rw [zero] at count
    change min 0 len = _ at count
    omega
  have enough : min (unread s).length len ≤ (s.socket.refresh len).state.rxRsr.toNat := by
    rw [← count]
    exact Nat.min_le_left _ _
  obtain ⟨⟨later, advanced⟩, left⟩ := refreshed.advance enough
  refine ⟨(s.socket.refresh len).consume (min (unread s).length len), later, ?_, ?_, ?_, ?_⟩
  · have data := refreshed.readData_eq (Nat.min_le_left (unread s).length len)
    rw [Receiver.socketRecv_of_ne something, count, data, ← same]
    rfl
  · rw [Receiver.consume]
    split
    all_goals exact Receiver.refresh_status _ _
  · rw [left, ← count]
    show (s.socket.refresh len).state.rxRsr.toNat -
      min (s.socket.refresh len).state.rxRsr.toNat len = _
    rw [streams.refresh_known len]
    omega
  · rw [← same]
    exact advanced

end Streams

/-! ## The refinement -/

/-- The pointers are right, whatever the chip knows. -/
def Line.Ordered (layout : Layout) (origin : Nat) (s : Line) : Prop :=
  ∃ committed, Streams layout origin s committed

/-- Every step keeps the pointers right and is a step of the queue. -/
theorem Line.step_refines {layout : Layout} {origin : Nat} {s next : Line} {label : Label}
    (ordered : s.Ordered layout origin) (stepped : s.step layout label = some next) :
    next.Ordered layout origin ∧ s.toFifo.step label = some next.toFifo := by
  obtain ⟨committed, streams⟩ := ordered
  cases label with
  | segment bytes =>
    rw [Line.step] at stepped
    split at stepped
    case isTrue fits =>
      cases stepped
      refine ⟨⟨committed, streams.segment fits⟩, ?_⟩
      have inside := streams.length_delivered_le
      rw [Fifo.step, toFifo, toFifo, Streams.unread, Streams.unread,
        List.drop_append_of_le_length inside]
      rfl
    case isFalse => cases stepped
  | status status =>
    cases stepped
    exact ⟨⟨committed, streams.inOrder, streams.room, streams.written, streams.register,
      streams.pointer, streams.behind, streams.few, streams.known, streams.quiet,
      streams.window⟩, rfl⟩
  | available =>
    rw [step_available] at stepped
    cases stepped
    refine ⟨⟨committed, streams.available_streams.relog _⟩, ?_⟩
    obtain ⟨result, known⟩ := streams.toNat_available
    show some (⟨Streams.unread s, s.toFifo.renewed 1, s.socket.status,
        s.log ++ [.available (s.toFifo.renewed 1)]⟩ : Fifo) =
      some ⟨Streams.unread s, s.socket.available.2.state.rxRsr.toNat, s.socket.available.2.status,
        s.log ++ [.available s.socket.available.1.toNat]⟩
    rw [result, known, Receiver.available_status]
  | connected =>
    rw [step_connected] at stepped
    cases stepped
    refine ⟨⟨committed, streams.connected_streams.relog _⟩, ?_⟩
    show some (⟨Streams.unread s,
        if s.socket.status = .closeWait then s.toFifo.renewed 1 else s.toFifo.known,
        s.socket.status, s.log ++ [.connected s.toFifo.isConnected]⟩ : Fifo) =
      some ⟨Streams.unread s, s.socket.connected.2.state.rxRsr.toNat, s.socket.connected.2.status,
        s.log ++ [.connected s.socket.connected.1]⟩
    rw [streams.connected_result, streams.connected_known, Receiver.connected_status]
  | recv len =>
    by_cases possible : 0 < len ∧ len < 2 ^ 15
    case neg =>
      rw [Line.step, if_neg possible] at stepped
      cases stepped
    case pos =>
      rw [step_recv layout s possible] at stepped
      by_cases empty : Streams.unread s = []
      case pos =>
        -- the count has been renewed, and is zero
        obtain ⟨result, nothing⟩ := streams.recv_empty empty possible.1
        rw [result, List.append_nil] at stepped
        cases stepped
        refine ⟨⟨committed, (streams.refresh_streams len).relog _⟩, ?_⟩
        have known : s.toFifo.renewed len - len = (s.socket.refresh len).state.rxRsr.toNat := by
          rw [← streams.refresh_known, nothing, Nat.zero_sub]
        rw [Fifo.step, known, if_pos (by rw [toFifo, empty]; rfl), toFifo, toFifo,
          Receiver.refresh_status]
        rfl
      case neg =>
        obtain ⟨socket, later, result, status, known, after⟩ := streams.recv_some empty possible.1
        rw [result] at stepped
        cases stepped
        refine ⟨⟨later, after.relog _⟩, ?_⟩
        -- what is left follows from what is delivered, as all of it is what was received
        have queue : Streams.unread
            { s with socket, delivered := s.delivered ++ (Streams.unread s).take len } =
              (Streams.unread s).drop len := by
          apply @List.append_cancel_left _ (s.delivered ++ (Streams.unread s).take len)
          rw [List.append_assoc s.delivered _ (List.drop len _), List.take_append_drop,
            streams.delivered_append_unread]
          exact after.delivered_append_unread
        rw [Fifo.step, ← known, if_neg (by simpa [toFifo] using empty), toFifo, toFifo, status,
          ← queue]
        rfl

/-- The socket behaves as a queue of bytes with a count: every run of segments, status changes
    and calls gives the results the queue gives, whatever the size of the buffer, the place in
    it where the connection starts, and the number of bytes that pass. -/
theorem run_refines_queue {layout : Layout} {status : SnSR} {memory : Nat → UInt8} {origin : Nat}
    {labels : List Label} {final : Line}
    (finished : run (Line.step layout) (Line.start status memory origin) labels = some final) :
    run Fifo.step ⟨[], 0, status, []⟩ labels = some final.toFifo :=
  run_simulates Line.toFifo (Line.Ordered layout origin) ⟨0, Streams.start status memory⟩
    (fun _ _ _ ordered stepped => (Line.step_refines ordered stepped).1)
    (fun _ _ _ ordered stepped => (Line.step_refines ordered stepped).2) finished

/-- Across the end of a buffer and of the 16-bit pointers. -/
theorem run_refines_queue_across_end :
    ∃ final,
      run (Line.step ⟨11, by decide, false⟩) (Line.start .established (fun _ => 0) 65535)
          [.segment [72, 84, 84], .recv 2, .segment [80], .available, .status .closeWait,
            .recv 80, .recv 1] =
        some final ∧
      run Fifo.step ⟨[], 0, .established, []⟩
          [.segment [72, 84, 84], .recv 2, .segment [80], .available, .status .closeWait,
            .recv 80, .recv 1] =
        some final.toFifo :=
  have ⟨final, finished⟩ := Option.isSome_iff_exists.mp (show (run _ _ _).isSome from rfl)
  ⟨final, finished, run_refines_queue finished⟩

/-- Nothing is lost, changed or read twice; and the chip's count of what is waiting is too
    high by less than 250, and right when the driver knows of nothing. -/
theorem run_conserves {layout : Layout} {status : SnSR} {memory : Nat → UInt8} {origin : Nat}
    {labels : List Label} {final : Line}
    (finished : run (Line.step layout) (Line.start status memory origin) labels = some final) :
    ∃ waiting, final.received = final.delivered ++ waiting ∧
      waiting.length ≤ final.socket.getSnRxRsr.toNat ∧
      final.socket.getSnRxRsr.toNat < waiting.length + 250 ∧
      (final.socket.state.rxRsr = 0 → final.socket.getSnRxRsr.toNat = waiting.length) := by
  obtain ⟨committed, streams⟩ : final.Ordered layout origin :=
    run_invariant (Line.Ordered layout origin) ⟨0, Streams.start status memory⟩
      (fun _ _ _ ordered stepped => (Line.step_refines ordered stepped).1) finished
  have behind := streams.behind
  have few := streams.few
  have inside := streams.length_delivered_le
  refine ⟨Streams.unread final, streams.delivered_append_unread.symm, ?_, ?_, ?_⟩
  all_goals rw [streams.toNat_getSnRxRsr, Streams.length_unread]
  · omega
  · omega
  · intro nothing
    have zero := congrArg UInt8.toNat (streams.quiet nothing)
    change final.socket.state.rxInc.toNat = 0 at zero
    omega

theorem run_conserves_across_end :
    ∃ final waiting,
      run (Line.step ⟨11, by decide, false⟩) (Line.start .established (fun _ => 0) 65535)
          [.segment [72, 84, 84], .available, .recv 2] = some final ∧
      final.received = final.delivered ++ waiting ∧
      waiting.length ≤ final.socket.getSnRxRsr.toNat ∧
      final.socket.getSnRxRsr.toNat < waiting.length + 250 ∧
      (final.socket.state.rxRsr = 0 → final.socket.getSnRxRsr.toNat = waiting.length) :=
  have ⟨final, finished⟩ := Option.isSome_iff_exists.mp (show (run _ _ _).isSome from rfl)
  have ⟨waiting, conserved⟩ := run_conserves finished
  ⟨final, waiting, finished, conserved⟩

end HomeAutomation.Ethernet
