import HomeAutomation.Uip.Packets
import HomeAutomation.Uip.Sequence

/-! # Receiving through uIP

A connection in the state `ESTABLISHED`, from the segments that arrive to the bytes the
client reads: the part of `uip_process` that takes segments, `uipclient_appcall` as far as
it receives, and `UIPClient::read`.  The server sends the bytes `sent`; its segments may be
lost, repeated and overtake each other, and each comes anywhere in the receive buffer.  The client
does not call `stop` here.
-/

namespace HomeAutomation.Uip

open HomeAutomation.Lib.Transition MemoryPool Enc28J60

/-! ## The connection -/

/-- The states after a FIN and after the end of the connection are not told apart further. -/
inductive TcpState
  | established
  | lastAck
  | closed
  deriving DecidableEq

/-- Of `struct uip_conn` the state, `UIP_STOPPED` and `rcv_nxt`; of `uip_userdata_t` the bits
    of `state` and `packets_in`; and whether the client's `data` is not `NULL`. -/
structure Connection where
  tcp : TcpState
  stopped : Bool
  rcvNxt : SeqNo
  stateConnected : Bool
  stateRemoteClosed : Bool
  stateRestart : Bool
  packetsIn : List Nat
  data : Bool
  pool : MemoryPool

namespace Connection

/-- There is a packet in `packets_in[0]`. -/
def hasPacket (c : Connection) : Bool := c.packetsIn.headD noBlock != noBlock

/-- `state = 0` -/
def clearState (c : Connection) : Connection :=
  { c with stateConnected := false, stateRemoteClosed := false, stateRestart := false }

/-- `uip_add_rcv_nxt` -/
def uipAddRcvNxt (n : Nat) (c : Connection) : Connection :=
  { c with rcvNxt := c.rcvNxt.uipAdd32 (UInt16.ofNat n) }

/-- An assignment of the state to `tcpstateflags`, which takes `UIP_STOPPED` away. -/
def setState (tcp : TcpState) (c : Connection) : Connection := { c with tcp, stopped := false }

/-! ### `uipclient_appcall` -/

/-- Store new data, `len` bytes of the packet from `address` on; the result says whether they
    have been stored. -/
def newData (address : UInt16) (len : Nat) (c : Connection) : Option (Connection × Bool) :=
  if len ≠ 0 ∧ ¬ c.stateRemoteClosed then do
    let r ← storePacket c.pool address len c.packetsIn
    return ({ c with pool := r.pool, packetsIn := r.packets, stopped := c.stopped || r.stop },
      r.stored)
  else return (c, true)

def restart (c : Connection) : Connection :=
  if c.stateRestart then { c with stateRestart := false, stopped := false } else c

/-- The connection has been closed or has timed out. -/
def closed (c : Connection) : Connection :=
  if c.hasPacket then { c with stateRemoteClosed := true } else c.clearState

def appcall (address : UInt16) (len : Nat) (isClosed : Bool) (c : Connection) :
    Option (Connection × Bool) := do
  let (c, stored) ← c.newData address len
  return (if isClosed then c.restart.closed else c.restart, stored)

/-! ### `UIPClient` -/

/-- `operator bool`, after its call of `tick` -/
def isOpen (c : Connection) : Bool := c.data && (!c.stateRemoteClosed || c.hasPacket)

def connected (c : Connection) : Bool := c.data && (c.hasPacket || c.stateConnected)

/-- The bytes that are read, and the connection; `stopped` is what `uip_stopped` says of the
    connection it is asked about. -/
def read (size : Nat) (stopped : Bool) (c : Connection) : Option (List UInt8 × Connection) :=
  if c.isOpen && c.hasPacket then do
    let r ← readLoop socketNumPackets c.pool c.packetsIn size
    let c := { c with
      pool := r.pool
      packetsIn := r.packets
      stateRestart := c.stateRestart || (r.ate && stopped && !c.stateRemoteClosed) }
    if r.ate && !c.hasPacket && c.stateRemoteClosed then
      return (r.data, { c.clearState with data := false })
    else return (r.data, c)
  else return ([], c)

end Connection

/-! ## Runs -/

/-- The connection, the bytes acknowledged to the server, and those read by the client. -/
structure Flow where
  conn : Connection
  accepted : List UInt8
  delivered : List UInt8
  /-- How many payloads have been acknowledged and not stored. -/
  lost : Nat
  /-- A payload has been stored that reached behind the end of the receive buffer. -/
  passed : Bool

namespace Flow

/-- A segment has `n` bytes of the stream from `pos` on; `outstanding` says whether data of
    the client has not been acknowledged yet, and its packet begins in the receive buffer at
    `begin`, where the driver takes it to begin.  `frame` are other bytes that the chip stores
    there.  `poll` is any call of `uipclient_appcall` without new data, `other` a use of the
    pool for other packets. -/
inductive Event
  | segment (pos n : Nat) (fin outstanding : Bool) (begin : UInt16)
  | frame (place : UInt16) (bytes : List UInt8)
  | reset
  | timedOut
  | poll
  | other (call : PoolCall)
  | read (size : Nat) (otherStopped : Bool)
  deriving DecidableEq

def start (isn : SeqNo) (memory : Nat → UInt8) : Flow where
  conn :=
    { tcp := .established
      stopped := false
      rcvNxt := isn
      stateConnected := true
      stateRemoteClosed := false
      stateRestart := false
      packetsIn := List.replicate socketNumPackets noBlock
      data := true
      pool := MemoryPool.init memory }
  accepted := []
  delivered := []
  lost := 0
  passed := false

/-- The chip stores bytes in the receive buffer. -/
def arrive (address : UInt16) (bytes : List UInt8) (s : Flow) : Flow :=
  { s with conn := { s.conn with pool := s.conn.pool.arrive address bytes } }

/-- The payload is acknowledged, and `uipclient_appcall` has left the connection as `conn`. -/
def taken (payload : List UInt8) (address : UInt16) (conn : Connection) (stored : Bool) (s : Flow) :
    Flow where
  conn
  accepted := s.accepted ++ payload
  delivered := s.delivered
  lost := s.lost + if stored then 0 else 1
  passed := s.passed || stored && payload != [] && decide (rxSize < address.toNat + payload.length)

/-- `uip_process` for a segment of the connection, with its payload from `address` on. -/
def input (s : Flow) (seqno : SeqNo) (payload : List UInt8) (address : UInt16)
    (fin outstanding : Bool) : Option Flow :=
  let c := s.conn
  if c.tcp ≠ .established then some s
  -- not what is expected next: only acknowledge
  else if (payload ≠ [] ∨ fin) ∧ seqno ≠ c.rcvNxt then some s
  else if fin ∧ ¬ c.stopped then
    if outstanding then some s
    else do
      let (c, stored) ← (c.uipAddRcvNxt (1 + payload.length)).appcall address payload.length true
      return s.taken payload address (c.setState .lastAck) stored
  else if payload ≠ [] ∧ ¬ c.stopped then do
    let (c, stored) ← (c.uipAddRcvNxt payload.length).appcall address payload.length false
    return s.taken payload address c stored
  else some s

/-- Where the payload of a packet is for the driver. -/
def uipAppdata (begin : UInt16) : UInt16 := begin + UInt16.ofNat hdrLen

/-- `ownIndex` says whether the connection stands at the place in `uip_conns` that its
    data have in `all_data`: `read` takes the one for the other. -/
def step (sent : List UInt8) (isn : SeqNo) (ownIndex : Bool) (s : Flow) : Event → Option Flow
  | .segment pos n fin outstanding begin =>
    -- the packet with its headers is in the receive buffer
    if pos + n ≤ sent.length ∧ hdrLen + n < rxSize ∧ begin.toNat < rxSize ∧
        (fin = true → pos + n = sent.length) then
      let payload := (sent.drop pos).take n
      (s.arrive (uipAppdata begin) payload).input (SeqNo.ofNat (isn.toNat + pos)) payload
        (uipAppdata begin) fin outstanding
    else none
  | .frame place bytes => some (s.arrive place bytes)
  | .reset =>
    if s.conn.tcp = .established then do
      let (c, _) ← (s.conn.setState .closed).appcall 0 0 false
      return { s with conn := c }
    else some s
  | .timedOut =>
    if s.conn.tcp = .established then do
      let (c, _) ← (s.conn.setState .closed).appcall 0 0 true
      return { s with conn := c }
    else some s
  | .poll =>
    if s.conn.tcp = .established then do
      let (c, _) ← s.conn.appcall 0 0 false
      return { s with conn := c }
    else some s
  | .other call =>
    if s.conn.packetsIn.all fun h => h == noBlock || call.spares h then do
      let pool ← s.conn.pool.step call
      return { s with conn := { s.conn with pool } }
    else none
  | .read size otherStopped => do
    let (data, c) ← s.conn.read size (if ownIndex then s.conn.stopped else otherStopped)
    return { s with conn := c, delivered := s.delivered ++ data }

end Flow

end HomeAutomation.Uip
