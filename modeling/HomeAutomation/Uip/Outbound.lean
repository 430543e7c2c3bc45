import HomeAutomation.Uip.Packets
import HomeAutomation.Uip.Sequence

/-! # Sending through uIP

From the bytes that `UIPClient` is given to write to the segments on the wire: `_write`,
what `uipclient_appcall` does when it is polled, asked to send again or told of an
acknowledgement, and the part of `uip_process` that keeps `snd_nxt` and `len`.  Segments and
acknowledgements may be lost, repeated and overtake each other.  The connection is open and
stays so.
-/

namespace HomeAutomation.Uip

open HomeAutomation.Lib.Transition MemoryPool

/-- `UIP_SOCKET_DATALEN` -/
def socketDataLen : Nat := 512

/-! ## The client -/

/-- Of `uip_userdata_t` `packets_out` and `out_pos`, of `struct uip_conn` `snd_nxt` and
    `len`, the number of bytes that are sent and not acknowledged. -/
structure Sender where
  pool : MemoryPool
  packetsOut : List Nat
  outPos : Nat
  sndNxt : SeqNo
  outstanding : Nat

namespace Sender

/-- `_currentBlock` -/
def currentBlock (packets : List Nat) : Nat := packets.tail.findIdx (· == noBlock)

/-- `newpacket` of `_write`, for each place from `p` on; the bytes that are left. -/
def newPacket : (places p : Nat) → Sender → (buffer : List UInt8) → Option (Sender × List UInt8)
  | 0, _, s, buffer => some (s, buffer)
  | places + 1, p, s, buffer => do
    let (handle, pool) ← s.pool.allocBlock socketDataLen
    let s := { s with pool, packetsOut := s.packetsOut.set p handle }
    if handle = noBlock then return (s, buffer)
    else
      let (written, pool) := s.pool.writePacket handle 0 buffer
      let s := { s with pool, outPos := written }
      if written < buffer.length then newPacket places (p + 1) s (buffer.drop written)
      else return (s, [])

/-- `_write` from `repeat` up to the next time it gets there, or to its end; the bytes that
    are left. -/
def writePass (s : Sender) (buffer : List UInt8) : Option (Sender × List UInt8) :=
  let p := currentBlock s.packetsOut
  let handle := s.packetsOut.getD p noBlock
  if handle = noBlock then newPacket (socketNumPackets - p) p s buffer
  else
    let (written, pool) := s.pool.writePacket handle s.outPos buffer
    let s := { s with pool, outPos := s.outPos + written }
    if written < buffer.length then
      newPacket (socketNumPackets - (p + 1)) (p + 1) s (buffer.drop written)
    else some (s, [])

/-- `send_len` of `uipclient_appcall`; the last packet is cut to what is in it. -/
def sendLen (s : Sender) : Nat × Sender :=
  let first := s.packetsOut.headD noBlock
  if first = noBlock then (0, s)
  else if s.packetsOut.getD 1 noBlock = noBlock then
    if 0 < s.outPos then (s.outPos, { s with pool := s.pool.resizeBlockTo first 0 s.outPos })
    else (0, s)
  else (s.pool.blockSize first, s)

/-- Copy the first packet behind a place for the headers, and send `len` bytes of it; without
    memory for it `network_send` tries once more, for `len` bytes.  It would send what lies
    behind `uip_buf`: that it gets memory where the first try got none is left out. -/
def transmit (s : Sender) (sendLen len : Nat) : Option (Sender × Option (List UInt8)) := do
  let (packet, pool) ← s.pool.allocBlock (hdrLen + sendLen)
  if packet ≠ noBlock then
    let pool := pool.copyPacket packet hdrLen (s.packetsOut.headD noBlock) 0 sendLen
    let data := pool.readPacket packet hdrLen len
    let pool ← pool.freeBlock packet
    return ({ s with pool }, some data)
  else
    let (packet, pool) ← pool.allocBlock (hdrLen + len)
    if packet ≠ noBlock then none
    else return ({ s with pool }, none)

/-- A call with `UIP_POLL`; `mss` is that of the connection: what the server takes at once, or
    its window if that is smaller. -/
def poll (mss : Nat) (s : Sender) : Option (Sender × Option (List UInt8)) :=
  if s.outstanding ≠ 0 then some (s, none)
  else
    let (sendLen, s) := s.sendLen
    if sendLen = 0 then some (s, none)
    else
      let len := min sendLen mss
      { s with outstanding := len }.transmit sendLen len

/-- A call with `UIP_REXMIT` -/
def rexmit (s : Sender) : Option (Sender × Option (List UInt8)) :=
  if s.outstanding = 0 then some (s, none)
  else
    let (sendLen, s) := s.sendLen
    if sendLen = 0 then some (s, none)
    else s.transmit sendLen s.outstanding

/-- The acknowledgement is for all that is outstanding. -/
def Confirms (ackno : SeqNo) (s : Sender) : Prop :=
  s.outstanding ≠ 0 ∧ ackno = s.sndNxt.uipAdd32 (UInt16.ofNat s.outstanding)

instance (ackno : SeqNo) (s : Sender) : Decidable (s.Confirms ackno) :=
  inferInstanceAs (Decidable (_ ∧ _))

/-- A segment that acknowledges: `UIP_ACKDATA`, and the call with it. -/
def acked (ackno : SeqNo) (s : Sender) : Option Sender :=
  if s.Confirms ackno then do
    let (pool, packetsOut) ← eatBlock s.pool s.packetsOut
    return { s with pool, packetsOut, sndNxt := ackno, outstanding := 0 }
  else some s

end Sender

/-! ## Runs -/

/-- The client, the segments it has sent, and the bytes the server has received; `written`
    are the bytes taken by `_write`, `confirmed` those whose packets have been freed. -/
structure Outflow where
  sender : Sender
  written : List UInt8
  confirmed : List UInt8
  wire : List (SeqNo × List UInt8)
  received : List UInt8

namespace Outflow

/-- `deliver` is the arrival of a segment that has been sent at some time, `ack` that of an
    acknowledgement of some of the bytes received so far; `other` is a use of the pool for
    other packets. -/
inductive Event
  | write (buffer : List UInt8)
  | poll (mss : Nat)
  | rexmit
  | deliver (seqno : SeqNo) (data : List UInt8)
  | ack (count : Nat)
  | other (call : PoolCall)
  deriving DecidableEq

def start (isn : SeqNo) (memory : Nat → UInt8) : Outflow where
  sender :=
    { pool := MemoryPool.init memory
      packetsOut := List.replicate socketNumPackets noBlock
      outPos := 0
      sndNxt := isn
      outstanding := 0 }
  written := []
  confirmed := []
  wire := []
  received := []

/-- The segment gets on the wire. -/
def send (s : Outflow) : Sender × Option (List UInt8) → Outflow
  | (sender, none) => { s with sender }
  | (sender, some data) => { s with sender, wire := s.wire ++ [(sender.sndNxt, data)] }

def step (isn : SeqNo) (s : Outflow) : Event → Option Outflow
  | .write buffer => do
    let (sender, left) ← s.sender.writePass buffer
    return { s with
      sender
      written := s.written ++ buffer.take (buffer.length - left.length) }
  | .poll mss => (s.sender.poll mss).map s.send
  | .rexmit => s.sender.rexmit.map s.send
  | .deliver seqno data =>
    if (seqno, data) ∈ s.wire then
      -- the server takes what it expects next
      if seqno = SeqNo.ofNat (isn.toNat + s.received.length) then
        some { s with received := s.received ++ data }
      else some s
    else none
  | .ack count =>
    if count ≤ s.received.length then do
      let ackno := SeqNo.ofNat (isn.toNat + count)
      let sender ← s.sender.acked ackno
      return { s with
        sender
        confirmed :=
          if s.sender.Confirms ackno then
            s.confirmed ++ contents s.sender.pool (s.sender.packetsOut.headD noBlock)
          else s.confirmed }
    else none
  | .other call =>
    if s.sender.packetsOut.all fun h => h == noBlock || call.spares h then do
      let pool ← s.sender.pool.step call
      return { s with sender := { s.sender with pool } }
    else none

end Outflow

end HomeAutomation.Uip
