import HomeAutomation.Lib.Memory
import HomeAutomation.Lib.Transition

/-! # Receiving through the W5x00 chip

The chip keeps what a socket has received in a ring buffer and counts with 16-bit
pointers; the driver keeps its own copies of some of them, reads ahead of the pointer
the chip knows, and tells the chip only when 250 bytes have been read or nothing is
known to be left.  The functions are those of `socket.cpp` and `EthernetClient.cpp`,
for a socket in use.

Of the chip only this is used: it puts received bytes behind each other into the
socket's part of its memory, never more than the part has room for as of the last `RECV`
command, and reports their number.
-/

namespace HomeAutomation.Ethernet

open HomeAutomation.Lib.Memory

/-! ## The chip -/

/-- The socket states of a TCP connection. -/
inductive SnSR
  | closed
  | init
  | listen
  | synsent
  | synrecv
  | established
  | finWait
  | closing
  | timeWait
  | closeWait
  | lastAck
  deriving DecidableEq

/-- What `W5100.init` has set up: buffers of 2 to 16 kilobytes, and whether the chip
    wraps addresses itself. -/
structure Layout where
  exponent : Nat
  bounded : exponent ≤ 14
  offsetAddressMapping : Bool

namespace Layout

def ssize (layout : Layout) : Nat := 2 ^ layout.exponent

def smask (layout : Layout) : UInt16 := UInt16.ofNat (2 ^ layout.exponent - 1)

theorem ssize_pos (layout : Layout) : 0 < layout.ssize := Nat.two_pow_pos _

theorem ssize_le (layout : Layout) : layout.ssize ≤ 16384 := by
  have bound := Nat.pow_le_pow_right (show 0 < 2 by decide) layout.bounded
  exact bound

theorem toNat_smask (layout : Layout) : layout.smask.toNat = 2 ^ layout.exponent - 1 := by
  have bound := layout.ssize_le
  rw [ssize] at bound
  rw [smask, UInt16.toNat_ofNat']
  omega

/-- Masking a pointer gives the place of its position in the buffer. -/
theorem toNat_and_smask (layout : Layout) (position : Nat) :
    (UInt16.ofNat position &&& layout.smask).toNat = position % layout.ssize := by
  have divides : layout.ssize ∣ 2 ^ 16 :=
    Nat.pow_dvd_pow 2 (layout.bounded.trans (by decide))
  rw [UInt16.toNat_and, toNat_smask, Nat.and_two_pow_sub_one_eq_mod, UInt16.toNat_ofNat']
  exact Nat.mod_mod_of_dvd position divides

end Layout

/-- `socketstate_t`, without `TX_FSR`. -/
structure SocketState where
  rxRsr : UInt16
  rxRd : UInt16
  rxInc : UInt8

/-- A socket: the chip's status, receive memory (from `RBASE` on) and pointers, and the
    driver's state. -/
structure Receiver where
  status : SnSR
  memory : Nat → UInt8
  rxWr : UInt16
  snRxRd : UInt16
  state : SocketState

namespace Receiver

/-- `W5100.read` -/
def read (layout : Layout) (r : Receiver) (address len : Nat) : List UInt8 :=
  if layout.offsetAddressMapping then load (· % layout.ssize) r.memory address len
  else load id r.memory address len

def getSnRxRsr (r : Receiver) : UInt16 := r.rxWr - r.snRxRd

/-- The chip stores received bytes. -/
def receive (layout : Layout) (bytes : List UInt8) (r : Receiver) : Receiver :=
  { r with
    memory := store (· % layout.ssize) r.memory r.rxWr.toNat bytes
    rxWr := r.rxWr + UInt16.ofNat bytes.length }

/-! ## The driver -/

def readData (layout : Layout) (src : UInt16) (len : Nat) (r : Receiver) : List UInt8 :=
  let srcMask := (src &&& layout.smask).toNat
  if layout.offsetAddressMapping || decide (srcMask + len ≤ layout.ssize) then
    r.read layout srcMask len
  else
    let size := layout.ssize - srcMask
    r.read layout srcMask size ++ r.read layout 0 (len - size)

/-- `socketBegin`: the driver starts at the chip's pointer. -/
def socketBegin (r : Receiver) : Receiver := { r with state := ⟨0, r.snRxRd, 0⟩ }

def socketRecvAvailable (r : Receiver) : UInt16 × Receiver :=
  if r.state.rxRsr = 0 then
    let ret := r.getSnRxRsr - r.state.rxInc.toUInt16
    (ret, { r with state := { r.state with rxRsr := ret } })
  else (r.state.rxRsr, r)

/-- Ask the chip again if less is known to have arrived than is wanted. -/
def refresh (len : Nat) (r : Receiver) : Receiver :=
  if r.state.rxRsr.toNat < len then
    { r with state := { r.state with rxRsr := r.getSnRxRsr - r.state.rxInc.toUInt16 } }
  else r

/-- Move the pointers over what has been read. -/
def consume (ret : Nat) (r : Receiver) : Receiver :=
  let ptr := r.state.rxRd + UInt16.ofNat ret
  let rxRsr := r.state.rxRsr - UInt16.ofNat ret
  let inc := r.state.rxInc.toNat + ret
  if 250 ≤ inc ∨ rxRsr = 0 then
    -- the RECV command makes the pointer known to the chip
    { r with snRxRd := ptr, state := ⟨rxRsr, ptr, 0⟩ }
  else { r with state := ⟨rxRsr, ptr, UInt8.ofNat inc⟩ }

/-- The result, the bytes put into the buffer, and the socket. -/
def socketRecv (layout : Layout) (len : Nat) (r : Receiver) : Int × List UInt8 × Receiver :=
  let r := r.refresh len
  if r.state.rxRsr = 0 then
    if r.status = .listen ∨ r.status = .closed ∨ r.status = .closeWait then (0, [], r)
    else (-1, [], r)
  else
    let ret := min r.state.rxRsr.toNat len
    (ret, r.readData layout r.state.rxRd ret, r.consume ret)

/-! ## `EthernetClient` -/

def available (r : Receiver) : UInt16 × Receiver := r.socketRecvAvailable

def connected (r : Receiver) : Bool × Receiver :=
  match r.status with
  | .listen | .closed | .finWait => (false, r)
  | .closeWait =>
    let (len, r) := r.available
    (len != 0, r)
  | _ => (true, r)

/-- The next byte, or -1. -/
def readByte (layout : Layout) (r : Receiver) : Int × Receiver :=
  let (result, data, r) := r.socketRecv layout 1
  match data with
  | b :: _ => if 0 < result then (b.toNat, r) else (-1, r)
  | [] => (-1, r)

end Receiver

end HomeAutomation.Ethernet
