import HomeAutomation.Lib.Memory

/-! # The receive buffer of the ENC28J60

`Enc28J60Network.cpp` where it takes packets from the chip.  The first two of the chip's eight
kilobytes are the receive buffer, a ring; the rest belongs to the memory pool.

Of the chip only this is used.  A frame is stored behind the one before it, from an even address
on and behind a status vector that tells where the next one starts, unless it would reach
`ERXRDPT`.  A pointer that reads on passes from the end of the receive buffer to its start; so
does the source of a DMA copy, which ends with the address in `EDMAND`.
-/

namespace HomeAutomation.Uip.Enc28J60

open HomeAutomation.Lib.Memory

def rxstartInit : UInt16 := 0

/-- `0x1FFF-0x1800` -/
def rxstopInit : UInt16 := 0x7ff

/-- The size of the receive buffer, and that of the whole memory. -/
def rxSize : Nat := 2048
def ramSize : Nat := 8192

/-! ## The chip -/

/-- The address behind an address. -/
def following (address : Nat) : Nat :=
  if address = rxstopInit.toNat then rxstartInit.toNat else (address + 1) % ramSize

/-- Read one byte after another. -/
def readBuffer (memory : Nat → UInt8) (address : Nat) : (len : Nat) → List UInt8
  | 0 => []
  | len + 1 => memory address :: readBuffer memory (following address) len

/-- Copy up to the address `last`.  After as many bytes as there are addresses it will not come
    any more, and the copy goes on for good. -/
def dma (last : Nat) : (rounds : Nat) → (memory : Nat → UInt8) → (src dest : Nat) →
    Option (Nat → UInt8)
  | 0, _, _, _ => none
  | rounds + 1, memory, src, dest =>
    let memory := Function.update memory dest (memory src)
    if src = last then some memory
    else dma last rounds memory (following src) ((dest + 1) % ramSize)

/-- A frame with its checksum, and what the chip reports and puts behind it. -/
structure Frame where
  data : List UInt8
  crc : Vector UInt8 4
  status : UInt16
  pad : UInt8
  deriving DecidableEq

namespace Frame

def byteCount (frame : Frame) : Nat := frame.data.length + 4

/-- The next frame starts at an even address. -/
def total (frame : Frame) : Nat := 6 + frame.byteCount + frame.byteCount % 2

/-- The status vector. -/
def vector (frame : Frame) (next : Nat) : List UInt8 :=
  [UInt8.ofNat next, UInt8.ofNat (next / 256), UInt8.ofNat frame.byteCount,
    UInt8.ofNat (frame.byteCount / 256), frame.status.toUInt8, (frame.status >>> 8).toUInt8]

def stored (frame : Frame) (next : Nat) : List UInt8 :=
  frame.vector next ++ (frame.data ++ frame.crc.toList) ++
    List.replicate (frame.byteCount % 2) frame.pad

/-- "Received OK" -/
def ok (frame : Frame) : Bool := frame.status.toUInt8 &&& 0x80 != 0

end Frame

/-! ## The driver -/

/-- The chip's memory and registers, `nextPacketPtr` and `receivePkt`. -/
structure Network where
  memory : Nat → UInt8
  erxwrpt : Nat
  erxrdpt : UInt16
  epktcnt : Nat
  nextPacketPtr : UInt16
  begin : UInt16
  size : UInt16

/-- What every pointer into the receive buffer goes through. -/
def wrapped (address : UInt16) : UInt16 :=
  if address > rxstopInit then address - rxstopInit + rxstartInit else address

/-- Two bytes, the low one first. -/
def word (low high : UInt8) : UInt16 := low.toUInt16 ||| high.toUInt16 <<< 8

/-- A pointer register has 13 bits. -/
def register (address : UInt16) : Nat := address.toNat % ramSize

namespace Network

/-- `init` -/
def init (memory : Nat → UInt8) : Network where
  memory
  erxwrpt := rxstartInit.toNat
  erxrdpt := rxstartInit
  epktcnt := 0
  nextPacketPtr := rxstartInit
  begin := 0
  size := 0

def setERXRDPT (n : Network) : Network :=
  { n with erxrdpt := if n.nextPacketPtr = rxstartInit then rxstopInit else n.nextPacketPtr - 1 }

/-- Whether there is a packet. -/
def receivePacket (n : Network) : Bool × Network :=
  if n.epktcnt ≠ 0 then
    let readPtr := wrapped (n.nextPacketPtr + 6)
    let vector := readBuffer n.memory (register n.nextPacketPtr) 5
    let byte (i : Nat) := vector.getD i 0
    let n := { n with nextPacketPtr := word (byte 0) (byte 1), epktcnt := n.epktcnt - 1 }
    -- the checksum is not part of the packet
    let len := word (byte 2) (byte 3) - 4
    let rxstat := byte 4
    if rxstat &&& 0x80 ≠ 0 then (true, { n with begin := readPtr, size := len })
    else (false, n.setERXRDPT)
  else (false, n)

/-- `freePacket` -/
def freePacket (n : Network) : Network := n.setERXRDPT

/-- `setReadPtr`, for the packet in the receive buffer: where to read, and how much. -/
def setReadPtr (n : Network) (position len : UInt16) : Nat × UInt16 :=
  (register (wrapped (n.begin + position)),
    if len > n.size - position then n.size - position else len)

/-- `readPacket` -/
def readPacket (n : Network) (position len : UInt16) : List UInt8 :=
  let (start, len) := n.setReadPtr position len
  readBuffer n.memory start len.toNat

/-- The room for further frames. -/
def freeSpace (n : Network) : Nat :=
  if n.erxwrpt > n.erxrdpt.toNat then rxSize - 1 - (n.erxwrpt - n.erxrdpt.toNat)
  else if n.erxwrpt = n.erxrdpt.toNat then rxSize - 1
  else n.erxrdpt.toNat - n.erxwrpt - 1

/-- The chip stores a frame. -/
def arrive (n : Network) (frame : Frame) : Network :=
  let next := (n.erxwrpt + frame.total) % rxSize
  { n with
    memory := store (· % rxSize) n.memory n.erxwrpt (frame.stored next)
    erxwrpt := next
    epktcnt := n.epktcnt + 1 }

/-- `enc28J60_mempool_block_move_callback` -/
def moveCallback (memory : Nat → UInt8) (dest src len : UInt16) : Option (Nat → UInt8) :=
  if len = 1 then some (Function.update memory (register dest) (memory (register src)))
  else
    let last := len + (src - 1)
    let last :=
      if src ≤ rxstopInit ∧ last > rxstopInit then last - (rxstopInit - rxstartInit) else last
    dma (register last) ramSize memory (register src) (register dest)

/-- `copyPacket` from the packet in the receive buffer to address `dest`. -/
def copyPacket (n : Network) (dest srcPos len : UInt16) : Option Network := do
  let memory ← moveCallback n.memory dest (wrapped (n.begin + srcPos)) len
  return { n with memory }.setERXRDPT

end Network

/-! ## Reading -/

theorem following_of_lt {address : Nat} (inside : address < rxSize) :
    following address = (address + 1) % rxSize := by
  rw [following, rxSize] at *
  split
  case isTrue last =>
    rw [last]
    rfl
  case isFalse notLast =>
    have small : address ≠ 2047 := notLast
    rw [ramSize]
    omega

/-- Reading in the receive buffer. -/
theorem readBuffer_eq_load {memory : Nat → UInt8} {position len : Nat} :
    readBuffer memory (position % rxSize) len = load (· % rxSize) memory position len := by
  induction len generalizing position with
  | zero => rfl
  | succ len inductionHypothesis =>
    rw [readBuffer, load, following_of_lt (Nat.mod_lt position (by decide)), Nat.mod_add_mod,
      inductionHypothesis]

theorem length_readBuffer (memory : Nat → UInt8) (address len : Nat) :
    (readBuffer memory address len).length = len := by
  induction len generalizing address with
  | zero => rfl
  | succ len inductionHypothesis => rw [readBuffer, List.length_cons, inductionHypothesis]

theorem following_pool {address : Nat} (pool : rxSize ≤ address) (inside : address + 1 < ramSize) :
    following address = address + 1 := by
  have behind : address ≠ rxstopInit.toNat := Nat.ne_of_gt pool
  rw [following, if_neg behind, Nat.mod_eq_of_lt inside]

/-- Reading behind the receive buffer. -/
theorem readBuffer_pool {memory : Nat → UInt8} {address len : Nat} (pool : rxSize ≤ address)
    (inside : address + len ≤ ramSize) :
    readBuffer memory address len = load id memory address len := by
  induction len generalizing address with
  | zero => rfl
  | succ len inductionHypothesis =>
    rw [readBuffer, load]
    cases len with
    | zero => rfl
    | succ len =>
      rw [following_pool pool (by omega), inductionHypothesis (by omega) (by omega)]
      rfl

/-- How much further on a pointer points that has gone through `wrapped`. -/
def late (address : Nat) : Nat := if rxstopInit.toNat < address then 1 else 0

theorem late_of_lt {address : Nat} (inside : address < rxSize) : late address = 0 :=
  if_neg (Nat.not_lt_of_le (Nat.le_of_lt_succ inside))

theorem late_of_le {address : Nat} (beyond : rxSize ≤ address) : late address = 1 := if_pos beyond

theorem late_le_one (address : Nat) : late address ≤ 1 := by
  rw [late]
  split <;> decide

/-- The size of the ring is one more than what `wrapped` takes it for. -/
theorem toNat_wrapped {address : UInt16} (small : address.toNat < 4095) :
    (wrapped address).toNat = (address.toNat + late address.toNat) % rxSize := by
  have stop : rxstopInit.toNat = 2047 := rfl
  rw [wrapped, late, rxSize]
  by_cases beyond : address > rxstopInit
  case pos =>
    have above : rxstopInit.toNat < address.toNat := UInt16.lt_iff_toNat_lt.mp beyond
    have start : rxstartInit.toNat = 0 := rfl
    rw [if_pos beyond, if_pos above, UInt16.toNat_add,
      UInt16.toNat_sub_of_le _ _ (UInt16.le_iff_toNat_le.mpr above.le), stop, start]
    omega
  case neg =>
    have below : ¬ rxstopInit.toNat < address.toNat := fun above =>
      beyond (UInt16.lt_iff_toNat_lt.mpr above)
    rw [if_neg beyond, if_neg below]
    omega

theorem register_eq {address : UInt16} (small : address.toNat < ramSize) :
    register address = address.toNat := Nat.mod_eq_of_lt small

end HomeAutomation.Uip.Enc28J60
