import HomeAutomation.Lib.Transition
import HomeAutomation.Uip.Enc28J60

/-! # The packets come in order, not always whole

`Exchange` is the chip with the driver; `Frames` is a queue of frames with their positions in an
endless memory.  The driver takes the frames one after another, whatever the pointers pass, and
the chip never writes over one that is not freed.  But every pointer that has passed the end of
the receive buffer points one byte too far.
-/

namespace HomeAutomation.Uip.Enc28J60

open HomeAutomation.Lib.Memory HomeAutomation.Lib.Transition

/-! ## What can happen -/

/-- `elsewhere` is a write to the memory pool; a read starts in the packet. -/
inductive Event
  | arrive (frame : Frame)
  | elsewhere (address : Nat) (byte : UInt8)
  | receive
  | read (position len : UInt16)
  | free
  deriving DecidableEq

inductive Output
  | packet (size : Option Nat)
  | data (bytes : List UInt8)
  deriving DecidableEq

/-- `inPacket` is `in_packet` of `UIPEthernetClass`. -/
structure Exchange where
  network : Network
  inPacket : Bool
  log : List Output

namespace Exchange

def start (memory : Nat → UInt8) : Exchange := ⟨Network.init memory, false, []⟩

def step (s : Exchange) : Event → Option Exchange
  | .arrive frame =>
    -- the chip drops a frame that does not fit, and one that it cannot count
    if frame.total ≤ s.network.freeSpace ∧ s.network.epktcnt < 255 then
      some { s with network := s.network.arrive frame }
    else none
  | .elsewhere address byte =>
    if rxstopInit.toNat < address then
      some { s with
        network := { s.network with memory := Function.update s.network.memory address byte } }
    else none
  | .receive =>
    if s.inPacket then none
    else
      let (inPacket, network) := s.network.receivePacket
      some ⟨network, inPacket,
        s.log ++ [.packet (if inPacket then some network.size.toNat else none)]⟩
  | .read position len =>
    if s.inPacket ∧ position ≤ s.network.size then
      some { s with log := s.log ++ [.data (s.network.readPacket position len)] }
    else none
  | .free => if s.inPacket then some ⟨s.network.freePacket, false, s.log⟩ else none

end Exchange

/-! ## The queue of frames -/

/-- The frames that have not been received, the position of the first of them, and the one that
    is being handled, with its own. -/
structure Frames where
  queue : List Frame
  position : Nat
  current : Option (Frame × Nat)
  log : List Output
  deriving DecidableEq

/-- Where the driver takes the data of a frame to begin. -/
def begins (start : Nat) : Nat := (start % rxSize + 6 + late (start % rxSize + 6)) % rxSize

/-- How much further on the driver reads than it should. -/
def displacement (start position : Nat) : Nat :=
  late (start % rxSize + 6) + late (begins start + position)

namespace Frames

def start : Frames := ⟨[], 0, none, []⟩

def step (s : Frames) : Event → Option Frames
  | .arrive frame => some { s with queue := s.queue ++ [frame] }
  | .elsewhere _ _ => some s
  | .receive =>
    match s.queue with
    | [] => some { s with log := s.log ++ [.packet none] }
    | frame :: queue =>
      if frame.ok then
        some ⟨queue, s.position + frame.total, some (frame, s.position),
          s.log ++ [.packet (some frame.data.length)]⟩
      else some ⟨queue, s.position + frame.total, none, s.log ++ [.packet none]⟩
  | .read position len =>
    s.current.map fun (frame, start) =>
      let bytes := (frame.data ++ frame.crc.toList).drop
        (position.toNat + displacement start position.toNat)
      { s with
        log := s.log ++ [.data (bytes.take (min len.toNat (frame.data.length - position.toNat)))] }
  | .free => some { s with current := none }

/-- Up to where the memory is free again. -/
def freed (s : Frames) : Nat :=
  match s.current with
  | none => s.position
  | some (_, start) => start

end Frames

/-! ## Frames in the memory -/

theorem Frame.length_stored (frame : Frame) (next : Nat) :
    (frame.stored next).length = frame.total := by
  rw [stored, total, byteCount, vector, List.length_append, List.length_append, List.length_append,
    List.length_replicate, Vector.length_toList]
  rfl

theorem Frame.total_even (frame : Frame) : frame.total % 2 = 0 := by
  rw [total]
  omega

theorem toNat_word {v : Nat} (small : v < 2 ^ 16) :
    (word (UInt8.ofNat v) (UInt8.ofNat (v / 256))).toNat = v := by
  have low : (UInt8.ofNat v).toUInt16.toNat = v % 256 := by
    rw [UInt8.toNat_toUInt16, UInt8.toNat_ofNat']
  have high : ((UInt8.ofNat (v / 256)).toUInt16 <<< 8).toNat = (v / 256) <<< 8 := by
    have parts := Nat.div_add_mod v 256
    have below := Nat.mod_lt v (show 0 < 256 by decide)
    rw [UInt16.toNat_shiftLeft, UInt8.toNat_toUInt16, UInt8.toNat_ofNat']
    simp only [UInt16.reduceToNat, Nat.shiftLeft_eq, Nat.reduceMod, Nat.reducePow]
    omega
  rw [word, UInt16.toNat_or, low, high, Nat.or_comm,
    ← Nat.shiftLeft_add_eq_or_of_lt (Nat.mod_lt v (show 0 < 2 ^ 8 by decide)), Nat.shiftLeft_eq]
  omega

theorem toNat_setERXRDPT {n : Network} {position : Nat}
    (pointer : n.nextPacketPtr.toNat = position % rxSize) :
    n.setERXRDPT.erxrdpt.toNat = (position + (rxSize - 1)) % rxSize := by
  have zero_iff : n.nextPacketPtr = rxstartInit ↔ n.nextPacketPtr.toNat = 0 :=
    UInt16.toNat_inj.symm
  show (if n.nextPacketPtr = rxstartInit then rxstopInit else n.nextPacketPtr - 1).toNat = _
  rw [rxSize] at *
  by_cases atStart : n.nextPacketPtr = rxstartInit
  case pos =>
    have stop : rxstopInit.toNat = 2047 := rfl
    have zero := zero_iff.mp atStart
    rw [if_pos atStart, stop]
    omega
  case neg =>
    have positive : n.nextPacketPtr.toNat ≠ 0 := mt zero_iff.mpr atStart
    have one : (1 : UInt16).toNat = 1 := rfl
    rw [if_neg atStart, UInt16.toNat_sub_of_le _ _ (by
      rw [UInt16.le_iff_toNat_le, one]; omega), one]
    omega

/-- The frames one behind the other, the first at `position`. -/
def layout : (position : Nat) → List Frame → List UInt8
  | _, [] => []
  | position, frame :: frames =>
    frame.stored ((position + frame.total) % rxSize) ++ layout (position + frame.total) frames

theorem layout_snoc (position : Nat) (frames : List Frame) (frame : Frame) :
    layout position (frames ++ [frame]) =
      layout position frames ++
        frame.stored ((position + (layout position frames).length + frame.total) % rxSize) := by
  induction frames generalizing position with
  | nil => rw [List.nil_append, layout, layout, layout, List.append_nil, List.nil_append]; rfl
  | cons first frames inductionHypothesis =>
    rw [List.cons_append, layout, layout, inductionHypothesis, List.append_assoc,
      List.length_append, Frame.length_stored, ← Nat.add_assoc]

/-- The driver, the queue, and the stream of all that has been stored. -/
structure Holds (n : Network) (inPacket : Bool) (s : Frames) (stream : List UInt8) : Prop where
  behind : s.position ≤ stream.length
  waiting : stream.drop s.position = layout s.position s.queue
  freed_le : s.freed ≤ s.position
  room : stream.length ≤ s.freed + (rxSize - 2)
  even : s.freed % 2 = 0 ∧ s.position % 2 = 0 ∧ stream.length % 2 = 0
  erxwrpt : n.erxwrpt = stream.length % rxSize
  erxrdpt : s.freed = 0 ∧ n.erxrdpt.toNat = 0 ∨
    n.erxrdpt.toNat = (s.freed + (rxSize - 1)) % rxSize
  epktcnt : n.epktcnt = s.queue.length
  nextPacketPtr : n.nextPacketPtr.toNat = s.position % rxSize
  window : Window rxSize n.memory 0 stream s.freed
  handling : inPacket = s.current.isSome
  current : ∀ frame start, s.current = some (frame, start) →
    start + frame.total = s.position ∧
      (∃ next rest, stream.drop start = frame.stored next ++ rest) ∧
      n.begin.toNat = begins start ∧ n.size.toNat = frame.data.length

namespace Holds

variable {n : Network} {inPacket : Bool} {s : Frames} {stream : List UInt8}

theorem start (memory : Nat → UInt8) : Holds (Network.init memory) false Frames.start [] where
  behind := Nat.le_refl _
  waiting := rfl
  freed_le := Nat.le_refl _
  room := Nat.zero_le _
  even := ⟨rfl, rfl, rfl⟩
  erxwrpt := rfl
  erxrdpt := Or.inl ⟨rfl, rfl⟩
  epktcnt := rfl
  nextPacketPtr := rfl
  window _ _ inside := by cases inside
  handling := rfl
  current _ _ here := by cases here

/-- The chip leaves a byte free at least. -/
theorem fits (holds : Holds n inPacket s stream) {frame : Frame}
    (enough : frame.total ≤ n.freeSpace) :
    stream.length + frame.total ≤ s.freed + (rxSize - 2) := by
  have even := frame.total_even
  have lengthEven := holds.even
  have room := holds.room
  have behind := holds.behind
  have freed := holds.freed_le
  rw [Network.freeSpace, holds.erxwrpt] at enough
  rw [rxSize] at *
  -- a frame has an even number of bytes, so that one of an odd number is not used
  rcases holds.erxrdpt with ⟨nothing, register⟩ | register
  · rw [register] at enough
    split at enough
    · omega
    · split at enough <;> omega
  · rw [register, rxSize] at enough
    split at enough
    · omega
    · split at enough <;> omega

theorem arrive (holds : Holds n inPacket s stream) {frame : Frame}
    (enough : frame.total ≤ n.freeSpace) :
    ∃ bytes, Holds (n.arrive frame) inPacket { s with queue := s.queue ++ [frame] } (stream ++ bytes) := by
  have fits := holds.fits enough
  have behind := holds.behind
  have lengthEven := holds.even
  have totalEven := frame.total_even
  let next := (n.erxwrpt + frame.total) % rxSize
  have length := frame.length_stored next
  have place : next = (stream.length + frame.total) % rxSize := by
    rw [show next = (n.erxwrpt + frame.total) % rxSize from rfl, holds.erxwrpt,
      Nat.mod_add_mod]
  refine ⟨frame.stored next, ?_⟩
  constructor
  case behind =>
    rw [List.length_append]
    exact Nat.le_add_right_of_le behind
  case waiting =>
    have total : s.position + (layout s.position s.queue).length = stream.length := by
      rw [← holds.waiting, List.length_drop]
      omega
    rw [List.drop_append_of_le_length behind, holds.waiting, layout_snoc, total, place]
  case freed_le => exact holds.freed_le
  case room =>
    rw [List.length_append, length]
    exact fits
  case even =>
    refine ⟨lengthEven.1, lengthEven.2.1, ?_⟩
    rw [List.length_append, length]
    omega
  case erxwrpt =>
    rw [List.length_append, length]
    exact place
  case erxrdpt => exact holds.erxrdpt
  case epktcnt =>
    rw [List.length_append]
    exact congrArg (· + 1) holds.epktcnt
  case nextPacketPtr => exact holds.nextPacketPtr
  case window =>
    -- the chip counts within the ring, the stream goes on
    have same : store (· % rxSize) n.memory n.erxwrpt (frame.stored next) =
        store (· % rxSize) n.memory (0 + stream.length) (frame.stored next) := by
      refine store_congr (fun i _ => ?_) _
      rw [holds.erxwrpt, Nat.zero_add, Nat.mod_add_mod]
    show Window rxSize (store (· % rxSize) n.memory n.erxwrpt (frame.stored next))
      0 (stream ++ frame.stored next) s.freed
    rw [same]
    refine holds.window.append ?_
    rw [length]
    rw [rxSize] at *
    omega
  case handling => exact holds.handling
  case current =>
    intro other start here
    obtain ⟨position, ⟨following, rest, found⟩, pointers⟩ := holds.current other start here
    refine ⟨position, ⟨following, rest ++ frame.stored next, ?_⟩, pointers⟩
    rw [List.drop_append_of_le_length (by omega), found, List.append_assoc]

/-- Another byte is none of the receive buffer. -/
theorem elsewhere (holds : Holds n inPacket s stream) {address : Nat} (outside : rxstopInit.toNat < address)
    (byte : UInt8) :
    Holds { n with memory := Function.update n.memory address byte } inPacket s stream where
  behind := holds.behind
  waiting := holds.waiting
  freed_le := holds.freed_le
  room := holds.room
  even := holds.even
  erxwrpt := holds.erxwrpt
  erxrdpt := holds.erxrdpt
  epktcnt := holds.epktcnt
  nextPacketPtr := holds.nextPacketPtr
  window i after inside := by
    have ring : (0 + i) % rxSize < rxSize := Nat.mod_lt _ (by decide)
    have beyond : rxSize ≤ address := outside
    have other : (0 + i) % rxSize ≠ address := by omega
    show Function.update n.memory address byte ((0 + i) % rxSize) = stream[i]
    rw [Function.update_of_ne other]
    exact holds.window i after inside
  handling := holds.handling
  current := holds.current

/-- The packets up to the next one are freed. -/
theorem free (holds : Holds n inPacket s stream) :
    Holds n.freePacket false { s with current := none } stream where
  behind := holds.behind
  waiting := holds.waiting
  freed_le := Nat.le_refl _
  room := holds.room.trans (Nat.add_le_add_right holds.freed_le _)
  even := ⟨holds.even.2.1, holds.even.2⟩
  erxwrpt := holds.erxwrpt
  erxrdpt := Or.inr (toNat_setERXRDPT holds.nextPacketPtr)
  epktcnt := holds.epktcnt
  nextPacketPtr := holds.nextPacketPtr
  window := holds.window.mono holds.freed_le
  handling := rfl
  current _ _ here := by cases here

/-- The results do not matter for the memory. -/
theorem relog (holds : Holds n inPacket s stream) (log : List Output) :
    Holds n inPacket { s with log } stream :=
  ⟨holds.behind, holds.waiting, holds.freed_le, holds.room, holds.even, holds.erxwrpt,
    holds.erxrdpt, holds.epktcnt, holds.nextPacketPtr, holds.window, holds.handling,
    holds.current⟩

/-! ### Receiving -/

/-- The first frame is in the window. -/
theorem total_le (holds : Holds n inPacket s stream) (handled : s.current = none) {frame : Frame}
    {queue : List Frame} (first : s.queue = frame :: queue) :
    s.position + frame.total ≤ stream.length ∧ frame.total ≤ rxSize - 2 := by
  have behind := holds.behind
  have room := holds.room
  have length := congrArg List.length holds.waiting
  rw [Frames.freed, handled] at room
  rw [first, layout, List.length_drop, List.length_append, Frame.length_stored] at length
  dsimp only at room
  omega

theorem receivePacket_spec (holds : Holds n inPacket s stream) (handled : s.current = none) {frame : Frame}
    {queue : List Frame} (first : s.queue = frame :: queue) :
    ∃ nextPacketPtr begin size : UInt16,
      nextPacketPtr.toNat = (s.position + frame.total) % rxSize ∧
        begin.toNat = begins s.position ∧ size.toNat = frame.data.length ∧
        n.receivePacket =
          if frame.ok then
            (true, { n with
              nextPacketPtr, epktcnt := n.epktcnt - 1, begin, size })
          else
            (false,
              Network.setERXRDPT { n with
                nextPacketPtr, epktcnt := n.epktcnt - 1 }) := by
  have some : n.epktcnt ≠ 0 := by
    rw [holds.epktcnt, first]
    exact Nat.succ_ne_zero _
  obtain ⟨inside, small⟩ := holds.total_le handled first
  have pointer := holds.nextPacketPtr
  have ring : s.position % rxSize < rxSize := Nat.mod_lt _ (by decide)
  let next := (s.position + frame.total) % rxSize
  have nextSmall : next < rxSize := Nat.mod_lt _ (by decide)
  have countSmall : frame.byteCount < 2 ^ 16 := by
    rw [Frame.total, rxSize] at small
    omega
  -- the status vector is what the chip has stored for this frame
  have vector : readBuffer n.memory (register n.nextPacketPtr) 5 =
      [UInt8.ofNat next, UInt8.ofNat (next / 256), UInt8.ofNat frame.byteCount,
        UInt8.ofNat (frame.byteCount / 256), frame.status.toUInt8] := by
    have freed : s.freed ≤ s.position := holds.freed_le
    have loaded := holds.window.load_eq freed
      (show s.position + 5 ≤ stream.length by rw [Frame.total] at inside; omega)
    rw [Nat.zero_add, holds.waiting, first, layout] at loaded
    rw [register_eq (by rw [pointer, ramSize]; rw [rxSize] at *; omega), pointer,
      readBuffer_eq_load, loaded]
    rfl
  have sum : (n.nextPacketPtr + 6).toNat = s.position % rxSize + 6 := by
    rw [UInt16.toNat_add, pointer]
    rw [rxSize] at *
    exact Nat.mod_eq_of_lt (by simp only [UInt16.reduceToNat]; omega)
  have four : (4 : UInt16).toNat = 4 := rfl
  have enough : 4 ≤ frame.byteCount := Nat.le_add_left _ _
  refine ⟨word (UInt8.ofNat next) (UInt8.ofNat (next / 256)),
    wrapped (n.nextPacketPtr + 6),
    word (UInt8.ofNat frame.byteCount) (UInt8.ofNat (frame.byteCount / 256)) - 4, ?_, ?_, ?_, ?_⟩
  · exact toNat_word (nextSmall.trans (by decide))
  · rw [toNat_wrapped (by rw [sum]; rw [rxSize] at *; omega), sum]
    rfl
  · rw [UInt16.toNat_sub_of_le _ _ (by
      rw [UInt16.le_iff_toNat_le, toNat_word countSmall]; exact enough), toNat_word countSmall,
      four, Frame.byteCount, Nat.add_sub_cancel]
  · rw [Network.receivePacket, if_pos some]
    simp only [vector, List.getD_cons_succ, List.getD_cons_zero]
    rw [Frame.ok]
    by_cases good : frame.status.toUInt8 &&& 0x80 = 0
    case pos =>
      rw [if_neg (not_not.mpr good), if_neg (by rw [bne_iff_ne]; exact not_not.mpr good)]
    case neg => rw [if_pos good, if_pos (bne_iff_ne.mpr good)]

theorem receive (holds : Holds n false s stream) :
    ∃ t, s.step .receive = some t ∧ Holds n.receivePacket.2 n.receivePacket.1 t stream ∧
      t.log = s.log ++ [.packet (if n.receivePacket.1 then some n.receivePacket.2.size.toNat
        else none)] := by
  have handled : s.current = none := Option.not_isSome_iff_eq_none.mp (by
    rw [← holds.handling]
    exact Bool.false_ne_true)
  have freed : s.freed = s.position := by rw [Frames.freed, handled]
  cases first : s.queue with
  | nil =>
    have nothing : n.epktcnt = 0 := by
      rw [holds.epktcnt, first]
      rfl
    have result : n.receivePacket = (false, n) := by
      rw [Network.receivePacket, if_neg (not_not.mpr nothing)]
    rw [Frames.step, first, result]
    refine ⟨_, rfl, ?_, rfl⟩
    have same := holds.relog (s.log ++ [.packet none])
    rw [first] at same
    exact same
  | cons frame queue =>
    obtain ⟨nextPacketPtr, begin, size, nextPlace, beginPlace, sizeIs, result⟩ :=
      holds.receivePacket_spec handled first
    obtain ⟨inside, small⟩ := holds.total_le handled first
    have waiting := holds.waiting
    have even := holds.even
    have totalEven := frame.total_even
    rw [first, layout] at waiting
    have behindFrame : stream.drop (s.position + frame.total) =
        layout (s.position + frame.total) queue := by
      rw [← List.drop_drop, waiting]
      exact List.drop_left' (frame.length_stored _)
    have count : n.epktcnt - 1 = queue.length := by
      rw [holds.epktcnt, first]
      rfl
    have room := holds.room
    rw [freed] at room
    rw [Frames.step, first, result]
    by_cases good : frame.ok
    case pos =>
      -- the frame stays in the window until it is freed
      rw [if_pos good]
      refine ⟨_, if_pos good, ?_, by rw [← sizeIs]; rfl⟩
      constructor
      case behind => exact inside
      case waiting => exact behindFrame
      case freed_le => exact Nat.le_add_right _ _
      case room => exact room
      case even => exact ⟨even.2.1, by dsimp only; omega, even.2.2⟩
      case erxwrpt => exact holds.erxwrpt
      case erxrdpt =>
        have register := holds.erxrdpt
        rw [freed] at register
        exact register
      case epktcnt => exact count
      case nextPacketPtr => exact nextPlace
      case window => exact freed ▸ holds.window
      case handling => rfl
      case current =>
        intro other start here
        cases here
        exact ⟨rfl, ⟨_, _, waiting⟩, beginPlace, sizeIs⟩
    case neg =>
      -- a damaged frame is freed at once
      rw [if_neg good]
      refine ⟨_, if_neg good, ?_, rfl⟩
      constructor
      case behind => exact inside
      case waiting => exact behindFrame
      case freed_le => exact Nat.le_refl _
      case room => exact room.trans (Nat.add_le_add_right (Nat.le_add_right _ _) _)
      case even => exact ⟨by dsimp only [Frames.freed]; omega, by dsimp only; omega, even.2.2⟩
      case erxwrpt => exact holds.erxwrpt
      case erxrdpt => exact Or.inr (toNat_setERXRDPT nextPlace)
      case epktcnt => exact count
      case nextPacketPtr => exact nextPlace
      case window => exact holds.window.mono (freed.le.trans (Nat.le_add_right _ _))
      case handling => rfl
      case current => exact fun _ _ here => by cases here

/-! ### Reading -/

theorem read (holds : Holds n true s stream) {position len : UInt16} (inside : position ≤ n.size) :
    ∃ frame start, s.current = some (frame, start) ∧
      n.readPacket position len =
        ((frame.data ++ frame.crc.toList).drop
            (position.toNat + displacement start position.toNat)).take
          (min len.toNat (frame.data.length - position.toNat)) := by
  obtain ⟨⟨frame, start⟩, current⟩ := Option.isSome_iff_exists.mp holds.handling.symm
  refine ⟨frame, start, current, ?_⟩
  obtain ⟨ends, ⟨next, rest, found⟩, beginPlace, sizeIs⟩ := holds.current frame start current
  have freed : s.freed = start := by rw [Frames.freed, current]
  have behind := holds.behind
  have room := holds.room
  rw [freed] at room
  have within : position.toNat ≤ frame.data.length := by
    rw [← sizeIs]
    exact UInt16.le_iff_toNat_le.mp inside
  have beginSmall : begins start < rxSize := Nat.mod_lt _ (by decide)
  have total : frame.total = 6 + (frame.data.length + 4) + (frame.data.length + 4) % 2 := rfl
  have lateSmall : displacement start position.toNat ≤ 2 :=
    Nat.add_le_add (late_le_one _) (late_le_one _)
  -- how much is read
  have count : (if len > n.size - position then n.size - position else len).toNat =
      min len.toNat (frame.data.length - position.toNat) := by
    have rest : (n.size - position).toNat = frame.data.length - position.toNat := by
      rw [UInt16.toNat_sub_of_le _ _ inside, sizeIs]
    by_cases more : len > n.size - position
    · have bound := UInt16.lt_iff_toNat_lt.mp more
      rw [if_pos more, rest]
      omega
    · have bound : ¬ (n.size - position).toNat < len.toNat := fun less =>
        more (UInt16.lt_iff_toNat_lt.mpr less)
      rw [if_neg more]
      omega
  -- where it is read
  have sum : (n.begin + position).toNat = begins start + position.toNat := by
    rw [UInt16.toNat_add, beginPlace]
    rw [rxSize] at *
    exact Nat.mod_eq_of_lt (by omega)
  have place : (wrapped (n.begin + position)).toNat =
      (start + (6 + (position.toNat + displacement start position.toNat))) % rxSize := by
    rw [toNat_wrapped (by rw [sum]; rw [rxSize] at *; omega), sum, displacement]
    have wrappedBegin : begins start = (start % rxSize + 6 + late (start % rxSize + 6)) % rxSize :=
      rfl
    rw [rxSize] at *
    omega
  have pointer : register (wrapped (n.begin + position)) =
      (start + (6 + (position.toNat + displacement start position.toNat))) % rxSize := by
    have ring : (start + (6 + (position.toNat + displacement start position.toNat))) % rxSize <
        rxSize := Nat.mod_lt _ (by decide)
    rw [register_eq (by rw [place, ramSize]; rw [rxSize] at *; omega), place]
  rw [Network.readPacket, Network.setReadPtr]
  simp only [count, pointer, readBuffer_eq_load]
  have loaded := holds.window.load_eq
    (show s.freed ≤ start + (6 + (position.toNat + displacement start position.toNat)) by
      rw [freed]
      exact Nat.le_add_right _ _)
    (show start + (6 + (position.toNat + displacement start position.toNat)) +
        min len.toNat (frame.data.length - position.toNat) ≤ stream.length by omega)
  rw [Nat.zero_add, ← List.drop_drop, found, Frame.stored, List.append_assoc, List.append_assoc,
    ← List.drop_drop, List.drop_left' (show (frame.vector next).length = 6 from rfl)] at loaded
  have length : (frame.data ++ frame.crc.toList).length = frame.data.length + 4 := by
    rw [List.length_append, Vector.length_toList]
  rw [loaded, List.drop_append_of_le_length (by omega), List.take_append_of_le_length (by
    rw [List.length_drop]
    omega)]

end Holds

/-! ## Whole runs -/

/-- Whatever frames arrive and however the packets are read: the driver gets the frames in their
    order, without those that are reported as damaged, each with its own size; and what it reads
    of a packet is what the frame has there, but for the displacement. -/
theorem run_refines_frames {memory : Nat → UInt8} {events : List Event} {final : Exchange}
    (finished : run Exchange.step (Exchange.start memory) events = some final) :
    ∃ s, run Frames.step Frames.start events = some s ∧ final.log = s.log := by
  have refines := run_induction (fun events (x : Exchange) =>
    ∃ s stream, run Frames.step Frames.start events = some s ∧
      Holds x.network x.inPacket s stream ∧ x.log = s.log)
    ⟨Frames.start, [], rfl, Holds.start memory, rfl⟩ ?_ finished
  · obtain ⟨s, _, reached, _, log⟩ := refines
    exact ⟨s, reached, log⟩
  rintro events x event next _ ⟨s, stream, reached, holds, log⟩ stepped
  have extend {t : Frames} (stepped : s.step event = some t) :
      run Frames.step Frames.start (events ++ [event]) = some t := by
    rw [run_snoc, reached]
    exact stepped
  cases event with
  | arrive frame =>
    rw [Exchange.step] at stepped
    split at stepped
    case isFalse => cases stepped
    case isTrue enough =>
      cases stepped
      obtain ⟨bytes, after⟩ := holds.arrive enough.1
      exact ⟨_, _, extend rfl, after, log⟩
  | elsewhere address byte =>
    rw [Exchange.step] at stepped
    split at stepped
    case isFalse => cases stepped
    case isTrue outside =>
      cases stepped
      exact ⟨_, _, extend rfl, holds.elsewhere outside byte, log⟩
  | receive =>
    rw [Exchange.step] at stepped
    split at stepped
    case isTrue => cases stepped
    case isFalse outside =>
      cases stepped
      rw [Bool.not_eq_true] at outside
      rw [outside] at holds
      obtain ⟨t, received, after, result⟩ := holds.receive
      exact ⟨t, stream, extend received, after, (congrArg (· ++ _) log).trans result.symm⟩
  | read position len =>
    rw [Exchange.step] at stepped
    split at stepped
    case isFalse => cases stepped
    case isTrue inside =>
      cases stepped
      rw [inside.1] at holds
      obtain ⟨frame, start, current, bytes⟩ := holds.read inside.2
      rw [inside.1, bytes]
      exact ⟨_, stream, extend (by rw [Frames.step, current]; rfl), holds.relog _,
        congrArg (· ++ _) log⟩
  | free =>
    rw [Exchange.step] at stepped
    split at stepped
    case isFalse => cases stepped
    case isTrue =>
      cases stepped
      exact ⟨_, _, extend rfl, holds.free, log⟩

/-- A frame that nearly fills the ring, one that passes its end, and a damaged one.  The second
    read begins behind the end. -/
def threeFrames : List Event :=
  [.arrive ⟨List.replicate 2020 7, Vector.replicate 4 9, 0x80, 0⟩, .receive, .free,
    .arrive ⟨[1, 2, 3, 4, 5, 6, 7, 8, 9, 10, 11, 12, 13, 14, 15, 16, 17, 18], Vector.replicate 4 9,
      0x80, 0⟩,
    .arrive ⟨[4, 5], Vector.replicate 4 9, 0, 0⟩, .receive, .read 10 4, .read 12 4, .free, .receive]

theorem run_refines_frames_three :
    ∃ final s, run Exchange.step (Exchange.start fun _ => 0) threeFrames = some final ∧
      run Frames.step Frames.start threeFrames = some s ∧ final.log = s.log ∧
      s.log = [.packet (some 2020), .packet (some 18), .data [11, 12, 13, 14],
        .data [14, 15, 16, 17], .packet none] := by
  obtain ⟨final, finished, log⟩ : ∃ final,
      run Exchange.step (Exchange.start fun _ => 0) threeFrames = some final ∧
        final.log = [.packet (some 2020), .packet (some 18), .data [11, 12, 13, 14],
          .data [14, 15, 16, 17], .packet none] :=
    Option.map_eq_some_iff.mp (by decide +kernel)
  obtain ⟨s, reached, same⟩ := run_refines_frames finished
  exact ⟨final, s, finished, reached, same, same.symm.trans log⟩

end HomeAutomation.Uip.Enc28J60
