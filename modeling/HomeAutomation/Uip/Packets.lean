import HomeAutomation.Uip.BlockMove

/-! # The packets of a connection

`UIPClient` keeps what it has received in up to five blocks of the pool; the array of their
handles is filled from the front, and the client reads and frees the first.  Here are the
functions on this array, and what they do to the bytes that wait in it.  A packet comes from the
receive buffer: only one that does not reach behind the end of the ring is copied as it is.
-/

namespace HomeAutomation.Uip

open HomeAutomation.Lib.Memory MemoryPool Enc28J60

/-- `UIP_SOCKET_NUMPACKETS` -/
def socketNumPackets : Nat := 5

/-- The Ethernet, IP and TCP headers: `uip_hdrlen`, and where `uip_appdata` stands. -/
def hdrLen : Nat := 54

/-! ## The functions -/

/-- The chip stores bytes in the receive buffer. -/
def MemoryPool.arrive (p : MemoryPool) (address : UInt16) (bytes : List UInt8) : MemoryPool :=
  { p with memory := store (· % rxSize) p.memory address.toNat bytes }

/-- `copyPacket` of `len` bytes of the packet in the receive buffer, from `address` on. -/
def MemoryPool.fill (p : MemoryPool) (handle : Nat) (address : UInt16) (len : Nat) :
    Option MemoryPool := do
  let memory ← Network.moveCallback p.memory (UInt16.ofNat (p.blocks handle).begin)
    (wrapped address) (UInt16.ofNat len)
  return { p with memory }

structure Stored where
  pool : MemoryPool
  packets : List Nat
  /-- There was a place for the packet. -/
  stored : Bool
  /-- `uip_stop` has been called. -/
  stop : Bool

/-- The loop of `uipclient_appcall` over `packets_in`. -/
def storePacket (p : MemoryPool) (address : UInt16) (len : Nat) :
    (packets : List Nat) → Option Stored
  | [] => some ⟨p, [], false, true⟩
  | handle :: rest =>
    if handle = noBlock then do
      let (handle, p) ← p.allocBlock len
      if handle ≠ noBlock then
        let p ← p.fill handle address len
        return ⟨p, handle :: rest, true, rest.isEmpty⟩
      else
        let result ← storePacket p address len rest
        return { result with packets := noBlock :: result.packets }
    else do
      let result ← storePacket p address len rest
      return { result with packets := handle :: result.packets }

/-- `_eatBlock` -/
def eatBlock (p : MemoryPool) (packets : List Nat) : Option (MemoryPool × List Nat) := do
  let p ← p.freeBlock (packets.headD noBlock)
  return (p, packets.tail ++ [noBlock])

/-- `_available` -/
def available (p : MemoryPool) (packets : List Nat) : Nat := (packets.map p.blockSize).sum

structure ReadResult where
  pool : MemoryPool
  packets : List Nat
  data : List UInt8
  /-- A block has been read to its end. -/
  ate : Bool

/-- The loop of `read`, for a first block there is. -/
def readLoop : (rounds : Nat) → MemoryPool → (packets : List Nat) → (remain : Nat) →
    Option ReadResult
  | 0, _, _, _ => none
  | rounds + 1, p, packets, remain =>
    let block := packets.headD noBlock
    let data := p.readPacket block 0 remain
    if data.length = p.blockSize block then do
      let (p, packets) ← eatBlock p packets
      if packets.headD noBlock = noBlock ∨ remain - data.length = 0 then
        return ⟨p, packets, data, true⟩
      else
        let result ← readLoop rounds p packets (remain - data.length)
        return { result with data := data ++ result.data, ate := true }
    else some ⟨p.resizeBlock block data.length, packets, data, false⟩

/-! ## The bytes that wait -/

/-- `live` are the handles in `packets`; each has a block of its own with something in it. -/
structure Queue (p : MemoryPool) (packets live : List Nat) : Prop where
  slots : packets = live ++ List.replicate (socketNumPackets - live.length) noBlock
  fits : live.length ≤ socketNumPackets
  distinct : live.Nodup
  filled : ∀ h ∈ live, contents p h ≠ []

def waiting (p : MemoryPool) (packets : List Nat) : List UInt8 := packets.flatMap (contents p)

variable {p q : MemoryPool} {packets live : List Nat}

theorem contents_noBlock (valid : Valid p) : contents p noBlock = [] := by
  obtain ⟨handles, ordered⟩ := valid
  exact contents_eq_nil ordered.empty

theorem waiting_replicate (valid : Valid p) (count : Nat) :
    waiting p (List.replicate count noBlock) = [] := by
  rw [waiting, List.flatMap_eq_nil_iff]
  intro h member
  rw [List.eq_of_mem_replicate member]
  exact contents_noBlock valid

theorem length_contents_update {entry : Nat} {bytes : List UInt8}
    (heap : contents q = Function.update (contents p) entry bytes) (h : Nat) :
    (contents q h).length = if h = entry then bytes.length else (contents p h).length := by
  rw [heap]
  by_cases here : h = entry
  · rw [if_pos here, here, Function.update_self]
  · rw [if_neg here, Function.update_of_ne here]

namespace Queue

theorem waiting_eq (queue : Queue p packets live) (valid : Valid p) :
    waiting p packets = waiting p live := by
  have rest := waiting_replicate valid (socketNumPackets - live.length)
  rw [waiting] at rest
  rw [queue.slots, waiting, waiting, List.flatMap_append, rest, List.append_nil]

theorem mem_noBlock_iff (queue : Queue p packets live) (valid : Valid p) :
    noBlock ∈ packets ↔ live.length < socketNumPackets := by
  have used : noBlock ∉ live := by
    intro member
    exact queue.filled noBlock member (contents_noBlock valid)
  rw [queue.slots, List.mem_append, or_iff_right used, List.mem_replicate]
  omega

theorem ne_noBlock (queue : Queue p packets live) (valid : Valid p) {h : Nat} (member : h ∈ live) :
    h ≠ noBlock := by
  rintro rfl
  exact queue.filled noBlock member (contents_noBlock valid)

/-- The queue does not depend on other blocks. -/
theorem congr (queue : Queue p packets live) (same : ∀ h ∈ live, contents q h = contents p h) :
    Queue q packets live where
  slots := queue.slots
  fits := queue.fits
  distinct := queue.distinct
  filled h member := by
    rw [same h member]
    exact queue.filled h member

/-- A new block behind the others. -/
theorem append (queue : Queue p packets live) {entry len : Nat} (unused : contents p entry = [])
    (free : live.length < socketNumPackets) (positive : 0 < len)
    (sizes : ∀ h, (contents q h).length = if h = entry then len else (contents p h).length) :
    Queue q (live ++ entry :: List.replicate (socketNumPackets - live.length - 1) noBlock)
      (live ++ [entry]) := by
  have fresh : entry ∉ live := fun member => queue.filled entry member unused
  refine ⟨?_, ?_, ?_, ?_⟩
  · rw [List.length_append, List.append_assoc, List.singleton_append, Nat.sub_sub]
    rfl
  · rw [List.length_append, List.length_singleton]
    exact free
  · rw [List.nodup_append]
    refine ⟨queue.distinct, List.nodup_singleton _, ?_⟩
    rintro h member other inNew rfl
    exact fresh (List.mem_singleton.mp inNew ▸ member)
  · intro h member
    have some : 0 < (contents q h).length := by
      rw [sizes]
      rcases List.mem_append.mp member with old | new
      · rw [if_neg fun same : h = entry => fresh (same ▸ old)]
        exact List.length_pos_of_ne_nil (queue.filled h old)
      · rw [if_pos (List.mem_singleton.mp new)]
        exact positive
    exact List.ne_nil_of_length_pos some

end Queue

theorem waiting_congr (same : ∀ h ∈ live, contents q h = contents p h) :
    waiting q live = waiting p live :=
  List.flatMap_congr same

/-! ## Storing -/

/-- The payload of a packet is in the receive buffer, from `address` on. -/
structure Arrived (p : MemoryPool) (address : UInt16) (payload : List UInt8) : Prop where
  stands : load (· % rxSize) p.memory address.toNat payload.length = payload
  small : address.toNat < 4095
  short : payload.length < rxSize

theorem arrived_nothing (p : MemoryPool) : Arrived p 0 [] := ⟨rfl, by decide, by decide⟩

theorem arrived_arrive (p : MemoryPool) {address : UInt16} {payload : List UInt8}
    (small : address.toNat < 4095) (short : payload.length < rxSize) :
    Arrived (p.arrive address payload) address payload := by
  refine ⟨load_store p.memory address.toNat payload fun i j before inside => ?_, small, short⟩
  have near : j < i + rxSize := by omega
  exact mod_ne before near

/-- Other memory does not matter as long as nothing is moved in the receive buffer. -/
theorem Arrived.congr {address : UInt16} {payload : List UInt8} (arrived : Arrived p address payload)
    (below : SameBelow p q) : Arrived q address payload := by
  refine ⟨?_, arrived.small, arrived.short⟩
  conv_rhs => rw [← arrived.stands]
  refine load_congr fun i _ => below _ ?_
  exact Nat.lt_trans (Nat.mod_lt _ (by decide)) (show rxSize < memPoolStartAddress by decide)

/-- The receive buffer is no part of a block. -/
theorem contents_arrive {handles : List Nat} (ordered : Ordered p handles) (address : UInt16)
    (bytes : List UInt8) : contents (p.arrive address bytes) = contents p := by
  funext h
  by_cases block : h ∈ handles
  case neg =>
    have unused : (p.blocks h).size = 0 := not_not.mp (mt (ordered.used h).mp block)
    rw [contents_eq_nil unused]
    exact contents_eq_nil unused
  case pos =>
    refine contents_congr rfl rfl fun a from_begin _ => store_other fun i _ => ?_
    have start := ordered.start_le_begin (List.mem_cons_of_mem _ block)
    have ring : (address.toNat + i) % rxSize < rxSize := Nat.mod_lt _ (by decide)
    have below : rxSize < memPoolStartAddress := by decide
    omega

theorem MemoryPool.Valid.arrive (valid : Valid p) (address : UInt16) (bytes : List UInt8) :
    Valid (p.arrive address bytes) ∧ contents (p.arrive address bytes) = contents p := by
  obtain ⟨handles, ordered⟩ := valid
  exact ⟨⟨handles, ordered.with_memory _⟩, contents_arrive ordered address bytes⟩

theorem storePacket_live {address : UInt16} {len : Nat} (used : ∀ h ∈ live, h ≠ noBlock)
    (rest : List Nat) :
    storePacket p address len (live ++ rest) =
      (storePacket p address len rest).map fun r => { r with packets := live ++ r.packets } := by
  induction live with
  | nil =>
    rw [List.nil_append]
    exact Option.map_id'.symm
  | cons h live inductionHypothesis =>
    rw [List.cons_append, storePacket, if_neg (used h List.mem_cons_self),
      inductionHypothesis fun h member => used h (List.mem_cons_of_mem _ member)]
    cases storePacket p address len rest <;> rfl

/-- All blocks have the sizes they should have; and if the payload does not reach behind the end
    of the ring, it is the content of its block, and nothing else has changed. -/
structure Copied (p : MemoryPool) (address : UInt16) (payload : List UInt8) (entry : Nat)
    (q : MemoryPool) : Prop where
  sizes : ∀ h, (contents q h).length =
    if h = entry then payload.length else (contents p h).length
  exact : address.toNat + payload.length ≤ rxSize →
    contents q = Function.update (contents p) entry payload

theorem fill_spec {handles : List Nat} (ordered : Ordered p handles) {entry : Nat}
    {address : UInt16} {payload : List UInt8} (arrived : Arrived p address payload)
    (notEmpty : payload ≠ []) (length : (contents p entry).length = payload.length) :
    ∃ q, p.fill entry address payload.length = some q ∧ Ordered q handles ∧
      Copied p address payload entry q := by
  have size : (p.blocks entry).size = payload.length := by rw [← length_contents, length]
  have positive := List.length_pos_of_ne_nil notEmpty
  have block : entry ∈ handles := (ordered.used entry).mp (by omega)
  obtain ⟨behindBuffer, inBlock⟩ := ordered.place block
  have ring : rxSize = 2048 := rfl
  have ram : ramSize = 8192 := rfl
  have short := arrived.short
  rw [size] at inBlock
  -- the registers of the chip are wide enough
  have dest : (UInt16.ofNat (p.blocks entry).begin).toNat = (p.blocks entry).begin :=
    UInt16.toNat_ofNat_of_lt' (show (p.blocks entry).begin < 2 ^ 16 by omega)
  have len : (UInt16.ofNat payload.length).toNat = payload.length :=
    UInt16.toNat_ofNat_of_lt' (show payload.length < 2 ^ 16 by omega)
  have inside : (UInt16.ofNat (p.blocks entry).begin).toNat +
      (UInt16.ofNat payload.length).toNat ≤ ramSize := by rwa [dest, len]
  have moved := @Network.moveCallback_ring p.memory _ _ _ (len.symm ▸ positive) arrived.small
    (len.symm ▸ short) (dest.symm ▸ behindBuffer) inside
  rw [MemoryPool.fill, moved]
  -- a byte too many may change another block, but not its size
  refine ⟨_, rfl, ordered.with_memory _, fun h => ?_, fun within => ?_⟩
  · rw [length_contents]
    split
    case isTrue here =>
      rw [here]
      exact size
    case isFalse => rw [length_contents]
  · have exact := @Network.moveCallback_inside p.memory address _ _ (len.symm ▸ positive)
      (len.symm ▸ short) (by rwa [len]) (dest.symm ▸ behindBuffer) inside
    have whole : overwrite (contents p entry) 0 payload = payload := by
      rw [overwrite, List.take_zero, List.nil_append, Nat.zero_add, ← length, List.drop_length,
        List.append_nil]
    have stored := @Ordered.store_spec p handles entry 0 ordered payload block (by omega)
    rw [whole, Nat.add_zero] at stored
    rw [Option.some.inj (moved.symm.trans exact), len, dest, arrived.stands]
    exact stored

theorem storePacket_allocated {handles : List Nat} (ordered : Ordered p handles)
    {address : UInt16} {payload : List UInt8} (arrived : Arrived p address payload)
    (notEmpty : payload ≠ []) {entry : Nat}
    (result : p.allocBlock payload.length = some (entry, q))
    (allocated : Allocated p handles payload.length entry q) (rest : List Nat) :
    ∃ r, storePacket p address payload.length (noBlock :: rest) =
        some ⟨r, entry :: rest, true, rest.isEmpty⟩ ∧
      Valid r ∧ entry ≠ noBlock ∧ contents p entry = [] ∧ Copied p address payload entry r ∧
      Heap.Room (contents p) payload.length := by
  obtain ⟨inserted, orderedQ⟩ := allocated.ordered
  have notNone : entry ≠ noBlock := Nat.ne_of_gt allocated.from_one
  obtain ⟨r, filled, stays, copied⟩ :=
    fill_spec orderedQ (arrived.congr allocated.below) notEmpty allocated.length
  refine ⟨r, ?_, ⟨inserted, stays⟩, notNone, allocated.unused, ⟨fun h => ?_, fun within => ?_⟩,
    allocated.room_contents ordered⟩
  · rw [storePacket, if_pos rfl, result]
    simp [notNone, filled]
  · rw [copied.sizes]
    split
    case isTrue => rfl
    case isFalse other => rw [allocated.kept h other]
  · rw [copied.exact within]
    funext h
    by_cases here : h = entry
    · rw [here, Function.update_self, Function.update_self]
    · rw [Function.update_of_ne here, Function.update_of_ne here, allocated.kept h here]

/-- Among free places a packet is stored in the first, unless the pool has no block for it. -/
theorem storePacket_free (valid : Valid p) {address : UInt16} {payload : List UInt8}
    (arrived : Arrived p address payload) (notEmpty : payload ≠ []) (count : Nat) :
    (∃ entry r, storePacket p address payload.length (List.replicate count noBlock) =
        some ⟨r, entry :: List.replicate (count - 1) noBlock, true,
          (List.replicate (count - 1) noBlock).isEmpty⟩ ∧ 0 < count ∧
      Valid r ∧ entry ≠ noBlock ∧ contents p entry = [] ∧ Copied p address payload entry r ∧
      Heap.Room (contents p) payload.length) ∨
    (∃ r, storePacket p address payload.length (List.replicate count noBlock) =
        some ⟨r, List.replicate count noBlock, false, true⟩ ∧ Valid r ∧ contents r = contents p ∧
      (count = 0 ∨ ¬ Heap.Room (contents p) payload.length)) := by
  induction count generalizing p with
  | zero => exact Or.inr ⟨p, rfl, valid, rfl, Or.inl rfl⟩
  | succ count inductionHypothesis =>
    obtain ⟨handles, ordered⟩ := valid
    rcases ordered.allocBlock_spec (List.length_pos_of_ne_nil notEmpty) with
      ⟨q, result, refused⟩ | ⟨entry, q, result, allocated⟩
    · -- the next attempts fail for the same reason
      have full := refused.not_room ordered
      rcases inductionHypothesis ⟨handles, refused.ordered⟩ (arrived.congr refused.below) with
        ⟨entry, r, stored, positive, _, _, _, _, room⟩ | ⟨r, stored, valid, kept, _⟩
      · rw [refused.kept] at room
        exact absurd room full
      · refine Or.inr ⟨r, ?_, valid, kept.trans refused.kept, Or.inr full⟩
        rw [List.replicate_succ, storePacket, if_pos rfl, result]
        simp [stored]
    · obtain ⟨r, stored, spec⟩ := storePacket_allocated ordered arrived notEmpty result allocated
        (List.replicate count noBlock)
      exact Or.inl ⟨entry, r, stored, Nat.succ_pos _, spec⟩

theorem waiting_append (first second : List Nat) :
    waiting p (first ++ second) = waiting p first ++ waiting p second := List.flatMap_append

/-- A payload that has been stored did not reach behind the end of the ring. -/
def Intact (address : UInt16) (payload : List UInt8) (stored : Bool) : Prop :=
  stored = true → payload ≠ [] → address.toNat + payload.length ≤ rxSize

theorem intact_nothing (stored : Bool) : Intact 0 [] stored := fun _ some => absurd rfl some

/-- A packet is put behind the others, unless all places are taken or the pool has no block
    for it; then it is not stored anywhere. -/
theorem storePacket_spec (valid : Valid p) (queue : Queue p packets live) {address : UInt16}
    {payload : List UInt8} (arrived : Arrived p address payload) (notEmpty : payload ≠ []) :
    ∃ r live', storePacket p address payload.length packets = some r ∧ Valid r.pool ∧
      Queue r.pool r.packets live' ∧
      (Intact address payload r.stored →
        waiting r.pool r.packets = waiting p packets ++ (if r.stored then payload else [])) ∧
      (r.stored = true → (r.stop = true ↔ live'.length = socketNumPackets)) ∧
      (r.stored = false → live' = live ∧ r.stop = true ∧
        (live.length = socketNumPackets ∨ ¬ Heap.Room (contents p) payload.length)) := by
  have used := fun h (member : h ∈ live) => queue.ne_noBlock valid member
  have places : storePacket p address payload.length
        (live ++ List.replicate (socketNumPackets - live.length) noBlock) = _ :=
    storePacket_live used (List.replicate (socketNumPackets - live.length) noBlock)
  rw [← queue.slots] at places
  rw [places]
  have fits := queue.fits
  rcases storePacket_free valid arrived notEmpty (socketNumPackets - live.length) with
    ⟨entry, r, stored, free, validR, notNone, unused, copied, _⟩ | ⟨r, stored, validR, kept, reason⟩
  · -- the new block was empty, so it is none of the others
    have fresh : entry ∉ live := fun member => queue.filled entry member unused
    have queueR := queue.append unused (Nat.lt_of_sub_pos free)
      (List.length_pos_of_ne_nil notEmpty) copied.sizes
    refine ⟨_, live ++ [entry], by rw [stored]; rfl, validR, queueR, fun intact => ?_, ?_, ?_⟩
    · have heap := copied.exact (intact rfl notEmpty)
      have same : ∀ h ∈ live, contents r h = contents p h := by
        intro h member
        rw [heap, Function.update_of_ne]
        rintro rfl
        exact fresh member
      have block : waiting r [entry] = payload := by
        rw [waiting, List.flatMap_singleton, heap, Function.update_self]
      rw [queueR.waiting_eq validR, waiting_append, block, waiting_congr same,
        queue.waiting_eq valid, if_pos rfl]
    · intro _
      show (List.replicate (socketNumPackets - live.length - 1) noBlock).isEmpty = true ↔ _
      rw [List.isEmpty_replicate, decide_eq_true_iff, List.length_append, List.length_singleton]
      omega
    · intro notStored
      cases notStored
  · -- refused: the pool may have been compacted, but its contents are the same
    have queueR : Queue r (live ++ List.replicate (socketNumPackets - live.length) noBlock) live := by
      rw [← queue.slots]
      exact queue.congr fun h _ => by rw [kept]
    refine ⟨_, live, by rw [stored]; rfl, validR, queueR, fun _ => ?_, ?_,
      fun _ => ⟨rfl, rfl, ?_⟩⟩
    · rw [queueR.waiting_eq validR, queue.waiting_eq valid, waiting, waiting, kept]
      exact (List.append_nil _).symm
    · intro notRefused
      cases notRefused
    · rcases reason with none | full
      · exact Or.inl (by omega)
      · exact Or.inr full

/-! ## Reading -/

theorem eatBlock_spec (valid : Valid p) {h : Nat} (queue : Queue p packets (h :: live)) :
    ∃ q rest, eatBlock p packets = some (q, rest) ∧ Valid q ∧ Queue q rest live ∧
      waiting p packets = contents p h ++ waiting q rest ∧
      (rest.headD noBlock = noBlock ↔ live = []) ∧
      (∀ other ∈ live, contents q other = contents p other) ∧
      ∀ other, (contents q other).length ≤ (contents p other).length := by
  have first : packets.headD noBlock = h := by
    rw [queue.slots]
    rfl
  obtain ⟨handles, ordered⟩ := valid
  obtain ⟨q, freed, spec⟩ := ordered.freeBlock_spec h
  have distinct := List.nodup_cons.mp queue.distinct
  have same : ∀ other ∈ live, contents q other = contents p other := by
    intro other member
    apply spec.kept
    rintro rfl
    exact distinct.1 member
  have slots : packets.tail ++ [noBlock] =
      live ++ List.replicate (socketNumPackets - live.length) noBlock := by
    have fits := queue.fits
    rw [List.length_cons] at fits
    rw [queue.slots, List.cons_append, List.tail_cons, List.append_assoc,
      ← List.replicate_succ', List.length_cons]
    congr 2
    omega
  have queueQ : Queue q (packets.tail ++ [noBlock]) live := by
    refine ⟨slots, ?_, distinct.2, fun other member => ?_⟩
    · have fits := queue.fits
      rw [List.length_cons] at fits
      omega
    · rw [same other member]
      exact queue.filled other (List.mem_cons_of_mem _ member)
  have valid : Valid p := ⟨handles, ordered⟩
  refine ⟨q, packets.tail ++ [noBlock], ?_, spec.ordered, queueQ, ?_, ?_, same, fun other => ?_⟩
  · rw [eatBlock, first, freed]
    rfl
  · rw [queue.waiting_eq valid, queueQ.waiting_eq spec.ordered, waiting_congr same]
    rfl
  · rw [slots]
    cases live with
    | nil => exact iff_of_true rfl rfl
    | cons other live =>
      have notNone := queue.ne_noBlock valid (List.mem_cons_of_mem h List.mem_cons_self)
      exact iff_of_false notNone (List.cons_ne_nil _ _)
  · by_cases here : other = h
    · rw [here, spec.freed]
      exact Nat.zero_le _
    · rw [spec.kept other here]

/-- Reading takes what is asked for from the front, as far as there is something. -/
theorem readLoop_spec {rounds remain : Nat} (valid : Valid p) (queue : Queue p packets live)
    (notEmpty : live ≠ []) (enough : live.length ≤ rounds) :
    ∃ r live', readLoop rounds p packets remain = some r ∧ Valid r.pool ∧
      Queue r.pool r.packets live' ∧ r.data = (waiting p packets).take remain ∧
      waiting r.pool r.packets = (waiting p packets).drop remain ∧
      (if r.ate then live'.length < live.length else live' = live) := by
  induction live generalizing p packets rounds remain with
  | nil => exact absurd rfl notEmpty
  | cons h live inductionHypothesis =>
    obtain ⟨rounds, rfl⟩ : ∃ more, rounds = more + 1 := ⟨rounds - 1, by
      rw [List.length_cons] at enough
      omega⟩
    have first : packets.headD noBlock = h := by
      rw [queue.slots]
      rfl
    have data : p.readPacket h 0 remain = (contents p h).take remain := by
      rw [readPacket_spec (Nat.zero_le _), List.drop_zero]
    have size : p.blockSize h = (contents p h).length := by
      obtain ⟨handles, ordered⟩ := valid
      exact ordered.blockSize_eq h
    rw [readLoop]
    simp only [first, data, size, List.length_take]
    by_cases whole : (contents p h).length ≤ remain
    case pos =>
      -- the first block is read to its end, and freed
      obtain ⟨q, rest, ate, validQ, queueQ, split, none, _⟩ := eatBlock_spec valid queue
      rw [if_pos (Nat.min_eq_right whole), ate, Nat.min_eq_right whole,
        List.take_of_length_le whole]
      by_cases last : rest.headD noBlock = noBlock ∨ remain - (contents p h).length = 0
      case pos =>
        refine ⟨⟨q, rest, contents p h, true⟩, live, if_pos last, validQ, queueQ, ?_, ?_,
          Nat.lt_succ_self _⟩
        all_goals rw [split]
        · rcases last with empty | exact
          · rw [none] at empty
            have nothing : waiting q rest = [] := by rw [queueQ.waiting_eq validQ, empty]; rfl
            rw [nothing, List.append_nil, List.take_of_length_le whole]
          · rw [List.take_left' (by omega)]
        · rcases last with empty | exact
          · rw [none] at empty
            have nothing : waiting q rest = [] := by rw [queueQ.waiting_eq validQ, empty]; rfl
            rw [nothing, List.append_nil, List.drop_of_length_le whole]
          · rw [List.drop_left' (by omega)]
      case neg =>
        have more : live ≠ [] := fun empty => last (Or.inl (none.mpr empty))
        have again := @inductionHypothesis q rest rounds (remain - (contents p h).length) validQ
          queueQ more (Nat.le_of_succ_le_succ enough)
        obtain ⟨r, live', looped, validR, queueR, data, left, shorter⟩ := again
        refine ⟨{ r with data := contents p h ++ r.data, ate := true }, live', ?_, validR, queueR,
          ?_, ?_, ?_⟩
        · simp only [Option.bind_eq_bind, Option.bind_some, if_neg last, looped]
          rfl
        · rw [split, List.take_append, List.take_of_length_le whole, data]
        · rw [split, List.drop_append, List.drop_of_length_le whole, List.nil_append, left]
        · rw [List.length_cons, if_pos rfl]
          split at shorter
          · omega
          · rw [shorter]
            exact Nat.lt_succ_self _
    case neg =>
      -- only a part of it is wanted: the block begins further behind
      have part : remain < (contents p h).length := Nat.lt_of_not_le whole
      rw [Nat.min_eq_left part.le, if_neg part.ne]
      obtain ⟨handles, ordered⟩ := valid
      obtain ⟨stays, heap⟩ := ordered.resizeBlock_spec (by rwa [length_contents] at part)
      have distinct := List.nodup_cons.mp queue.distinct
      have same : ∀ other ∈ live, contents (p.resizeBlock h remain) other = contents p other := by
        intro other member
        rw [heap, Function.update_of_ne]
        rintro rfl
        exact distinct.1 member
      have here : contents (p.resizeBlock h remain) h = (contents p h).drop remain := by
        rw [heap, Function.update_self]
      have queueQ : Queue (p.resizeBlock h remain) packets (h :: live) := by
        refine ⟨queue.slots, queue.fits, queue.distinct, fun other member => ?_⟩
        rcases List.mem_cons.mp member with rfl | behind
        · rw [here, ne_eq, List.drop_eq_nil_iff]
          omega
        · rw [same other behind]
          exact queue.filled other member
      have before : waiting p packets = contents p h ++ waiting p live :=
        queue.waiting_eq ⟨handles, ordered⟩
      have after : waiting (p.resizeBlock h remain) packets =
          (contents p h).drop remain ++ waiting p live := by
        rw [queueQ.waiting_eq ⟨handles, stays⟩, ← waiting_congr same, ← here]
        rfl
      refine ⟨_, h :: live, rfl, ⟨handles, stays⟩, queueQ, ?_, ?_, rfl⟩
      · rw [before, List.take_append_of_le_length part.le]
      · rw [after, before, List.drop_append_of_le_length part.le]

end HomeAutomation.Uip
