import HomeAutomation.Uip.Outbound

/-! # What is still to be sent

The packets of a sender hold the bytes that are written and not confirmed; the last packet
may not be full.  Writing puts bytes behind them, sending leaves them as they are, and an
acknowledgement takes the first packet away.
-/

namespace HomeAutomation.Uip

open HomeAutomation.Lib.Memory HomeAutomation.Lib.Transition MemoryPool

variable {p q : MemoryPool} {packets live : List Nat} {outPos : Nat}

theorem Queue.live_eq (queue : Queue p packets live) (valid : Valid p) :
    packets.takeWhile (· != noBlock) = live := by
  have used : ∀ h ∈ live, (h != noBlock) = true := by
    intro h member
    simpa using queue.ne_noBlock valid member
  rw [queue.slots, List.takeWhile_append_of_pos used]
  cases socketNumPackets - live.length with
  | zero => exact List.append_nil _
  | succ count => rw [List.replicate_succ, List.takeWhile_cons_of_neg (by simp), List.append_nil]

/-! ## The packets -/

/-- The bytes in the packets; the last is filled up to `outPos`. -/
def pendingFrom (p : MemoryPool) (outPos : Nat) : List Nat → List UInt8
  | [] => []
  | [h] => (contents p h).take outPos
  | h :: next :: rest => contents p h ++ pendingFrom p outPos (next :: rest)

theorem pendingFrom_snoc (live : List Nat) (h : Nat) :
    pendingFrom p outPos (live ++ [h]) = waiting p live ++ (contents p h).take outPos := by
  induction live with
  | nil => rfl
  | cons first live inductionHypothesis =>
    cases live with
    | nil => simp [pendingFrom, waiting]
    | cons second live =>
      rw [List.cons_append, List.cons_append, pendingFrom, ← List.cons_append, inductionHypothesis,
        ← List.append_assoc]
      rfl

/-- The last packet is full. -/
def Full (p : MemoryPool) (outPos : Nat) (live : List Nat) : Prop :=
  ∀ h ∈ live.getLast?, outPos = (contents p h).length

theorem pendingFrom_full (full : Full p outPos live) : pendingFrom p outPos live = waiting p live := by
  rcases List.eq_nil_or_concat live with rfl | ⟨init, h, rfl⟩
  · rfl
  · rw [List.concat_eq_append] at full ⊢
    have length := full h (by simp)
    rw [pendingFrom_snoc, length, List.take_length, waiting_append]
    simp [waiting]

theorem pendingFrom_congr (same : ∀ h ∈ live, contents q h = contents p h) :
    pendingFrom q outPos live = pendingFrom p outPos live := by
  rcases List.eq_nil_or_concat live with rfl | ⟨init, h, rfl⟩
  · rfl
  · rw [List.concat_eq_append] at same ⊢
    rw [pendingFrom_snoc, pendingFrom_snoc, same h (by simp),
      waiting_congr fun h member => same h (List.mem_append_left _ member)]

namespace Sender

/-- The handles in `packets_out`. -/
def queued (s : Sender) : List Nat := s.packetsOut.takeWhile (· != noBlock)

/-- The bytes that are written and not confirmed. -/
def pending (s : Sender) : List UInt8 := pendingFrom s.pool s.outPos s.queued

/-- The packets are in blocks of their own; what is outstanding is the first as a whole. -/
structure Sound (s : Sender) : Prop where
  valid : Valid s.pool
  queue : Queue s.pool s.packetsOut s.queued
  sizes : ∀ h ∈ s.queued, (contents s.pool h).length ≤ socketDataLen
  position : ∀ h ∈ s.queued.getLast?, s.outPos ≤ (contents s.pool h).length
  sent : s.outstanding ≠ 0 → ∃ h rest, s.queued = h :: rest ∧
    (contents s.pool h).length = s.outstanding ∧ (rest = [] → s.outPos = s.outstanding)

variable {s : Sender}

/-! ## Writing -/

theorem set_packets (queue : Queue p packets live) (free : live.length < socketNumPackets)
    (entry : Nat) :
    packets.set live.length entry =
      live ++ entry :: List.replicate (socketNumPackets - live.length - 1) noBlock := by
  obtain ⟨more, places⟩ : ∃ more, socketNumPackets - live.length = more + 1 :=
    ⟨socketNumPackets - live.length - 1, by omega⟩
  rw [queue.slots, List.set_append_right _ _ (Nat.le_refl _), Nat.sub_self, places,
    List.replicate_succ, List.set_cons_zero, Nat.add_sub_cancel]

/-- A new packet behind the others, which are full. -/
theorem Sound.append (sound : s.Sound) (full : Full s.pool s.outPos s.queued)
    (free : s.queued.length < socketNumPackets) {entry outPos : Nat} {r : MemoryPool}
    {bytes : List UInt8} (unused : contents s.pool entry = []) (validR : Valid r)
    (notEmpty : bytes ≠ []) (size : bytes.length ≤ socketDataLen) (inside : outPos ≤ bytes.length)
    (heap : contents r = Function.update (contents s.pool) entry bytes) :
    let t : Sender := { s with pool := r, packetsOut := s.packetsOut.set s.queued.length entry, outPos }
    t.Sound ∧ t.queued = s.queued ++ [entry] ∧ t.pending = s.pending ++ bytes.take outPos := by
  intro t
  have queueR : Queue r t.packetsOut (s.queued ++ [entry]) := by
    show Queue r (s.packetsOut.set s.queued.length entry) _
    rw [set_packets sound.queue free]
    exact sound.queue.append unused free (List.length_pos_of_ne_nil notEmpty)
      (length_contents_update heap)
  have queued : t.queued = s.queued ++ [entry] := queueR.live_eq validR
  have fresh : entry ∉ s.queued := fun member => sound.queue.filled entry member unused
  have same : ∀ h ∈ s.queued, contents r h = contents s.pool h := by
    intro h member
    rw [heap, Function.update_of_ne]
    rintro rfl
    exact fresh member
  have here : contents r entry = bytes := by rw [heap, Function.update_self]
  refine ⟨⟨validR, queued ▸ queueR, ?_, ?_, ?_⟩, queued, ?_⟩
  · intro h member
    rw [queued] at member
    rcases List.mem_append.mp member with old | new
    · exact (congrArg List.length (same h old)).le.trans (sound.sizes h old)
    · rw [List.mem_singleton.mp new]
      exact (congrArg List.length here).le.trans size
  · intro h last
    rw [queued, List.getLast?_concat, Option.mem_some_iff] at last
    rw [← last]
    exact inside.trans (congrArg List.length here).ge
  · intro outstanding
    obtain ⟨h, rest, first, length, _⟩ := sound.sent outstanding
    refine ⟨h, rest ++ [entry], ?_, ?_, fun none => ?_⟩
    · rw [queued, first, List.cons_append]
    · rw [← length]
      exact congrArg List.length (same h (first ▸ List.mem_cons_self))
    · exact absurd none (List.append_ne_nil_of_right_ne_nil _ (List.cons_ne_nil _ _))
  · show pendingFrom r outPos t.queued = _
    rw [queued, pendingFrom_snoc, waiting_congr same, here, pending, pendingFrom_full full]

/-- Other blocks may change, and all may be moved. -/
theorem Sound.congr (sound : s.Sound) {r : MemoryPool} (validR : Valid r)
    (same : ∀ h ∈ s.queued, contents r h = contents s.pool h) :
    let t : Sender := { s with pool := r }
    t.Sound ∧ t.pending = s.pending := by
  refine ⟨⟨validR, sound.queue.congr same, ?_, ?_, ?_⟩, pendingFrom_congr same⟩
  · intro h member
    exact (congrArg List.length (same h member)).le.trans (sound.sizes h member)
  · intro h last
    exact (sound.position h last).trans
      (congrArg List.length (same h (List.mem_of_mem_getLast? last))).ge
  · intro outstanding
    obtain ⟨h, rest, first, length, position⟩ := sound.sent outstanding
    have member : h ∈ s.queued := first ▸ List.mem_cons_self
    exact ⟨h, rest, first, (congrArg List.length (same h member)).trans length, position⟩

/-- New packets for as much as there are places and blocks for. -/
theorem newPacket_spec {places : Nat} (sound : s.Sound) (full : Full s.pool s.outPos s.queued)
    (here : s.queued.length + places = socketNumPackets) (buffer : List UInt8) :
    ∃ t left taken, newPacket places s.queued.length s buffer = some (t, left) ∧ t.Sound ∧
      buffer = taken ++ left ∧ t.pending = s.pending ++ taken ∧ t.sndNxt = s.sndNxt ∧
      t.outstanding = s.outstanding := by
  induction places generalizing s buffer with
  | zero => exact ⟨s, buffer, [], rfl, sound, rfl, (List.append_nil _).symm, rfl, rfl⟩
  | succ places inductionHypothesis =>
    obtain ⟨handles, ordered⟩ := sound.valid
    have free : s.queued.length < socketNumPackets := by omega
    rcases ordered.allocBlock_spec (show 0 < socketDataLen by decide) with
      ⟨r, result, refused⟩ | ⟨entry, r, result, allocated⟩
    · -- the place stays empty
      have stays : s.packetsOut.set s.queued.length noBlock = s.packetsOut := by
        rw [set_packets sound.queue free, ← List.replicate_succ,
          show socketNumPackets - s.queued.length - 1 + 1 = socketNumPackets - s.queued.length by
            omega]
        exact sound.queue.slots.symm
      obtain ⟨soundR, pending⟩ :=
        sound.congr ⟨handles, refused.ordered⟩ fun h _ => by rw [refused.kept]
      refine ⟨{ s with pool := r }, buffer, [], ?_, soundR, rfl, ?_, rfl, rfl⟩
      · rw [newPacket, result]
        simp only [Option.bind_eq_bind, Option.bind_some, stays, if_true]
        rfl
      · rw [pending, List.append_nil]
    · obtain ⟨inserted, orderedR⟩ := allocated.ordered
      have notNone : entry ≠ noBlock := Nat.ne_of_gt allocated.from_one
      have block : entry ∈ inserted := by
        refine (orderedR.used entry).mp ?_
        rw [← length_contents, allocated.length]
        decide
      obtain ⟨count, orderedW, heapW⟩ :=
        @Ordered.writePacket_spec r inserted entry 0 orderedR buffer block (Nat.zero_le _)
      rw [allocated.length, Nat.sub_zero] at count heapW
      -- the first bytes of the block are those of the buffer
      have cells : (buffer.take socketDataLen).length = min buffer.length socketDataLen := by
        rw [List.length_take, Nat.min_comm]
      have length : (overwrite (contents r entry) 0 (buffer.take socketDataLen)).length =
          socketDataLen := by
        rw [length_overwrite (by rw [cells, allocated.length]; omega), allocated.length]
      have filled : (overwrite (contents r entry) 0 (buffer.take socketDataLen)).take
          (min buffer.length socketDataLen) = buffer.take (min buffer.length socketDataLen) := by
        have taken := @take_overwrite _ (contents r entry) (buffer.take socketDataLen) 0
          (Nat.zero_le _)
        rw [cells, Nat.zero_add, List.take_zero, List.nil_append] at taken
        rw [taken, Nat.min_comm, List.take_eq_take_min]
      have heap : contents (r.writePacket entry 0 buffer).2 = Function.update (contents s.pool) entry
          (overwrite (contents r entry) 0 (buffer.take socketDataLen)) := by
        rw [heapW]
        funext h
        by_cases same : h = entry
        · rw [same, Function.update_self, Function.update_self]
        · rw [Function.update_of_ne same, Function.update_of_ne same, allocated.kept h same]
      have notEmpty : overwrite (contents r entry) 0 (buffer.take socketDataLen) ≠ [] := by
        intro empty
        rw [empty] at length
        cases length
      obtain ⟨soundT, queued, pending⟩ := sound.append full free allocated.unused
        ⟨inserted, orderedW⟩ notEmpty length.le
        ((Nat.min_le_right buffer.length socketDataLen).trans length.ge) heap
      rw [filled] at pending
      by_cases more : min buffer.length socketDataLen < buffer.length
      case pos =>
        have fullT : Full (r.writePacket entry 0 buffer).2 (min buffer.length socketDataLen)
            (s.queued ++ [entry]) := by
          intro h last
          rw [List.getLast?_concat, Option.mem_some_iff] at last
          rw [← last, heap, Function.update_self, length]
          omega
        rw [← queued] at fullT
        have count' : s.queued.length + 1 + places = socketNumPackets := by omega
        have next : (s.queued ++ [entry]).length = s.queued.length + 1 := List.length_append
        obtain ⟨u, left, taken, rest, soundU, split, pendingU, sndNxt, outstanding⟩ :=
          inductionHypothesis soundT fullT (by rw [queued, next]; exact count')
            (buffer.drop (min buffer.length socketDataLen))
        rw [queued, next] at rest
        refine ⟨u, left, buffer.take (min buffer.length socketDataLen) ++ taken, ?_, soundU, ?_, ?_,
          sndNxt, outstanding⟩
        · rw [newPacket, result]
          simp only [Option.bind_eq_bind, Option.bind_some, if_neg notNone, count, if_pos more]
          exact rest
        · rw [List.append_assoc, ← split, List.take_append_drop]
        · rw [pendingU, pending, List.append_assoc]
      case neg =>
        have all : buffer.length ≤ min buffer.length socketDataLen := Nat.le_of_not_lt more
        rw [List.take_of_length_le all] at pending
        refine ⟨_, [], buffer, ?_, soundT, (List.append_nil _).symm, pending, rfl, rfl⟩
        rw [newPacket, result]
        simp only [Option.bind_eq_bind, Option.bind_some, if_neg notNone, count, if_neg more]
        rfl

theorem findIdx_used (used : ∀ h ∈ live, h ≠ noBlock) (count : Nat) :
    (live ++ List.replicate count noBlock).findIdx (· == noBlock) = live.length := by
  induction live with
  | nil =>
    cases count with
    | zero => rfl
    | succ count => rw [List.nil_append, List.replicate_succ, List.findIdx_cons]; rfl
  | cons h live inductionHypothesis =>
    have notNone : (h == noBlock) = false := beq_eq_false_iff_ne.mpr (used h List.mem_cons_self)
    rw [List.cons_append, List.findIdx_cons, notNone,
      inductionHypothesis fun h member => used h (List.mem_cons_of_mem _ member)]
    rfl

theorem currentBlock_eq (queue : Queue p packets live) (valid : Valid p) :
    currentBlock packets = live.length - 1 := by
  have used : ∀ h ∈ live, h ≠ noBlock := fun h member => queue.ne_noBlock valid member
  rw [currentBlock, queue.slots]
  cases live with
  | nil => exact findIdx_used (fun h member => absurd member List.not_mem_nil) 4
  | cons h live =>
    rw [List.cons_append, List.tail_cons, findIdx_used fun h member =>
      used h (List.mem_cons_of_mem _ member)]
    rfl

/-- Bytes are put behind those in the last packet, as far as there is space. -/
theorem Sound.fill (sound : s.Sound) {init : List Nat} {h : Nat} (split : s.queued = init ++ [h])
    (buffer : List UInt8) :
    ∃ written, (s.pool.writePacket h s.outPos buffer).1 = written ∧
      let t : Sender := { s with
        pool := (s.pool.writePacket h s.outPos buffer).2
        outPos := s.outPos + written }
      t.Sound ∧ t.queued = s.queued ∧ t.pending = s.pending ++ buffer.take written ∧
        written ≤ buffer.length ∧ (written < buffer.length → Full t.pool t.outPos t.queued) := by
  obtain ⟨handles, ordered⟩ := sound.valid
  have last : h ∈ s.queued.getLast? := by rw [split, List.getLast?_concat]; rfl
  have member : h ∈ s.queued := List.mem_of_mem_getLast? last
  have position := sound.position h last
  have filled := sound.queue.filled h member
  have block : h ∈ handles := by
    refine (ordered.used h).mp ?_
    rw [← length_contents]
    exact List.length_pos_of_ne_nil filled |>.ne'
  obtain ⟨count, orderedW, heap⟩ := @Ordered.writePacket_spec s.pool handles h s.outPos ordered
    buffer block (by rwa [length_contents] at position)
  obtain ⟨written, isWritten⟩ : ∃ written,
      written = min buffer.length ((contents s.pool h).length - s.outPos) := ⟨_, rfl⟩
  have cells : (buffer.take ((contents s.pool h).length - s.outPos)).length = written := by
    rw [List.length_take, isWritten, Nat.min_comm]
  refine ⟨written, count.trans isWritten.symm, ?_⟩
  intro t
  have length : (overwrite (contents s.pool h) s.outPos
      (buffer.take ((contents s.pool h).length - s.outPos))).length = (contents s.pool h).length :=
    length_overwrite (by rw [cells]; omega)
  have lengths : ∀ other, (contents t.pool other).length = (contents s.pool other).length := by
    intro other
    show (contents (s.pool.writePacket h s.outPos buffer).2 other).length = _
    rw [heap]
    by_cases same : other = h
    · rw [same, Function.update_self, length]
    · rw [Function.update_of_ne same]
  have queueT : Queue t.pool t.packetsOut s.queued :=
    ⟨sound.queue.slots, sound.queue.fits, sound.queue.distinct, fun other among empty =>
      sound.queue.filled other among (List.eq_nil_of_length_eq_zero
        ((lengths other).symm.trans (List.length_eq_zero_iff.mpr empty)))⟩
  refine ⟨⟨⟨handles, orderedW⟩, queueT, ?_, ?_, ?_⟩, rfl, ?_, by omega, fun more => ?_⟩
  · intro other among
    rw [lengths]
    exact sound.sizes other among
  · intro other isLast
    have same : other = h := Option.mem_unique isLast last
    rw [lengths, same]
    show s.outPos + written ≤ _
    omega
  · intro outstanding
    obtain ⟨first, rest, front, size, alone⟩ := sound.sent outstanding
    refine ⟨first, rest, front, (lengths first).trans size, fun none => ?_⟩
    -- the packet that is sent is full, so nothing has been put into it
    have same : first = h := by
      rw [none] at front
      rw [front] at last
      exact Option.mem_unique (show first ∈ [first].getLast? from rfl) last
    have full := alone none
    rw [same] at size
    show s.outPos + written = s.outstanding
    omega
  · have taken := @take_overwrite _ (contents s.pool h)
      (buffer.take ((contents s.pool h).length - s.outPos)) s.outPos position
    rw [cells] at taken
    have fresh : h ∉ init := by
      intro before
      have distinct := sound.queue.distinct
      rw [split, List.nodup_append] at distinct
      exact distinct.2.2 h before h (List.mem_singleton_self h) rfl
    have others : ∀ other ∈ init, contents t.pool other = contents s.pool other := by
      intro other before
      show contents (s.pool.writePacket h s.outPos buffer).2 other = _
      rw [heap, Function.update_of_ne]
      rintro rfl
      exact fresh before
    have here : contents t.pool h = overwrite (contents s.pool h) s.outPos
        (buffer.take ((contents s.pool h).length - s.outPos)) := by
      show contents (s.pool.writePacket h s.outPos buffer).2 h = _
      rw [heap, Function.update_self]
    have cut : buffer.take ((contents s.pool h).length - s.outPos) = buffer.take written := by
      rw [List.take_eq_take_min, isWritten, Nat.min_comm]
    show pendingFrom t.pool (s.outPos + written) s.queued = pendingFrom s.pool s.outPos s.queued ++ _
    rw [split, pendingFrom_snoc, pendingFrom_snoc, waiting_congr others, here, taken, cut,
      List.append_assoc]
  · intro other isLast
    have same : other = h := Option.mem_unique isLast last
    rw [lengths, same]
    show s.outPos + written = _
    omega

theorem writePass_spec (sound : s.Sound) (buffer : List UInt8) :
    ∃ t left taken, s.writePass buffer = some (t, left) ∧ t.Sound ∧ buffer = taken ++ left ∧
      t.pending = s.pending ++ taken ∧ t.sndNxt = s.sndNxt ∧ t.outstanding = s.outstanding := by
  have place := currentBlock_eq sound.queue sound.valid
  rcases List.eq_nil_or_concat s.queued with none | ⟨init, h, split⟩
  case inl =>
    -- there is no packet yet
    rw [none, List.length_nil] at place
    have slots := sound.queue.slots
    rw [none, List.nil_append] at slots
    have empty : s.packetsOut.getD 0 noBlock = noBlock := by rw [slots]; rfl
    have full : Full s.pool s.outPos s.queued := by
      intro h last
      rw [none] at last
      cases last
    have wrote := @newPacket_spec s socketNumPackets sound full (by rw [none]; rfl) buffer
    rw [none] at wrote
    rw [writePass, place]
    simp only [empty, if_true]
    exact wrote
  case inr =>
    rw [List.concat_eq_append] at split
    have member : h ∈ s.queued := by rw [split]; simp
    have notNone := sound.queue.ne_noBlock sound.valid member
    have position : currentBlock s.packetsOut = init.length := by
      rw [place, split, List.length_append]
      rfl
    have there : s.packetsOut.getD init.length noBlock = h := by
      rw [sound.queue.slots, split, List.append_assoc, List.getD_eq_getElem?_getD,
        List.getElem?_append_right (Nat.le_refl _), Nat.sub_self]
      rfl
    obtain ⟨written, count, soundT, queued, pending, inside, full⟩ := sound.fill split buffer
    rw [writePass, position]
    simp only [there, if_neg notNone, count]
    by_cases more : written < buffer.length
    case pos =>
      have fits := sound.queue.fits
      have length : s.queued.length = init.length + 1 := by rw [split, List.length_append]; rfl
      obtain ⟨u, left, taken, wrote, soundU, rest, pendingU, sndNxt, outstanding⟩ :=
        newPacket_spec soundT (full more)
          (show s.queued.length + (socketNumPackets - (init.length + 1)) = _ by omega)
          (buffer.drop written)
      rw [queued, length] at wrote
      rw [if_pos more]
      refine ⟨u, left, buffer.take written ++ taken, wrote, soundU, ?_, ?_, sndNxt, outstanding⟩
      · rw [List.append_assoc, ← rest, List.take_append_drop]
      · rw [pendingU, pending, List.append_assoc]
    case neg =>
      rw [if_neg more]
      rw [List.take_of_length_le (Nat.le_of_not_lt more)] at pending
      exact ⟨_, [], buffer, rfl, soundT, (List.append_nil _).symm, pending, rfl, rfl⟩

/-! ## Sending -/

theorem getD_one (queue : Queue p packets live) :
    packets.getD 1 noBlock = live.getD 1 noBlock := by
  rw [queue.slots, List.getD_eq_getElem?_getD, List.getD_eq_getElem?_getD]
  by_cases two : 1 < live.length
  · rw [List.getElem?_append_left two]
  · rw [List.getElem?_append_right (Nat.le_of_not_lt two), List.getElem?_replicate,
      List.getElem?_eq_none (Nat.le_of_not_lt two)]
    split <;> rfl

/-- The first packet, cut to what is in it, when there is something in it. -/
structure Ready (s : Sender) (len : Nat) (t : Sender) : Prop where
  sound : t.Sound
  first : ∃ h rest, t.queued = h :: rest ∧ (contents t.pool h).length = len ∧
    (rest = [] → t.outPos = len)
  positive : 0 < len
  pending : t.pending = s.pending
  same : t.packetsOut = s.packetsOut ∧ t.sndNxt = s.sndNxt ∧ t.outstanding = s.outstanding
  lengths : ∀ h, (contents t.pool h).length ≤ (contents s.pool h).length

theorem Sound.cut (sound : s.Sound) {h : Nat} (queued : s.queued = [h]) (some : 0 < s.outPos) :
    Ready s s.outPos { s with pool := s.pool.resizeBlockTo h 0 s.outPos } := by
  have last : h ∈ s.queued.getLast? := by
    rw [queued]
    rfl
  have position := sound.position h last
  obtain ⟨handles, ordered⟩ := sound.valid
  obtain ⟨stays, heap⟩ := ordered.resizeBlockTo_spec some
    (show 0 + s.outPos ≤ _ by rw [Nat.zero_add, ← length_contents]; exact position)
  have here : contents (s.pool.resizeBlockTo h 0 s.outPos) h =
      (contents s.pool h).take s.outPos := by
    rw [heap, Function.update_self, List.drop_zero]
  have length : (contents (s.pool.resizeBlockTo h 0 s.outPos) h).length = s.outPos := by
    rw [here, List.length_take, Nat.min_eq_left position]
  have lengths : ∀ other, (contents (s.pool.resizeBlockTo h 0 s.outPos) other).length ≤
      (contents s.pool other).length := by
    intro other
    by_cases same : other = h
    · rw [same, length]
      exact position
    · rw [heap, Function.update_of_ne same]
  have queueT : Queue (s.pool.resizeBlockTo h 0 s.outPos) s.packetsOut s.queued := by
    refine ⟨sound.queue.slots, sound.queue.fits, sound.queue.distinct, fun other among => ?_⟩
    rw [queued, List.mem_singleton] at among
    rw [among]
    exact List.ne_nil_of_length_pos (by rw [length]; exact some)
  refine ⟨⟨⟨handles, stays⟩, queueT, fun other among => (lengths other).trans (sound.sizes other among),
    ?_, ?_⟩, ⟨h, [], queued, length, fun _ => rfl⟩, some, ?_, ⟨rfl, rfl, rfl⟩, lengths⟩
  · intro other isLast
    rw [Option.mem_unique isLast last]
    exact length.ge
  · intro outstanding
    obtain ⟨front, rest, split, size, alone⟩ := sound.sent outstanding
    rw [queued, List.cons.injEq] at split
    exact ⟨h, [], queued, length.trans (alone split.2.symm), fun _ => alone split.2.symm⟩
  · show pendingFrom _ s.outPos s.queued = pendingFrom _ s.outPos s.queued
    rw [queued, pendingFrom, pendingFrom, here, List.take_take, Nat.min_self]

theorem sendLen_spec (sound : s.Sound) :
    (s.sendLen = (0, s) ∧ s.pending = [] ∧ s.outstanding = 0) ∨
      ∃ len t, s.sendLen = (len, t) ∧ Ready s len t ∧ (s.outstanding ≠ 0 → len = s.outstanding) := by
  have slots := sound.queue.slots
  cases queued : s.queued with
  | nil =>
    have none : s.packetsOut.headD noBlock = noBlock := by
      rw [slots, queued]
      rfl
    refine Or.inl ⟨by rw [sendLen]; simp only [none, if_true], by rw [pending, queued]; rfl, ?_⟩
    by_contra outstanding
    obtain ⟨h, rest, first, _⟩ := sound.sent outstanding
    rw [queued] at first
    cases first
  | cons h rest =>
    have member : h ∈ s.queued := by rw [queued]; exact List.mem_cons_self
    have first : s.packetsOut.headD noBlock = h := by
      rw [slots, queued]
      rfl
    have notNone : h ≠ noBlock := sound.queue.ne_noBlock sound.valid member
    have second : s.packetsOut.getD 1 noBlock = rest.headD noBlock := by
      rw [getD_one sound.queue, queued]
      cases rest <;> rfl
    -- what is outstanding is the first packet
    have sent (outstanding : s.outstanding ≠ 0) :
        (contents s.pool h).length = s.outstanding ∧ (rest = [] → s.outPos = s.outstanding) := by
      obtain ⟨front, behind, split, size, alone⟩ := sound.sent outstanding
      rw [queued, List.cons.injEq] at split
      obtain ⟨rfl, rfl⟩ := split
      exact ⟨size, alone⟩
    rw [sendLen]
    simp only [first, if_neg notNone, second]
    cases rest with
    | nil =>
      rw [List.headD_nil, if_pos rfl]
      by_cases some : 0 < s.outPos
      case neg =>
        rw [if_neg some]
        refine Or.inl ⟨rfl, ?_, ?_⟩
        · rw [pending, queued, Nat.eq_zero_of_not_pos some]
          rfl
        · by_contra outstanding
          have position := (sent outstanding).2 rfl
          omega
      case pos =>
        rw [if_pos some]
        exact Or.inr ⟨_, _, rfl, sound.cut queued some, fun outstanding => (sent outstanding).2 rfl⟩
    | cons next rest =>
      have nextUsed : next ≠ noBlock :=
        sound.queue.ne_noBlock sound.valid (by rw [queued]; simp)
      have filled := List.length_pos_of_ne_nil (sound.queue.filled h member)
      obtain ⟨handles, ordered⟩ := sound.valid
      rw [List.headD_cons, if_neg nextUsed, ordered.blockSize_eq]
      refine Or.inr ⟨_, s, rfl, ⟨sound, ⟨h, next :: rest, queued, rfl, fun none => ?_⟩, filled, rfl,
        ⟨rfl, rfl, rfl⟩, fun _ => Nat.le_refl _⟩, fun outstanding => (sent outstanding).1⟩
      cases none

/-- Where there is no memory, there is none at the second try either. -/
theorem alloc_again_spec (valid : Valid p) {size : Nat} (positive : 0 < size)
    (noRoom : ¬ Heap.Room (contents p) size) :
    ∃ q, p.allocBlock size = some (noBlock, q) ∧ Valid q ∧ contents q = contents p := by
  obtain ⟨handles, ordered⟩ := valid
  rcases ordered.allocBlock_spec positive with ⟨q, result, refused⟩ | ⟨entry, q, result, allocated⟩
  · exact ⟨q, result, ⟨handles, refused.ordered⟩, refused.kept⟩
  · exact absurd (allocated.room_contents ordered) noRoom

/-- The first packet is sent as far as it is asked for, if there is memory for the copy; the
    packets stay as they are. -/
theorem transmit_spec (valid : Valid s.pool) {h n len : Nat} (first : s.packetsOut.headD noBlock = h)
    (length : (contents s.pool h).length = n) (positive : 0 < n)
    (all : len = n ∨ Heap.Room (contents s.pool) (hdrLen + n)) :
    ∃ r data, s.transmit n len = some ({ s with pool := r }, data) ∧ Valid r ∧
      contents r = contents s.pool ∧ (∀ bytes ∈ data, bytes = (contents s.pool h).take len) ∧
      (Heap.Room (contents s.pool) (hdrLen + n) → data ≠ none) := by
  obtain ⟨handles, ordered⟩ := valid
  rcases ordered.allocBlock_spec (show 0 < hdrLen + n by omega) with
    ⟨q, result, refused⟩ | ⟨entry, q, result, allocated⟩
  · -- the second try, in `network_send`, finds no block either
    have noRoom : ¬ Heap.Room (contents s.pool) (hdrLen + n) := refused.not_room ordered
    obtain rfl : len = n := all.resolve_right noRoom
    obtain ⟨r, again, validR, kept⟩ :=
      @alloc_again_spec q ⟨handles, refused.ordered⟩ (hdrLen + len) (by rw [hdrLen]; omega)
        (by rw [refused.kept]; exact noRoom)
    refine ⟨r, none, ?_, validR, kept.trans refused.kept, ?_, fun room => absurd room noRoom⟩
    · rw [transmit, result]
      simp only [Option.bind_eq_bind, Option.bind_some, ne_eq, not_true, if_false, again]
      rfl
    · intro bytes none
      cases none
  · obtain ⟨inserted, orderedQ⟩ := allocated.ordered
    have notNone : entry ≠ noBlock := Nat.ne_of_gt allocated.from_one
    -- the new block was empty, and the packet is not
    have differ : entry ≠ h := by
      rintro rfl
      rw [allocated.unused] at length
      rw [← length] at positive
      exact absurd positive (Nat.lt_irrefl 0)
    have source : contents q h = contents s.pool h := allocated.kept h (Ne.symm differ)
    have entryBlock : entry ∈ inserted := by
      refine (orderedQ.used entry).mp ?_
      rw [← length_contents, allocated.length, hdrLen]
      omega
    have sourceBlock : h ∈ inserted := by
      refine (orderedQ.used h).mp ?_
      rw [← length_contents, source, length]
      omega
    obtain ⟨orderedC, heapC⟩ := @Ordered.copyPacket_spec q inserted orderedQ entry hdrLen h 0 n
      entryBlock sourceBlock differ (by rw [← length_contents, allocated.length])
      (by rw [← length_contents, source, length, Nat.zero_add])
    have whole : ((contents q h).drop 0).take n = contents s.pool h := by
      rw [source, List.drop_zero, List.take_of_length_le length.le]
    rw [whole] at heapC
    have here : contents (q.copyPacket entry hdrLen h 0 n) entry =
        overwrite (contents q entry) hdrLen (contents s.pool h) := by
      rw [heapC, Function.update_self]
    have data : (q.copyPacket entry hdrLen h 0 n).readPacket entry hdrLen len =
        (contents s.pool h).take len := by
      have inside : hdrLen ≤ (contents q entry).length := by rw [allocated.length]; omega
      have rest : (contents q entry).drop (hdrLen + (contents s.pool h).length) = [] := by
        rw [List.drop_eq_nil_iff, allocated.length, length]
      have size : ((q.copyPacket entry hdrLen h 0 n).blocks entry).size = hdrLen + n := by
        rw [← length_contents, here,
          length_overwrite (by rw [allocated.length, length]), allocated.length]
      rw [readPacket_spec (by rw [size]; omega), here, drop_overwrite inside, rest, List.append_nil]
    obtain ⟨r, freed, spec⟩ := orderedC.freeBlock_spec entry
    refine ⟨r, some ((contents s.pool h).take len), ?_, spec.ordered, ?_, ?_, ?_⟩
    · rw [transmit, result]
      simp only [Option.bind_eq_bind, Option.bind_some, ne_eq, notNone, not_false_iff, if_true, first,
        data, freed]
      rfl
    · -- the new block has been freed again
      funext other
      by_cases same : other = entry
      · rw [same, spec.freed, allocated.unused]
      · rw [spec.kept other same, heapC, Function.update_of_ne same, allocated.kept other same]
    · intro bytes sent
      exact (Option.mem_some_iff.mp sent).symm
    · exact fun _ => Option.some_ne_none _

/-- What a call that may send does: the packets stay, and what is sent is the first of them. -/
structure Sends (s t : Sender) (data : Option (List UInt8)) : Prop where
  sound : t.Sound
  pending : t.pending = s.pending
  sndNxt : t.sndNxt = s.sndNxt
  outstanding : s.outstanding ≠ 0 → t.outstanding = s.outstanding
  lengths : ∀ h, (contents t.pool h).length ≤ (contents s.pool h).length
  data : ∀ bytes ∈ data, bytes ≠ [] ∧ bytes <+: t.pending ∧ bytes.length = t.outstanding

theorem Sends.nothing (sound : s.Sound) : Sends s s none :=
  ⟨sound, rfl, rfl, fun _ => rfl, fun _ => le_rfl, fun _ none => by cases none⟩

/-- The first packet is the beginning of what is pending. -/
theorem Ready.starts_pending {len : Nat} {t : Sender} (ready : Ready s len t) :
    ∃ h, t.packetsOut.headD noBlock = h ∧ (contents t.pool h).length = len ∧
      contents t.pool h <+: t.pending := by
  obtain ⟨h, rest, queued, length, alone⟩ := ready.first
  refine ⟨h, ?_, length, ?_⟩
  · rw [ready.sound.queue.slots, queued]
    rfl
  · rw [Sender.pending, queued]
    cases rest with
    | nil =>
      rw [pendingFrom, alone rfl, ← length, List.take_length]
    | cons next rest => exact List.prefix_append _ _

theorem Ready.transmit_spec {len : Nat} {t : Sender} (ready : Ready s len t) {outstanding : Nat}
    (all : outstanding = len) (kept : s.outstanding ≠ 0 → outstanding = s.outstanding) :
    ∃ u data, ({ t with outstanding } : Sender).transmit len outstanding = some (u, data) ∧
      Sends s u data ∧
      (Heap.Room (contents t.pool) (hdrLen + len) → data ≠ none) := by
  obtain ⟨h, first, length, front⟩ := ready.starts_pending
  obtain ⟨r, data, result, validR, same, bytes, room⟩ :=
    @Sender.transmit_spec { t with outstanding } ready.sound.valid h len outstanding first length
      ready.positive (Or.inl all)
  obtain ⟨soundR, pendingR⟩ := ready.sound.congr validR fun h _ => by rw [same]
  refine ⟨{ t with pool := r, outstanding }, data, result, ⟨?_, pendingR.trans ready.pending,
    ready.same.2.1, kept, fun h => ?_, fun cells sent => ?_⟩, room⟩
  · refine ⟨soundR.valid, soundR.queue, soundR.sizes, soundR.position, fun _ => ?_⟩
    obtain ⟨front, rest, queued, size, alone⟩ := ready.first
    refine ⟨front, rest, queued, ?_, fun none => (alone none).trans all.symm⟩
    show (contents r front).length = outstanding
    rw [same, size, all]
  · exact (congrArg (fun heap => (heap h).length) same).trans_le (ready.lengths h)
  · have whole := bytes cells sent
    rw [List.take_of_length_le (length.trans all.symm).le] at whole
    rw [whole]
    refine ⟨List.ne_nil_of_length_pos (length ▸ ready.positive), ?_, length.trans all.symm⟩
    have pending : ({ t with pool := r, outstanding } : Sender).pending = t.pending := pendingR
    rw [pending]
    exact front

theorem Room.mono {heap smaller : Heap} {size less : Nat}
    (lengths : ∀ h, (smaller h).length ≤ (heap h).length) (le : less ≤ size)
    (room : Heap.Room heap size) : Heap.Room smaller less := by
  obtain ⟨⟨h, from_one, to_last, unused⟩, memory⟩ := room
  refine ⟨⟨h, from_one, to_last, ?_⟩, ?_⟩
  · have none := lengths h
    rw [unused] at none
    exact List.eq_nil_of_length_eq_zero (Nat.le_zero.mp none)
  · have used : smaller.used ≤ heap.used := by
      rw [Heap.used, Heap.used]
      induction List.range' poolOffset memPoolNumMemBlocks with
      | nil => exact Nat.le_refl 0
      | cons h handles inductionHypothesis => exact Nat.add_le_add (lengths h) inductionHypothesis
    omega

theorem Ready.room {len : Nat} {t : Sender} (ready : Ready s len t)
    (room : Heap.Room (contents s.pool) (hdrLen + socketDataLen)) :
    Heap.Room (contents t.pool) (hdrLen + len) := by
  obtain ⟨h, rest, queued, length, _⟩ := ready.first
  have size := ready.sound.sizes h (by rw [queued]; exact List.mem_cons_self)
  exact Room.mono ready.lengths (by omega) room

theorem poll_spec (sound : s.Sound) {mss : Nat} (large : socketDataLen ≤ mss) :
    ∃ t data, s.poll mss = some (t, data) ∧ Sends s t data ∧
      (s.outstanding = 0 → s.pending ≠ [] →
        Heap.Room (contents s.pool) (hdrLen + socketDataLen) → data ≠ none) := by
  rw [poll]
  by_cases outstanding : s.outstanding ≠ 0
  case pos =>
    rw [if_pos outstanding]
    exact ⟨s, none, rfl, .nothing sound, fun none => absurd none outstanding⟩
  case neg =>
    rw [if_neg outstanding]
    rcases sendLen_spec sound with ⟨nothing, empty, _⟩ | ⟨len, t, cut, ready, _⟩
    · rw [nothing]
      exact ⟨s, none, rfl, .nothing sound, fun _ some => absurd empty some⟩
    · obtain ⟨h, rest, queued, length, _⟩ := ready.first
      have size := ready.sound.sizes h (by rw [queued]; exact List.mem_cons_self)
      have all : min len mss = len := by omega
      obtain ⟨u, data, result, sends, room⟩ :=
        ready.transmit_spec all fun some => absurd some outstanding
      rw [cut]
      simp only [if_neg ready.positive.ne']
      exact ⟨u, data, result, sends, fun _ _ free => room (ready.room free)⟩

theorem rexmit_spec (sound : s.Sound) :
    ∃ t data, s.rexmit = some (t, data) ∧ Sends s t data ∧
      (s.outstanding ≠ 0 → Heap.Room (contents s.pool) (hdrLen + socketDataLen) → data ≠ none) := by
  rw [rexmit]
  by_cases outstanding : s.outstanding = 0
  case pos =>
    rw [if_pos outstanding]
    exact ⟨s, none, rfl, .nothing sound, fun some => absurd outstanding some⟩
  case neg =>
    rw [if_neg outstanding]
    rcases sendLen_spec sound with ⟨_, _, none⟩ | ⟨len, t, cut, ready, all⟩
    · exact absurd none outstanding
    · have same := ready.same.2.2
      obtain ⟨u, data, result, sends, room⟩ :=
        ready.transmit_spec (same.trans (all outstanding).symm) fun _ => same
      rw [cut]
      simp only [if_neg ready.positive.ne']
      exact ⟨u, data, result, sends, fun _ free => room (ready.room free)⟩

/-! ## Acknowledgements -/

/-- The first packet is freed; all of it has been filled. -/
theorem Sound.eat (sound : s.Sound) {h : Nat} {rest : List Nat} (queued : s.queued = h :: rest)
    (whole : rest = [] → s.outPos = (contents s.pool h).length) (ackno : SeqNo) :
    ∃ pool packetsOut, eatBlock s.pool s.packetsOut = some (pool, packetsOut) ∧
      let t : Sender := { s with pool, packetsOut, sndNxt := ackno, outstanding := 0 }
      t.Sound ∧ s.packetsOut.headD noBlock = h ∧ s.pending = contents s.pool h ++ t.pending ∧
        ∀ other, (contents t.pool other).length ≤ (contents s.pool other).length := by
  have queue := sound.queue
  rw [queued] at queue
  obtain ⟨q, packets, ate, validQ, queueQ, _, _, same, lengths⟩ := eatBlock_spec sound.valid queue
  have first : s.packetsOut.headD noBlock = h := by
    rw [queue.slots]
    rfl
  have left : ({ s with
      pool := q, packetsOut := packets, sndNxt := ackno, outstanding := 0 } : Sender).queued = rest :=
    queueQ.live_eq validQ
  refine ⟨q, packets, ate, ⟨validQ, left ▸ queueQ, ?_, ?_, fun some => absurd rfl some⟩, first, ?_,
    lengths⟩
  · intro other member
    rw [left] at member
    rw [show contents q other = contents s.pool other from same other member]
    exact sound.sizes other (by rw [queued]; exact List.mem_cons_of_mem _ member)
  · intro other last
    rw [left] at last
    have member := List.mem_of_mem_getLast? last
    rw [show contents q other = contents s.pool other from same other member]
    refine sound.position other ?_
    rw [queued]
    cases rest with
    | nil => cases member
    | cons next rest => exact last
  · show _ = _ ++ pendingFrom q s.outPos _
    rw [left, pending, queued]
    cases rest with
    | nil =>
      show (contents s.pool h).take s.outPos = _
      rw [whole rfl, List.take_length]
      exact (List.append_nil _).symm
    | cons next rest => rw [pendingFrom, pendingFrom_congr same]

theorem acked_spec (sound : s.Sound) {ackno : SeqNo} (confirms : s.Confirms ackno) :
    ∃ t h, s.acked ackno = some t ∧ t.Sound ∧ s.packetsOut.headD noBlock = h ∧
      s.pending = contents s.pool h ++ t.pending ∧ (contents s.pool h).length = s.outstanding ∧
      t.sndNxt = ackno ∧ t.outstanding = 0 ∧
      ∀ other, (contents t.pool other).length ≤ (contents s.pool other).length := by
  obtain ⟨h, rest, queued, length, alone⟩ := sound.sent confirms.1
  obtain ⟨q, packets, ate, soundT, first, pending, lengths⟩ :=
    sound.eat queued (fun none => (alone none).trans length.symm) ackno
  refine ⟨_, h, ?_, soundT, first, pending, length, rfl, rfl, lengths⟩
  rw [acked, if_pos confirms, ate]
  rfl

/-- A segment that takes less than the first packet: the acknowledgement of it frees all of the
    packet. -/
theorem poll_small_spec (sound : s.Sound) (idle : s.outstanding = 0) {mss : Nat}
    (small : mss < s.sendLen.1)
    (room : Heap.Room (contents s.pool) (hdrLen + socketDataLen)) :
    ∃ t bytes, s.poll mss = some (t, some bytes) ∧ bytes.length = mss ∧ t.sndNxt = s.sndNxt ∧
      t.outstanding = mss ∧ mss ≤ socketDataLen ∧
      ∀ ackno, t.Confirms ackno →
        ∃ u, t.acked ackno = some u ∧ u.sndNxt = ackno ∧
          s.pending = contents t.pool (t.packetsOut.headD noBlock) ++ u.pending ∧
          mss < (contents t.pool (t.packetsOut.headD noBlock)).length := by
  rcases sendLen_spec sound with ⟨nothing, _, _⟩ | ⟨len, t, cut, ready, _⟩
  · rw [nothing] at small
    exact absurd small (Nat.not_lt_zero _)
  have small : mss < len := by rwa [cut] at small
  obtain ⟨h, rest, queued, length, alone⟩ := ready.first
  have size := ready.sound.sizes h (by rw [queued]; exact List.mem_cons_self)
  have first : t.packetsOut.headD noBlock = h := by
    rw [ready.sound.queue.slots, queued]
    rfl
  obtain ⟨r, data, result, validR, same, bytes, sure⟩ :=
    @transmit_spec { t with outstanding := mss } ready.sound.valid h len mss first length
      ready.positive (Or.inr (ready.room room))
  obtain ⟨data, rfl⟩ := Option.ne_none_iff_exists'.mp (sure (ready.room room))
  have whole : (contents r h).length = len := (congrArg (fun heap => (heap h).length) same).trans length
  refine ⟨{ t with outstanding := mss, pool := r }, data, ?_, ?_, ready.same.2.1, rfl, by omega,
    fun ackno confirms => ?_⟩
  · have least : min len mss = mss := by omega
    rw [poll, if_neg (not_not.mpr idle), cut]
    simp only [if_neg ready.positive.ne', least]
    exact result
  · rw [bytes data rfl, List.length_take, length]
    omega
  · obtain ⟨soundR, pendingR⟩ := ready.sound.congr validR fun h _ => by rw [same]
    obtain ⟨q, packets, ate, _, _, pending, _⟩ :=
      soundR.eat queued (fun none => (alone none).trans whole.symm) ackno
    refine ⟨{ t with pool := q, packetsOut := packets, sndNxt := ackno, outstanding := 0 }, ?_, rfl,
      ?_, ?_⟩
    · rw [acked, if_pos confirms, ate]
      rfl
    · rw [first]
      exact (ready.pending.symm.trans pendingR.symm).trans pending
    · rw [first]
      exact small.trans_eq whole.symm

end Sender

end HomeAutomation.Uip
