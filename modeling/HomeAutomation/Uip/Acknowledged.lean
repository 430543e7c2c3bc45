import HomeAutomation.Uip.Pending

/-! # What is freed has been received

For every order in which segments and acknowledgements arrive: the server receives the bytes
in the order in which they were written, and the client forgets none before the server has
it.  The server takes at least the 512 bytes of a packet at once.
-/

namespace HomeAutomation.Uip

open HomeAutomation.Lib.Transition MemoryPool

namespace Outflow

variable {isn : SeqNo} {s s' : Outflow}

/-- A segment that has been sent: some bytes of the stream, either confirmed by now or just
    those that are outstanding. -/
structure Sent (isn : SeqNo) (s : Outflow) (seqno : SeqNo) (data : List UInt8) (pos : Nat) :
    Prop where
  seqno : seqno = SeqNo.ofNat (isn.toNat + pos)
  notEmpty : data ≠ []
  bytes : s.written.take pos ++ data = s.written.take (pos + data.length)
  place : pos + data.length ≤ s.confirmed.length ∨
    pos = s.confirmed.length ∧ data.length = s.sender.outstanding

structure Sound (isn : SeqNo) (s : Outflow) : Prop where
  sender : s.sender.Sound
  written : s.written = s.confirmed ++ s.sender.pending
  next : s.sender.sndNxt = SeqNo.ofNat (isn.toNat + s.confirmed.length)
  received : s.received <+: s.written
  server : s.received.length = s.confirmed.length ∨
    s.received.length = s.confirmed.length + s.sender.outstanding
  wire : ∀ seqno data, (seqno, data) ∈ s.wire → ∃ pos, Sent isn s seqno data pos

theorem sound_start (isn : SeqNo) (memory : Nat → UInt8) : Sound isn (start isn memory) := by
  have unused : Queue (MemoryPool.init memory) (List.replicate socketNumPackets noBlock) [] :=
    ⟨rfl, Nat.zero_le _, List.nodup_nil, fun h member => absurd member List.not_mem_nil⟩
  have valid : Valid (MemoryPool.init memory) := ⟨[], ordered_init memory⟩
  have queued : (start isn memory).sender.queued = [] := unused.live_eq valid
  have nothing : (start isn memory).sender.pending = [] := by
    rw [Sender.pending, queued]
    rfl
  have sender : (start isn memory).sender.Sound := by
    refine ⟨valid, ?_, ?_, ?_, fun some => absurd rfl some⟩
    · rw [queued]
      exact unused
    · intro h member
      rw [queued] at member
      exact absurd member List.not_mem_nil
    · intro h last
      rw [queued] at last
      cases last
  refine ⟨sender, nothing.symm, ?_, List.nil_prefix, Or.inl rfl,
    fun _ _ member => absurd member List.not_mem_nil⟩
  apply SeqNo.toNat_inj
  rw [SeqNo.toNat_ofNat, show (start isn memory).confirmed = [] from rfl, List.length_nil,
    Nat.add_zero, Nat.mod_eq_of_lt isn.toNat_lt]
  rfl

namespace Sound

theorem outstanding_le (sound : Sound isn s) :
    s.confirmed.length + s.sender.outstanding ≤ s.written.length := by
  rw [sound.written, List.length_append]
  by_cases none : s.sender.outstanding = 0
  case pos => omega
  case neg =>
    obtain ⟨h, rest, queued, length, alone⟩ := sound.sender.sent none
    have first : s.sender.outstanding ≤ s.sender.pending.length := by
      rw [Sender.pending, queued]
      cases rest with
      | nil =>
        show _ ≤ ((contents s.sender.pool h).take s.sender.outPos).length
        rw [alone rfl, List.length_take, length, Nat.min_self]
      | cons next rest =>
        rw [pendingFrom, List.length_append, length]
        exact Nat.le_add_right _ _
    omega

theorem write (sound : Sound isn s) {buffer left : List UInt8} {t : Sender}
    (result : s.sender.writePass buffer = some (t, left)) :
    Sound isn { s with
      sender := t
      written := s.written ++ buffer.take (buffer.length - left.length) } := by
  obtain ⟨t', left', taken, result', soundT, split, pending, sndNxt, outstanding⟩ :=
    Sender.writePass_spec sound.sender buffer
  cases result.symm.trans result'
  have bytes : buffer.take (buffer.length - left.length) = taken := by
    rw [split, List.length_append, Nat.add_sub_cancel, List.take_left]
  rw [bytes]
  refine ⟨soundT, ?_, sndNxt.trans sound.next, sound.received.trans (List.prefix_append _ _),
    ?_, fun seqno data member => ?_⟩
  · show s.written ++ taken = s.confirmed ++ t.pending
    rw [pending, sound.written, List.append_assoc]
  · show _ ∨ s.received.length = s.confirmed.length + t.outstanding
    rw [outstanding]
    exact sound.server
  · obtain ⟨pos, sent⟩ := sound.wire seqno data member
    have inside := sound.outstanding_le
    have place := sent.place
    refine ⟨pos, sent.seqno, sent.notEmpty, ?_, ?_⟩
    · show (s.written ++ taken).take pos ++ data = (s.written ++ taken).take (pos + data.length)
      rw [List.take_append_of_le_length (by omega), List.take_append_of_le_length (by omega)]
      exact sent.bytes
    · show _ ∨ pos = s.confirmed.length ∧ data.length = t.outstanding
      rw [outstanding]
      exact place

/-- What is sent is the beginning of what is pending, or nothing. -/
theorem sends (sound : Sound isn s) {t : Sender} {data : Option (List UInt8)}
    (sends : s.sender.Sends t data) : Sound isn (s.send (t, data)) := by
  have old (cells : SeqNo × List UInt8) (member : cells ∈ s.wire) (wire : List (SeqNo × List UInt8)) :
      ∃ pos, Sent isn { s with sender := t, wire } cells.1 cells.2 pos := by
    obtain ⟨pos, sent⟩ := sound.wire cells.1 cells.2 member
    refine ⟨pos, sent.seqno, sent.notEmpty, sent.bytes, sent.place.imp_right fun ⟨here, length⟩ => ?_⟩
    have outstanding : s.sender.outstanding ≠ 0 := by
      rw [← length]
      exact (List.length_pos_of_ne_nil sent.notEmpty).ne'
    exact ⟨here, length.trans (sends.outstanding outstanding).symm⟩
  have server : s.received.length = s.confirmed.length ∨
      s.received.length = s.confirmed.length + t.outstanding := by
    have before := sound.server
    by_cases none : s.sender.outstanding = 0
    case pos => omega
    case neg => rwa [sends.outstanding none]
  have written : s.written = s.confirmed ++ t.pending := by rw [sends.pending, ← sound.written]
  have next : t.sndNxt = SeqNo.ofNat (isn.toNat + s.confirmed.length) :=
    sends.sndNxt.trans sound.next
  cases data with
  | none =>
    exact ⟨sends.sound, written, next, sound.received, server,
      fun seqno data member => old (seqno, data) member s.wire⟩
  | some bytes =>
    obtain ⟨notEmpty, first, length⟩ := sends.data bytes rfl
    refine ⟨sends.sound, written, next, sound.received, server,
      fun seqno data member => ?_⟩
    rcases List.mem_append.mp member with before | now
    · exact old (seqno, data) before _
    · cases List.mem_singleton.mp now
      refine ⟨s.confirmed.length, next, notEmpty, ?_, Or.inr ⟨rfl, length⟩⟩
      show s.written.take s.confirmed.length ++ bytes =
        s.written.take (s.confirmed.length + bytes.length)
      rw [written, List.take_left, List.take_length_add_append,
        ← List.prefix_iff_eq_take.mp first]

/-- A segment that the server expects brings the next of the bytes that are written. -/
theorem deliver (sound : Sound isn s) (short : s.written.length < 2 ^ 32) {seqno : SeqNo}
    {data : List UInt8} (member : (seqno, data) ∈ s.wire)
    (expected : seqno = SeqNo.ofNat (isn.toNat + s.received.length)) :
    Sound isn { s with received := s.received ++ data } := by
  obtain ⟨pos, sent⟩ := sound.wire seqno data member
  have inside := sound.outstanding_le
  have received := sound.received.length_le
  have place := sent.place
  have here : pos = s.received.length := by
    have same := congrArg SeqNo.toNat (sent.seqno.symm.trans expected)
    rw [SeqNo.toNat_ofNat, SeqNo.toNat_ofNat] at same
    omega
  have filled := List.length_pos_of_ne_nil sent.notEmpty
  have server := sound.server
  refine ⟨sound.sender, sound.written, sound.next, ?_, Or.inr ?_, fun seqno data member => ?_⟩
  · have bytes := sent.bytes
    rw [here, ← List.prefix_iff_eq_take.mp sound.received] at bytes
    show s.received ++ data <+: s.written
    rw [bytes]
    exact List.take_prefix _ _
  · show (s.received ++ data).length = s.confirmed.length + s.sender.outstanding
    rw [List.length_append]
    omega
  · obtain ⟨pos, sent⟩ := sound.wire seqno data member
    exact ⟨pos, sent.seqno, sent.notEmpty, sent.bytes, sent.place⟩

theorem outstanding_small (sound : Sound isn s) : s.sender.outstanding ≤ socketDataLen := by
  by_cases none : s.sender.outstanding = 0
  case pos => rw [none]; exact Nat.zero_le _
  case neg =>
    obtain ⟨h, rest, queued, length, _⟩ := sound.sender.sent none
    rw [← length]
    exact sound.sender.sizes h (by rw [queued]; exact List.mem_cons_self)

/-- The first packet is freed when the server has all of it. -/
theorem ack (sound : Sound isn s) (short : s.written.length < 2 ^ 32) {count : Nat}
    (had : count ≤ s.received.length)
    (confirms : s.sender.Confirms (SeqNo.ofNat (isn.toNat + count))) {t : Sender}
    (result : s.sender.acked (SeqNo.ofNat (isn.toNat + count)) = some t) :
    count = s.confirmed.length + s.sender.outstanding ∧
      Sound isn { s with
        sender := t
        confirmed :=
          s.confirmed ++ contents s.sender.pool (s.sender.packetsOut.headD noBlock) } := by
  have inside := sound.outstanding_le
  have received := sound.received.length_le
  have small := sound.outstanding_small
  have all : count = s.confirmed.length + s.sender.outstanding := by
    have same := congrArg SeqNo.toNat confirms.2
    rw [SeqNo.toNat_uipAdd32, SeqNo.toNat_ofNat, sound.next, SeqNo.toNat_ofNat,
      UInt16.toNat_ofNat_of_lt' (show s.sender.outstanding < 2 ^ 16 by
        rw [socketDataLen] at small; omega)] at same
    omega
  obtain ⟨t', h, result', soundT, first, pending, length, next, none, _⟩ :=
    Sender.acked_spec sound.sender confirms
  cases result.symm.trans result'
  have confirmed : (s.confirmed ++ contents s.sender.pool h).length = count := by
    rw [List.length_append, length, all]
  have server := sound.server
  rw [first]
  refine ⟨all, soundT, ?_, ?_, sound.received, Or.inl ?_, fun seqno data member => ?_⟩
  · show s.written = (s.confirmed ++ _) ++ t.pending
    rw [List.append_assoc, ← pending, ← sound.written]
  · show t.sndNxt = SeqNo.ofNat (isn.toNat + (s.confirmed ++ _).length)
    rw [next, confirmed]
  · show s.received.length = (s.confirmed ++ _).length
    rw [confirmed]
    omega
  · obtain ⟨pos, sent⟩ := sound.wire seqno data member
    have place := sent.place
    refine ⟨pos, sent.seqno, sent.notEmpty, sent.bytes, Or.inl ?_⟩
    show _ ≤ (s.confirmed ++ _).length
    rw [confirmed]
    omega

theorem other (sound : Sound isn s) {call : PoolCall} {q : MemoryPool}
    (spares : (s.sender.packetsOut.all fun h => h == noBlock || call.spares h) = true)
    (stepped : s.sender.pool.step call = some q) :
    Sound isn { s with sender := { s.sender with pool := q } } := by
  obtain ⟨valid, change⟩ := step_refines sound.sender.valid stepped
  have same : ∀ h ∈ s.sender.queued, contents q h = contents s.sender.pool h := by
    intro h member
    have queue := sound.sender.queue
    have notNone := queue.ne_noBlock sound.sender.valid member
    have spared := List.all_eq_true.mp spares h (queue.slots ▸ List.mem_append_left _ member)
    rw [Bool.or_eq_true, beq_iff_eq, or_iff_right notNone] at spared
    exact change.kept (queue.filled h member) spared
  obtain ⟨soundQ, pending⟩ := sound.sender.congr valid same
  refine ⟨soundQ, ?_, sound.next, sound.received, sound.server, fun seqno data member => ?_⟩
  · show s.written = s.confirmed ++ ({ s.sender with pool := q } : Sender).pending
    rw [pending]
    exact sound.written
  · obtain ⟨pos, sent⟩ := sound.wire seqno data member
    exact ⟨pos, sent.seqno, sent.notEmpty, sent.bytes, sent.place⟩

theorem step (sound : Sound isn s) (short : s.written.length < 2 ^ 32) {event : Event}
    (large : ∀ mss, event = .poll mss → socketDataLen ≤ mss)
    (stepped : s.step isn event = some s') : Sound isn s' := by
  cases event with
  | write buffer =>
    obtain ⟨⟨t, left⟩, result, done⟩ := Option.bind_eq_some_iff.mp stepped
    cases done
    exact sound.write result
  | poll mss =>
    obtain ⟨t, data, result, sends, _⟩ := Sender.poll_spec sound.sender (large mss rfl)
    rw [Outflow.step, result] at stepped
    cases stepped
    exact sound.sends sends
  | rexmit =>
    obtain ⟨t, data, result, sends, _⟩ := Sender.rexmit_spec sound.sender
    rw [Outflow.step, result] at stepped
    cases stepped
    exact sound.sends sends
  | deliver seqno data =>
    rw [Outflow.step] at stepped
    by_cases member : (seqno, data) ∈ s.wire
    case neg =>
      rw [if_neg member] at stepped
      cases stepped
    case pos =>
      rw [if_pos member] at stepped
      by_cases expected : seqno = SeqNo.ofNat (isn.toNat + s.received.length)
      case pos =>
        rw [if_pos expected] at stepped
        cases stepped
        exact sound.deliver short member expected
      case neg =>
        -- late or too early: the server does not take it
        rw [if_neg expected] at stepped
        cases stepped
        exact sound
  | ack count =>
    rw [Outflow.step] at stepped
    by_cases had : count ≤ s.received.length
    case neg =>
      rw [if_neg had] at stepped
      cases stepped
    case pos =>
      rw [if_pos had] at stepped
      obtain ⟨t, result, done⟩ := Option.bind_eq_some_iff.mp stepped
      cases done
      by_cases confirms : s.sender.Confirms (SeqNo.ofNat (isn.toNat + count))
      case pos =>
        simp only [if_pos confirms]
        exact (sound.ack short had confirms result).2
      case neg =>
        rw [Sender.acked, if_neg confirms] at result
        cases result
        simp only [if_neg confirms]
        exact sound
  | other call =>
    rw [Outflow.step] at stepped
    by_cases spares : (s.sender.packetsOut.all fun h => h == noBlock || call.spares h) = true
    case neg =>
      rw [if_neg spares] at stepped
      cases stepped
    case pos =>
      rw [if_pos spares] at stepped
      obtain ⟨q, result, done⟩ := Option.bind_eq_some_iff.mp stepped
      cases done
      exact sound.other spares result

end Sound

theorem step_ack {count : Nat} {t : Sender} (has : count ≤ s.received.length)
    (confirms : s.sender.Confirms (SeqNo.ofNat (isn.toNat + count)))
    (acked : s.sender.acked (SeqNo.ofNat (isn.toNat + count)) = some t) :
    s.step isn (.ack count) = some { s with
      sender := t
      confirmed :=
        s.confirmed ++ contents s.sender.pool (s.sender.packetsOut.headD noBlock) } := by
  rw [step, if_pos has]
  simp only [acked, if_pos confirms, Option.bind_eq_bind, Option.bind_some]
  rfl

theorem step_written {event : Event} (stepped : s.step isn event = some s') :
    s.written <+: s'.written := by
  cases event with
  | write buffer =>
    obtain ⟨_, _, done⟩ := Option.bind_eq_some_iff.mp stepped
    cases done
    exact List.prefix_append _ _
  | poll mss =>
    obtain ⟨⟨t, data⟩, _, done⟩ := Option.map_eq_some_iff.mp stepped
    cases done
    cases data <;> exact List.prefix_rfl
  | rexmit =>
    obtain ⟨⟨t, data⟩, _, done⟩ := Option.map_eq_some_iff.mp stepped
    cases done
    cases data <;> exact List.prefix_rfl
  | deliver seqno data =>
    rw [step] at stepped
    split at stepped
    · split at stepped
      · cases stepped
        exact List.prefix_rfl
      · cases stepped
        exact List.prefix_rfl
    · cases stepped
  | ack count =>
    rw [step] at stepped
    split at stepped
    · obtain ⟨_, _, done⟩ := Option.bind_eq_some_iff.mp stepped
      cases done
      exact List.prefix_rfl
    · cases stepped
  | other call =>
    rw [step] at stepped
    split at stepped
    · obtain ⟨_, _, done⟩ := Option.bind_eq_some_iff.mp stepped
      cases done
      exact List.prefix_rfl
    · cases stepped

theorem sound_run {memory : Nat → UInt8} {events : List Event}
    (large : ∀ mss, .poll mss ∈ events → socketDataLen ≤ mss)
    (finished : run (step isn) (start isn memory) events = some s)
    (short : s.written.length < 2 ^ 32) : Sound isn s := by
  refine run_induction (fun events state => (∀ mss, .poll mss ∈ events → socketDataLen ≤ mss) →
    state.written.length < 2 ^ 32 → Sound isn state) (fun _ _ => sound_start isn memory) ?_ finished
    large short
  intro events state event next _ before stepped large short
  have shorter := (step_written stepped).length_le.trans_lt short
  have sound := before (fun mss member => large mss (List.mem_append_left _ member)) shorter
  refine sound.step shorter (fun mss here => large mss ?_) stepped
  rw [here]
  exact List.mem_append_right _ (List.mem_singleton_self _)

/-- The server gets the bytes in the order in which they are written, and no packet is freed
    before the server has it. -/
theorem freed_received {memory : Nat → UInt8} {events : List Event}
    (large : ∀ mss, .poll mss ∈ events → socketDataLen ≤ mss)
    (finished : run (step isn) (start isn memory) events = some s)
    (short : s.written.length < 2 ^ 32) :
    s.received <+: s.written ∧ s.confirmed <+: s.received ∧
      s.written = s.confirmed ++ s.sender.pending := by
  have sound := sound_run large finished short
  refine ⟨sound.received, ?_, sound.written⟩
  have confirmed : s.confirmed <+: s.written := sound.written ▸ List.prefix_append _ _
  have server := sound.server
  exact List.prefix_of_prefix_length_le confirmed sound.received (by omega)

/-- The acknowledgement of the first packet is lost, and the packet comes twice; the last of
    the bytes are still to be sent. -/
theorem freed_received_repeated :
    ∃ s,
      run (step ⟨255, 255, 255, 254⟩) (start ⟨255, 255, 255, 254⟩ fun _ => 0)
          [.write [1, 2, 3], .poll 512, .write [4, 5],
            .deliver ⟨255, 255, 255, 254⟩ [1, 2, 3], .rexmit,
            .deliver ⟨255, 255, 255, 254⟩ [1, 2, 3], .ack 3] = some s ∧
      s.received <+: s.written ∧ s.confirmed <+: s.received ∧
      s.written = s.confirmed ++ s.sender.pending := by
  obtain ⟨s, finished, state⟩ : ∃ s,
      run (step ⟨255, 255, 255, 254⟩) (start ⟨255, 255, 255, 254⟩ fun _ => 0)
          [.write [1, 2, 3], .poll 512, .write [4, 5],
            .deliver ⟨255, 255, 255, 254⟩ [1, 2, 3], .rexmit,
            .deliver ⟨255, 255, 255, 254⟩ [1, 2, 3], .ack 3] = some s ∧
        (s.written.length, s.confirmed.length) = (5, 3) :=
    Option.map_eq_some_iff.mp (by decide +kernel)
  simp only [Prod.mk.injEq] at state
  exact ⟨s, finished, freed_received (by simp [socketDataLen]) finished (by rw [state.1]; decide)⟩

/-! ## Getting through -/

/-- The next packet gets through: it is sent, for the first time or again, received and
    acknowledged. -/
theorem Sound.round (sound : Sound isn s) (short : s.written.length < 2 ^ 32)
    (waits : s.sender.pending ≠ [])
    (room : Heap.Room (contents s.sender.pool) (hdrLen + socketDataLen)) :
    ∃ events final, run (Outflow.step isn) s events = some final ∧ Sound isn final ∧
      final.written = s.written ∧ s.confirmed.length < final.confirmed.length ∧
      ∀ h, (contents final.sender.pool h).length ≤ (contents s.sender.pool h).length := by
  -- a segment is sent
  obtain ⟨event, t, bytes, sent, sends⟩ : ∃ event t bytes,
      s.step isn event = some (s.send (t, some bytes)) ∧ s.sender.Sends t (some bytes) := by
    by_cases none : s.sender.outstanding = 0
    case pos =>
      obtain ⟨t, data, result, sends, sure⟩ := Sender.poll_spec sound.sender le_rfl
      obtain ⟨bytes, rfl⟩ := Option.ne_none_iff_exists'.mp (sure none waits room)
      exact ⟨.poll socketDataLen, t, bytes, by rw [Outflow.step, result]; rfl, sends⟩
    case neg =>
      obtain ⟨t, data, result, sends, sure⟩ := Sender.rexmit_spec sound.sender
      obtain ⟨bytes, rfl⟩ := Option.ne_none_iff_exists'.mp (sure none room)
      exact ⟨.rexmit, t, bytes, by rw [Outflow.step, result]; rfl, sends⟩
  have soundSent : Sound isn (s.send (t, some bytes)) := sound.sends sends
  obtain ⟨notEmpty, _, length⟩ := sends.data bytes rfl
  have filled := List.length_pos_of_ne_nil notEmpty
  -- the server has it, now or from before
  obtain ⟨u, delivered, soundU, sender, written, confirmed, has⟩ : ∃ u,
      (s.send (t, some bytes)).step isn (.deliver t.sndNxt bytes) = some u ∧ Sound isn u ∧
        u.sender = t ∧ u.written = s.written ∧ u.confirmed = s.confirmed ∧
        s.confirmed.length + t.outstanding ≤ u.received.length := by
    have member : (t.sndNxt, bytes) ∈ (s.send (t, some bytes)).wire :=
      List.mem_append_right _ (List.mem_singleton_self _)
    rw [Outflow.step, if_pos member]
    by_cases expected : t.sndNxt = SeqNo.ofNat (isn.toNat + (s.send (t, some bytes)).received.length)
    case pos =>
      rw [if_pos expected]
      have soundU := soundSent.deliver short member expected
      refine ⟨_, rfl, soundU, rfl, rfl, rfl, ?_⟩
      have server : s.received.length = s.confirmed.length ∨
          s.received.length = s.confirmed.length + t.outstanding := soundSent.server
      show _ ≤ (s.received ++ bytes).length
      rw [List.length_append]
      omega
    case neg =>
      rw [if_neg expected]
      refine ⟨_, rfl, soundSent, rfl, rfl, rfl, ?_⟩
      rcases soundSent.server with before | now
      · have next := soundSent.next
        rw [← before] at next
        exact absurd next expected
      · exact now.ge
  -- and the acknowledgement arrives
  have confirms : u.sender.Confirms
      (SeqNo.ofNat (isn.toNat + (s.confirmed.length + t.outstanding))) := by
    have small := soundSent.outstanding_small
    have next : t.sndNxt = SeqNo.ofNat (isn.toNat + s.confirmed.length) := soundSent.next
    have small : t.outstanding < 2 ^ 16 := small.trans_lt (by decide)
    rw [sender]
    refine ⟨by omega, SeqNo.toNat_inj ?_⟩
    rw [SeqNo.toNat_uipAdd32, SeqNo.toNat_ofNat, next, SeqNo.toNat_ofNat,
      UInt16.toNat_ofNat_of_lt' small, Nat.mod_add_mod, Nat.add_assoc]
  obtain ⟨v, h, acked, _, first, _, size, _, _, lengths⟩ := Sender.acked_spec soundU.sender confirms
  have soundV := (soundU.ack (written ▸ short) has confirms acked).2
  refine ⟨[event, .deliver t.sndNxt bytes, .ack (s.confirmed.length + t.outstanding)], _, ?_, soundV,
    written, ?_, fun other => ?_⟩
  · rw [run_cons, sent, Option.bind_some, run_cons, delivered, Option.bind_some, run_cons,
      step_ack has confirms acked]
    rfl
  · show _ < (u.confirmed ++ contents u.sender.pool (u.sender.packetsOut.headD noBlock)).length
    rw [first, List.length_append, confirmed, size, sender]
    omega
  · refine (lengths other).trans ?_
    rw [sender]
    exact sends.lengths other

/-- From every state reached, and with memory for a packet, there is a way to get everything
    that is written to the server. -/
theorem can_get_through {memory : Nat → UInt8} {events : List Event}
    (large : ∀ mss, .poll mss ∈ events → socketDataLen ≤ mss)
    (finished : run (step isn) (start isn memory) events = some s)
    (short : s.written.length < 2 ^ 32)
    (room : Heap.Room (contents s.sender.pool) (hdrLen + socketDataLen)) :
    ∃ more final, run (step isn) s more = some final ∧ final.written = s.written ∧
      final.confirmed = s.written ∧ final.received = s.written := by
  have sound := sound_run large finished short
  clear large finished
  -- the bytes that are not confirmed get fewer with each round
  induction left : s.written.length - s.confirmed.length using Nat.strong_induction_on
    generalizing s with
  | _ left inductionHypothesis =>
    by_cases nothing : s.sender.pending = []
    case pos =>
      have all : s.confirmed = s.written := by rw [sound.written, nothing, List.append_nil]
      refine ⟨[], s, rfl, rfl, all, ?_⟩
      have server := sound.server
      rw [all] at server
      have length := sound.received.length_le
      exact sound.received.eq_of_length (by omega)
    case neg =>
      obtain ⟨events, t, ran, soundT, written, further, lengths⟩ := sound.round short nothing room
      have inside : t.confirmed.length ≤ t.written.length := by
        rw [soundT.written, List.length_append]
        exact Nat.le_add_right _ _
      obtain ⟨more, final, finished, same, confirmed, received⟩ :=
        inductionHypothesis (t.written.length - t.confirmed.length)
          (by rw [← left, written] at *; omega) (written ▸ short)
          (Sender.Room.mono lengths le_rfl room) soundT rfl
      refine ⟨events ++ more, final, ?_, same.trans written, confirmed.trans written,
        received.trans written⟩
      rw [run_append, ran]
      exact finished

/-- A packet is on its way, and another is waiting. -/
theorem can_get_through_two :
    ∃ s more final,
      run (step ⟨0, 0, 0, 1⟩) (start ⟨0, 0, 0, 1⟩ fun _ => 0)
          [.write [1, 2, 3], .poll 512, .write [4, 5]] = some s ∧
      run (step ⟨0, 0, 0, 1⟩) s more = some final ∧ final.written = s.written ∧
      final.confirmed = s.written ∧ final.received = s.written := by
  obtain ⟨s, finished, state⟩ : ∃ s,
      run (step ⟨0, 0, 0, 1⟩) (start ⟨0, 0, 0, 1⟩ fun _ => 0)
          [.write [1, 2, 3], .poll 512, .write [4, 5]] = some s ∧
        (s.written.length, decide (contents s.sender.pool 5 = []),
          decide (Heap.used (contents s.sender.pool) + (hdrLen + socketDataLen) ≤ memPoolSize)) =
          (5, true, true) :=
    Option.map_eq_some_iff.mp (by decide +kernel)
  simp only [Prod.mk.injEq, decide_eq_true_eq] at state
  obtain ⟨more, final, continued⟩ := can_get_through (by simp [socketDataLen]) finished
    (by rw [state.1]; decide) ⟨⟨5, by decide, by decide, state.2.1⟩, state.2.2⟩
  exact ⟨s, more, final, finished, continued⟩

/-! ## Smaller segments -/

/-- Where a segment takes less than the first packet, as the window of the server is smaller,
    its acknowledgement still frees the whole packet: the server lacks bytes that are neither
    received nor pending, and what comes next is sent in their place. -/
theorem unsent_forgotten {memory : Nat → UInt8} {events : List Event}
    (large : ∀ mss, .poll mss ∈ events → socketDataLen ≤ mss)
    (finished : run (step isn) (start isn memory) events = some s)
    (short : s.written.length < 2 ^ 32)
    (room : Heap.Room (contents s.sender.pool) (hdrLen + socketDataLen))
    (idle : s.sender.outstanding = 0) {mss : Nat} (positive : 0 < mss)
    (small : mss < s.sender.sendLen.1) :
    ∃ data final,
      run (step isn) s
          [.poll mss, .deliver s.sender.sndNxt data, .ack (s.received.length + mss)] =
        some final ∧
      data.length = mss ∧ final.received = s.received ++ data ∧
      final.written = final.confirmed ++ final.sender.pending ∧
      final.received.length < final.confirmed.length ∧
      final.sender.sndNxt = SeqNo.ofNat (isn.toNat + final.received.length) := by
  have sound := sound_run large finished short
  obtain ⟨t, data, result, length, sndNxt, outstanding, size, frees⟩ :=
    Sender.poll_small_spec sound.sender idle small room
  -- with nothing outstanding both sides agree
  have server : s.received.length = s.confirmed.length := by
    have before := sound.server
    rw [idle] at before
    omega
  have expected : s.sender.sndNxt = SeqNo.ofNat (isn.toNat + s.received.length) := by
    rw [sound.next, server]
  have member : (s.sender.sndNxt, data) ∈ (s.send (t, some data)).wire := by
    rw [← sndNxt]
    exact List.mem_append_right _ (List.mem_singleton_self _)
  have has : s.received.length + mss ≤ (s.received ++ data).length := by
    rw [List.length_append, length]
  -- the acknowledgement is that of all that was sent
  have confirms : t.Confirms (SeqNo.ofNat (isn.toNat + (s.received.length + mss))) := by
    have fits : mss < 2 ^ 16 := size.trans_lt (by decide)
    rw [Sender.Confirms, outstanding]
    refine ⟨positive.ne', SeqNo.toNat_inj ?_⟩
    rw [SeqNo.toNat_uipAdd32, SeqNo.toNat_ofNat, sndNxt, expected, SeqNo.toNat_ofNat,
      UInt16.toNat_ofNat_of_lt' fits, Nat.mod_add_mod, Nat.add_assoc]
  obtain ⟨u, acked, next, pending, longer⟩ := frees _ confirms
  let final : Outflow :=
    { sender := u
      written := s.written
      confirmed := s.confirmed ++ contents t.pool (t.packetsOut.headD noBlock)
      wire := (s.send (t, some data)).wire
      received := s.received ++ data }
  refine ⟨data, final, ?_, length, rfl, ?_, ?_, ?_⟩
  · have polled : s.step isn (.poll mss) = some (s.send (t, some data)) := by
      rw [step, result]
      rfl
    have delivered : (s.send (t, some data)).step isn (.deliver s.sender.sndNxt data) =
        some { s.send (t, some data) with received := s.received ++ data } := by
      rw [step, if_pos member]
      exact if_pos expected
    have freed : step isn { s.send (t, some data) with received := s.received ++ data }
        (.ack (s.received.length + mss)) = some final :=
      step_ack has confirms acked
    rw [run_cons, polled, Option.bind_some, run_cons, delivered, Option.bind_some, run_cons, freed]
    rfl
  · show s.written = (s.confirmed ++ _) ++ u.pending
    rw [List.append_assoc, ← pending, ← sound.written]
  · show (s.received ++ data).length < (s.confirmed ++ _).length
    rw [List.length_append, List.length_append, length, server]
    omega
  · show u.sndNxt = SeqNo.ofNat (isn.toNat + (s.received ++ data).length)
    rw [next, List.length_append, length]

/-- Of three bytes two are sent. -/
theorem unsent_forgotten_window :
    ∃ s, run (step ⟨0, 0, 0, 1⟩) (start ⟨0, 0, 0, 1⟩ fun _ => 0) [.write [1, 2, 3]] = some s ∧
      ∃ data final,
        run (step ⟨0, 0, 0, 1⟩) s
            [.poll 2, .deliver s.sender.sndNxt data, .ack (s.received.length + 2)] = some final ∧
        data.length = 2 ∧ final.received = s.received ++ data ∧
        final.written = final.confirmed ++ final.sender.pending ∧
        final.received.length < final.confirmed.length ∧
        final.sender.sndNxt =
          SeqNo.ofNat ((⟨0, 0, 0, 1⟩ : SeqNo).toNat + final.received.length) := by
  obtain ⟨s, finished, state⟩ : ∃ s,
      run (step ⟨0, 0, 0, 1⟩) (start ⟨0, 0, 0, 1⟩ fun _ => 0) [.write [1, 2, 3]] = some s ∧
        (s.written.length, s.sender.outstanding, s.sender.sendLen.1,
          decide (contents s.sender.pool 5 = []),
          decide (Heap.used (contents s.sender.pool) + (hdrLen + socketDataLen) ≤ memPoolSize)) =
          (3, 0, 3, true, true) :=
    Option.map_eq_some_iff.mp (by decide +kernel)
  simp only [Prod.mk.injEq, decide_eq_true_eq] at state
  obtain ⟨three, idle, all, unused, memory⟩ := state
  exact ⟨s, finished, unsent_forgotten (by simp) finished (by rw [three]; decide)
    ⟨⟨5, by decide, by decide, unused⟩, memory⟩ idle (by decide) (by rw [all]; decide)⟩

end Outflow

end HomeAutomation.Uip
