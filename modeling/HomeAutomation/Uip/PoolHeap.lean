import HomeAutomation.Lib.Transition
import HomeAutomation.Uip.PoolOperations

/-! # The pool as a store

A `Heap` gives each handle the bytes of its block, none if it is not in use, and knows
nothing of addresses, links and gaps.  Every run of operations on the pool is one on the heap:
blocks keep their bytes while others come, go and are moved, and allocation fails only when
there are too many blocks or too many bytes.
-/

namespace HomeAutomation.Uip

open HomeAutomation.Lib.Memory HomeAutomation.Lib.Transition

/-- The calls, with their results; of `copyPacket` and the rest, what their callers keep to
    is checked in `MemoryPool.step`. -/
inductive PoolCall
  | allocBlock (size handle : Nat)
  | freeBlock (handle : Nat)
  | resizeBlock (handle position : Nat)
  | resizeBlockTo (handle position size : Nat)
  | writePacket (handle position : Nat) (buffer : List UInt8) (len : Nat)
  | copyPacket (dest destPos src srcPos len : Nat)
  | readPacket (handle position len : Nat) (data : List UInt8)
  deriving DecidableEq

/-- Blocks are not allocated or cut to size 0, and positions lie inside. -/
def MemoryPool.step (p : MemoryPool) : PoolCall → Option MemoryPool
  | .allocBlock size handle =>
    match p.allocBlock size with
    | some (result, q) => if 0 < size ∧ result = handle then some q else none
    | none => none
  | .freeBlock handle => p.freeBlock handle
  | .resizeBlock handle position =>
    if position < p.blockSize handle then some (p.resizeBlock handle position) else none
  | .resizeBlockTo handle position size =>
    if 0 < size ∧ position + size ≤ p.blockSize handle then
      some (p.resizeBlockTo handle position size)
    else none
  | .writePacket handle position buffer len =>
    if p.blockSize handle ≠ 0 ∧ position ≤ p.blockSize handle ∧
        (p.writePacket handle position buffer).1 = len then
      some (p.writePacket handle position buffer).2
    else none
  | .copyPacket dest destPos src srcPos len =>
    if dest ≠ src ∧ 0 < len ∧ destPos + len ≤ p.blockSize dest ∧
        srcPos + len ≤ p.blockSize src then
      some (p.copyPacket dest destPos src srcPos len)
    else none
  | .readPacket handle position len data =>
    if position ≤ p.blockSize handle ∧ p.readPacket handle position len = data then some p
    else none

/-! ## The heap -/

abbrev Heap := Nat → List UInt8

namespace Heap

def empty : Heap := fun _ => []

/-- The bytes in use. -/
def used (heap : Heap) : Nat :=
  ((List.range' poolOffset memPoolNumMemBlocks).map fun h => (heap h).length).sum

/-- There is an entry that is not in use, and memory for `size` bytes. -/
def Room (heap : Heap) (size : Nat) : Prop :=
  (∃ h, 1 ≤ h ∧ h ≤ memPoolNumMemBlocks ∧ heap h = []) ∧ heap.used + size ≤ memPoolSize

inductive Step : Heap → PoolCall → Heap → Prop
  | allocBlock {heap : Heap} {size handle : Nat} {bytes : List UInt8} (positive : 0 < size)
      (from_one : 1 ≤ handle) (to_last : handle ≤ memPoolNumMemBlocks) (unused : heap handle = [])
      (room : heap.Room size) (length : bytes.length = size) :
      Step heap (.allocBlock size handle) (Function.update heap handle bytes)
  | refused {heap : Heap} {size : Nat} (full : ¬ heap.Room size) :
      Step heap (.allocBlock size noBlock) heap
  | freeBlock {heap : Heap} (handle : Nat) :
      Step heap (.freeBlock handle) (Function.update heap handle [])
  | resizeBlock {heap : Heap} {handle position : Nat} (inside : position < (heap handle).length) :
      Step heap (.resizeBlock handle position)
        (Function.update heap handle ((heap handle).drop position))
  | resizeBlockTo {heap : Heap} {handle position size : Nat} (positive : 0 < size)
      (inside : position + size ≤ (heap handle).length) :
      Step heap (.resizeBlockTo handle position size)
        (Function.update heap handle (((heap handle).drop position).take size))
  | writePacket {heap : Heap} {handle position : Nat} {buffer : List UInt8}
      (inside : position ≤ (heap handle).length) :
      Step heap
        (.writePacket handle position buffer (min buffer.length ((heap handle).length - position)))
        (Function.update heap handle
          (overwrite (heap handle) position (buffer.take ((heap handle).length - position))))
  | copyPacket {heap : Heap} {dest destPos src srcPos len : Nat}
      (destInside : destPos + len ≤ (heap dest).length)
      (srcInside : srcPos + len ≤ (heap src).length) :
      Step heap (.copyPacket dest destPos src srcPos len)
        (Function.update heap dest
          (overwrite (heap dest) destPos (((heap src).drop srcPos).take len)))
  | readPacket {heap : Heap} {handle position len : Nat}
      (inside : position ≤ (heap handle).length) :
      Step heap (.readPacket handle position len (((heap handle).drop position).take len)) heap

end Heap

/-- The call leaves the block alone; allocation gives out no block that is in use. -/
def PoolCall.spares (block : Nat) : PoolCall → Bool
  | .allocBlock _ _ => true
  | .freeBlock handle => handle != block
  | .resizeBlock handle _ => handle != block
  | .resizeBlockTo handle _ _ => handle != block
  | .writePacket handle _ _ _ => handle != block
  | .copyPacket dest _ _ _ _ => dest != block
  | .readPacket _ _ _ _ => true

theorem Heap.Step.kept {heap next : Heap} {call : PoolCall} (stepped : Heap.Step heap call next)
    {block : Nat} (used : heap block ≠ []) (spares : call.spares block = true) :
    next block = heap block := by
  cases stepped with
  | allocBlock positive from_one to_last unused room length =>
    rw [Function.update_of_ne]
    rintro rfl
    exact used unused
  | refused full => rfl
  | readPacket inside => rfl
  | _ =>
    simp only [PoolCall.spares, bne_iff_ne] at spares
    exact Function.update_of_ne spares.symm _ _

namespace MemoryPool

variable {p q : MemoryPool} {handles : List Nat}

/-- The blocks are in some order. -/
def Valid (p : MemoryPool) : Prop := ∃ handles, Ordered p handles

theorem sum_filter_pos (nodes : List Nat) (size : Nat → Nat) :
    ((nodes.filter fun h => decide (size h ≠ 0)).map size).sum = (nodes.map size).sum := by
  induction nodes with
  | nil => rfl
  | cons node nodes inductionHypothesis =>
    by_cases zero : size node = 0
    · rw [List.filter_cons_of_neg (by simpa using zero), inductionHypothesis, List.map_cons,
        List.sum_cons, zero, Nat.zero_add]
    · rw [List.filter_cons_of_pos (by simpa using zero), List.map_cons, List.map_cons,
        List.sum_cons, List.sum_cons, inductionHypothesis]

namespace Ordered

/-- The blocks that are not in use have no bytes. -/
theorem used_contents (ordered : Ordered p handles) :
    Heap.used (contents p) = total p handles := by
  have perm : handles.Perm ((List.range' poolOffset memPoolNumMemBlocks).filter
      fun h => decide ((p.blocks h).size ≠ 0)) := by
    refine (List.perm_ext_iff_of_nodup (List.nodup_cons.mp ordered.distinct).2
      (List.Nodup.filter _ List.nodup_range')).mpr fun h => ?_
    rw [List.mem_filter, decide_eq_true_eq, ordered.used h, List.mem_range'_1]
    refine ⟨fun block => ⟨?_, block⟩, And.right⟩
    have notStart := ordered.not_poolStart block
    have entry := ordered.entries h block
    simp only [poolStart, poolOffset] at *
    omega
  have sizes : ((List.range' poolOffset memPoolNumMemBlocks).map fun h => (contents p h).length) =
      (List.range' poolOffset memPoolNumMemBlocks).map fun h => (p.blocks h).size :=
    List.map_congr_left fun h _ => length_contents p h
  rw [Heap.used, sizes, ← sum_filter_pos, total]
  exact ((perm.map _).sum_eq).symm

theorem blockSize_eq (ordered : Ordered p handles) (h : Nat) :
    p.blockSize h = (contents p h).length := by
  rw [length_contents, blockSize]
  split
  case isTrue none =>
    rw [none]
    exact ordered.empty.symm
  case isFalse => rfl

theorem mem_of_blockSize (ordered : Ordered p handles) {h : Nat} (notEmpty : p.blockSize h ≠ 0) :
    h ∈ handles := by
  rw [ordered.blockSize_eq, length_contents] at notEmpty
  exact (ordered.used h).mp notEmpty

end Ordered

/-! ## The refinement -/

theorem Allocated.room_contents {size entry : Nat} (ordered : Ordered p handles)
    (allocated : Allocated p handles size entry q) : Heap.Room (contents p) size := by
  refine ⟨⟨entry, allocated.from_one, allocated.to_last, allocated.unused⟩, ?_⟩
  rw [ordered.used_contents]
  exact allocated.room

theorem Refused.not_room {size : Nat} (ordered : Ordered p handles)
    (refused : Refused p handles size q) : ¬ Heap.Room (contents p) size := by
  rintro ⟨⟨entry, from_one, to_last, unused⟩, memory⟩
  rw [ordered.used_contents] at memory
  rcases refused.reason with all | tooMany
  · exact all entry from_one to_last unused
  · omega

/-- Every call keeps the blocks in order and is a step of the heap. -/
theorem step_refines {call : PoolCall} (valid : Valid p) (stepped : p.step call = some q) :
    Valid q ∧ Heap.Step (contents p) call (contents q) := by
  obtain ⟨handles, ordered⟩ := valid
  cases call with
  | allocBlock size handle =>
    by_cases positive : 0 < size
    case neg =>
      rw [step] at stepped
      cases result : p.allocBlock size <;> simp [result, positive] at stepped
    case pos =>
      rcases ordered.allocBlock_spec positive with ⟨r, result, refused⟩ |
        ⟨entry, r, result, allocated⟩
      · simp only [step, result] at stepped
        split at stepped
        case isFalse => cases stepped
        case isTrue returned =>
          -- blocks may have moved in the attempt, but their contents have not changed
          cases stepped
          refine ⟨⟨handles, refused.ordered⟩, ?_⟩
          rw [refused.kept, ← returned.2]
          exact .refused (refused.not_room ordered)
      · simp only [step, result] at stepped
        split at stepped
        case isFalse => cases stepped
        case isTrue returned =>
          cases stepped
          refine ⟨allocated.ordered, ?_⟩
          have heap : contents q = Function.update (contents p) entry (contents q entry) := by
            funext h
            by_cases here : h = entry
            · rw [here, Function.update_self]
            · rw [Function.update_of_ne here, allocated.kept h here]
          rw [heap, ← returned.2]
          exact .allocBlock positive allocated.from_one allocated.to_last allocated.unused
            (allocated.room_contents ordered) allocated.length
  | freeBlock handle =>
    obtain ⟨freed, result, spec⟩ := ordered.freeBlock_spec handle
    rw [step, result] at stepped
    cases stepped
    refine ⟨spec.ordered, ?_⟩
    have heap : contents q = Function.update (contents p) handle [] := by
      funext h
      by_cases here : h = handle
      · rw [here, Function.update_self, spec.freed]
      · rw [Function.update_of_ne here, spec.kept h here]
    rw [heap]
    exact .freeBlock handle
  | resizeBlock handle position =>
    rw [step] at stepped
    split at stepped
    case isFalse => cases stepped
    case isTrue inside =>
      cases stepped
      rw [ordered.blockSize_eq] at inside
      obtain ⟨stays, heap⟩ := ordered.resizeBlock_spec (by rwa [length_contents] at inside)
      refine ⟨⟨handles, stays⟩, ?_⟩
      rw [heap]
      exact .resizeBlock inside
  | resizeBlockTo handle position size =>
    rw [step] at stepped
    split at stepped
    case isFalse => cases stepped
    case isTrue inside =>
      cases stepped
      rw [ordered.blockSize_eq] at inside
      obtain ⟨stays, heap⟩ := ordered.resizeBlockTo_spec inside.1
        (by rw [← length_contents]; exact inside.2)
      refine ⟨⟨handles, stays⟩, ?_⟩
      rw [heap]
      exact .resizeBlockTo inside.1 inside.2
  | writePacket handle position buffer len =>
    rw [step] at stepped
    split at stepped
    case isFalse => cases stepped
    case isTrue inside =>
      obtain ⟨notEmpty, inside, written⟩ := inside
      cases stepped
      have block := ordered.mem_of_blockSize notEmpty
      rw [ordered.blockSize_eq] at inside
      have inBlock : position ≤ (p.blocks handle).size := by rwa [length_contents] at inside
      obtain ⟨count, stays, heap⟩ := ordered.writePacket_spec block inBlock
      refine ⟨⟨handles, stays⟩, ?_⟩
      rw [heap, ← written, count]
      exact .writePacket inside
  | copyPacket dest destPos src srcPos len =>
    rw [step] at stepped
    split at stepped
    case isFalse => cases stepped
    case isTrue inside =>
      obtain ⟨differ, positive, destInside, srcInside⟩ := inside
      cases stepped
      -- both are blocks, as something is copied from one into the other
      have destBlock : dest ∈ handles := ordered.mem_of_blockSize (by omega)
      have srcBlock : src ∈ handles := ordered.mem_of_blockSize (by omega)
      rw [ordered.blockSize_eq] at destInside srcInside
      obtain ⟨stays, heap⟩ := ordered.copyPacket_spec destBlock srcBlock differ
        (by rwa [length_contents] at destInside) (by rwa [length_contents] at srcInside)
      refine ⟨⟨handles, stays⟩, ?_⟩
      rw [heap]
      exact .copyPacket destInside srcInside
  | readPacket handle position len data =>
    rw [step] at stepped
    split at stepped
    case isFalse => cases stepped
    case isTrue inside =>
      obtain ⟨inside, result⟩ := inside
      cases stepped
      rw [ordered.blockSize_eq] at inside
      refine ⟨⟨handles, ordered⟩, ?_⟩
      rw [← result, readPacket_spec (by rwa [length_contents] at inside)]
      exact .readPacket inside

/-- Every run of calls on the pool is one on the heap: what a block holds is what has been
    written to it, whatever is allocated, freed and moved in the meantime. -/
theorem run_refines_heap {memory : Nat → UInt8} {calls : List PoolCall} {final : MemoryPool}
    (finished : run step (init memory) calls = some final) :
    Steps Heap.Step Heap.empty calls (contents final) := by
  have start : contents (init memory) = Heap.empty := by
    funext h
    refine contents_eq_nil (not_not.mp (mt ((ordered_init memory).used h).mp ?_))
    exact List.not_mem_nil
  rw [← start]
  exact run_refines contents Valid ⟨[], ordered_init memory⟩
    (fun _ _ _ valid stepped => step_refines valid stepped) finished

/-- The third block fits only when the second has been moved. -/
theorem run_refines_heap_moved :
    ∃ final,
      run step (init fun _ => 0)
          [.allocBlock 6000 1, .allocBlock 100 2, .writePacket 2 98 [7, 8, 9] 2, .freeBlock 1,
            .allocBlock 6043 1, .readPacket 2 97 80 [0, 7, 8]] = some final ∧
      Steps Heap.Step Heap.empty
          [.allocBlock 6000 1, .allocBlock 100 2, .writePacket 2 98 [7, 8, 9] 2, .freeBlock 1,
            .allocBlock 6043 1, .readPacket 2 97 80 [0, 7, 8]] (contents final) :=
  have ⟨final, finished⟩ := Option.isSome_iff_exists.mp (show (run _ _ _).isSome from rfl)
  ⟨final, finished, run_refines_heap finished⟩

theorem valid_run {memory : Nat → UInt8} {calls : List PoolCall} {p : MemoryPool}
    (finished : run step (init memory) calls = some p) : Valid p :=
  run_invariant Valid ⟨[], ordered_init memory⟩
    (fun _ _ _ valid stepped => (step_refines valid stepped).1) finished

/-- In every reachable state the loops of allocation end, and it succeeds exactly when there
    is an entry and memory for the block, in one piece or in several. -/
theorem allocBlock_iff {memory : Nat → UInt8} {calls : List PoolCall} {p : MemoryPool}
    (finished : run step (init memory) calls = some p) {size : Nat} (positive : 0 < size) :
    ∃ handle q, p.allocBlock size = some (handle, q) ∧
      (handle ≠ noBlock ↔ Heap.Room (contents p) size) := by
  obtain ⟨handles, ordered⟩ := valid_run finished
  rcases ordered.allocBlock_spec positive with ⟨q, result, refused⟩ | ⟨entry, q, result, allocated⟩
  · refine ⟨noBlock, q, result, iff_of_false (not_not.mpr rfl) (refused.not_room ordered)⟩
  · have notNone : entry ≠ noBlock := Nat.ne_of_gt allocated.from_one
    exact ⟨entry, q, result, iff_of_true notNone (allocated.room_contents ordered)⟩

theorem allocBlock_iff_after_one :
    ∃ p, run step (init fun _ => 0) [.allocBlock 100 1] = some p ∧
      ∃ handle q, p.allocBlock 6043 = some (handle, q) ∧
        (handle ≠ noBlock ↔ Heap.Room (contents p) 6043) :=
  have ⟨p, finished⟩ := Option.isSome_iff_exists.mp (show (run _ _ _).isSome from rfl)
  ⟨p, finished, allocBlock_iff finished (by decide)⟩

end MemoryPool

end HomeAutomation.Uip
