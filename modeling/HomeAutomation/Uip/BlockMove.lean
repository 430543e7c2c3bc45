import HomeAutomation.Uip.Enc28J60
import HomeAutomation.Uip.PoolHeap

/-! # Blocks moved by the chip

The driver lets the chip copy bytes, from one block to another and from the receive buffer into
a block.  Inside the pool this is a plain move.  From the receive buffer it is one only as long as
the copy does not pass the end of the ring.
-/

namespace HomeAutomation.Uip

open HomeAutomation.Lib.Memory HomeAutomation.Lib.Transition

namespace Enc28J60

variable {memory : Nat → UInt8}

/-! ## Copies inside the pool -/

theorem dma_pool {src dest count rounds : Nat} (positive : 0 < count) (enough : count ≤ rounds)
    (pool : rxSize ≤ src) (srcInside : src + count ≤ ramSize) (destInside : dest + count ≤ ramSize) :
    dma (src + (count - 1)) rounds memory src dest = some (move memory dest src count) := by
  -- the induction is on the bytes that are left
  induction count generalizing memory src dest rounds with
  | zero => cases positive
  | succ count inductionHypothesis =>
    obtain ⟨rounds, rfl⟩ := Nat.exists_eq_add_of_lt enough
    rw [dma, move]
    by_cases last : count = 0
    case pos =>
      subst last
      rw [if_pos (show src = src + (0 + 1 - 1) from rfl)]
      rfl
    case neg =>
      have notLast : src ≠ src + (count + 1 - 1) := by omega
      rw [if_neg notLast, following_pool pool (by omega),
        Nat.mod_eq_of_lt (show dest + 1 < ramSize by omega),
        show src + (count + 1 - 1) = src + 1 + (count - 1) by omega]
      exact inductionHypothesis (by omega) (by omega) (by omega) (by omega) (by omega)

/-- The address of the last byte. -/
theorem toNat_last {src len : UInt16} (positive : 0 < len.toNat)
    (small : src.toNat + len.toNat ≤ 2 ^ 16) :
    (len + (src - 1)).toNat = src.toNat + (len.toNat - 1) := by
  have one : (1 : UInt16).toNat = 1 := rfl
  have srcSmall := src.toNat_lt
  rw [UInt16.toNat_add, UInt16.toNat_sub, one]
  omega

theorem Network.moveCallback_pool {dest src len : UInt16} (positive : 0 < len.toNat)
    (pool : rxSize ≤ src.toNat) (srcInside : src.toNat + len.toNat ≤ ramSize)
    (destInside : dest.toNat + len.toNat ≤ ramSize) :
    moveCallback memory dest src len = some (move memory dest.toNat src.toNat len.toNat) := by
  have beyond : ¬ src ≤ rxstopInit := by
    rw [UInt16.le_iff_toNat_le]
    exact Nat.not_le_of_lt pool
  have ram : ramSize = 8192 := rfl
  have last := toNat_last positive (show src.toNat + len.toNat ≤ 2 ^ 16 by omega)
  rw [moveCallback, register_eq (show src.toNat < ramSize by omega),
    register_eq (show dest.toNat < ramSize by omega)]
  by_cases single : len = 1
  case pos =>
    rw [if_pos single, single]
    rfl
  case neg =>
    rw [if_neg single]
    simp only [beyond, false_and, if_false]
    rw [register_eq (show (len + (src - 1)).toNat < ramSize by omega), last]
    exact dma_pool positive (by omega) pool srcInside destInside

/-! ## Copies from the receive buffer -/

theorem dma_ring {position dest count rounds : Nat} (positive : 0 < count)
    (whole : count ≤ rxSize) (enough : count ≤ rounds)
    (apart : ∀ i, i + 1 < count → rxSize ≤ (dest + i) % ramSize) :
    dma ((position + (count - 1)) % rxSize) rounds memory (position % rxSize) (dest % ramSize) =
      some (store (· % ramSize) memory dest (load (· % rxSize) memory position count)) := by
  induction count generalizing memory position dest rounds with
  | zero => cases positive
  | succ count inductionHypothesis =>
    obtain ⟨rounds, rfl⟩ := Nat.exists_eq_add_of_lt enough
    rw [dma, load, store]
    by_cases last : count = 0
    case pos =>
      subst last
      rw [if_pos (show position % rxSize = (position + (0 + 1 - 1)) % rxSize from rfl)]
      rfl
    case neg =>
      have notLast : position % rxSize ≠ (position + (count + 1 - 1)) % rxSize :=
        Ne.symm (mod_ne (i := 0) (j := count) (by omega) (by omega))
      have place := apart 0 (by omega)
      have same : load (· % rxSize)
          (Function.update memory (dest % ramSize) (memory (position % rxSize))) (position + 1)
          count = load (· % rxSize) memory (position + 1) count := by
        refine load_congr fun i _ => Function.update_of_ne ?_ _ _
        have ring : (position + 1 + i) % rxSize < rxSize := Nat.mod_lt _ (by decide)
        rw [Nat.add_zero] at place
        exact Nat.ne_of_lt (Nat.lt_of_lt_of_le ring place)
      rw [if_neg notLast, following_of_lt (Nat.mod_lt position (by decide)), Nat.mod_add_mod,
        Nat.mod_add_mod, show position + (count + 1 - 1) = position + 1 + (count - 1) by omega,
        ← same]
      refine inductionHypothesis (by omega) (by omega) (by omega) fun i inside => ?_
      rw [Nat.add_assoc, Nat.add_comm 1 i]
      exact apart (i + 1) (by omega)

/-- How many bytes too many are copied. -/
def surplus (address len : Nat) : Nat := late ((address + late address) % rxSize + (len - 1))

theorem surplus_le_one (address len : Nat) : surplus address len ≤ 1 := late_le_one _

theorem Network.moveCallback_ring {address dest len : UInt16} (positive : 0 < len.toNat)
    (small : address.toNat < 4095) (short : len.toNat < rxSize) (pool : rxSize ≤ dest.toNat)
    (inside : dest.toNat + len.toNat ≤ ramSize) :
    moveCallback memory dest (wrapped address) len =
      some (store (· % ramSize) memory dest.toNat
        (load (· % rxSize) memory (address.toNat + late address.toNat)
          (len.toNat + surplus address.toNat len.toNat))) := by
  have ring : rxSize = 2048 := rfl
  have ram : ramSize = 8192 := rfl
  have stop : rxstopInit.toNat = 2047 := rfl
  have srcPlace := toNat_wrapped small
  have last := toNat_last (show 0 < len.toNat from positive)
    (show (wrapped address).toNat + len.toNat ≤ 2 ^ 16 by rw [ring] at *; omega)
  have first : wrapped address ≤ rxstopInit := by
    rw [UInt16.le_iff_toNat_le]
    rw [ring] at *
    omega
  rw [moveCallback, register_eq (show (wrapped address).toNat < ramSize by rw [ring] at *; omega)]
  by_cases single : len = 1
  case pos =>
    -- the address of a single byte lies in the ring already
    have none : surplus address.toNat (1 : UInt16).toNat = 0 := by
      rw [surplus, late, ← srcPlace, if_neg]
      rw [ring] at srcPlace
      simp only [UInt16.reduceToNat]
      omega
    rw [if_pos single, single, none, srcPlace]
    rfl
  case neg =>
    rw [if_neg single]
    dsimp only
    have lastPlace : register (if wrapped address ≤ rxstopInit ∧
        len + (wrapped address - 1) > rxstopInit then
          len + (wrapped address - 1) - (rxstopInit - rxstartInit)
        else len + (wrapped address - 1)) =
        (address.toNat + late address.toNat +
          (len.toNat + surplus address.toNat len.toNat - 1)) % rxSize := by
      rw [surplus, ← srcPlace, ← last]
      by_cases beyond : len + (wrapped address - 1) > rxstopInit
      case pos =>
        -- 2047 is taken off, one less than the ring has
        have above := UInt16.lt_iff_toNat_lt.mp beyond
        have gap : rxstopInit - rxstartInit = rxstopInit := rfl
        have less : (len + (wrapped address - 1) - rxstopInit).toNat =
            (len + (wrapped address - 1)).toNat - 2047 := by
          rw [UInt16.toNat_sub_of_le _ _ (UInt16.le_iff_toNat_le.mpr above.le), stop]
        rw [if_pos ⟨first, beyond⟩, gap, register_eq (by rw [less, ram]; rw [ring] at *; omega),
          less, show late (len + (wrapped address - 1)).toNat = 1 from if_pos above]
        rw [ring] at srcPlace short ⊢
        omega
      case neg =>
        have below : ¬ rxstopInit.toNat < (len + (wrapped address - 1)).toNat := fun above =>
          beyond (UInt16.lt_iff_toNat_lt.mpr above)
        rw [if_neg fun both => beyond both.2, register_eq (by rw [ram]; omega),
          show late (len + (wrapped address - 1)).toNat = 0 from if_neg below]
        rw [ring] at *
        omega
    -- the DMA goes from the first place to the last, once around at most
    have few := surplus_le_one address.toNat len.toNat
    rw [lastPlace, srcPlace]
    refine dma_ring (by omega) (by omega) (by omega) fun i before => ?_
    rw [Nat.mod_eq_of_lt (by omega)]
    omega

/-- What ends before the end of the ring is copied as it is. -/
theorem Network.moveCallback_inside {address dest len : UInt16} (positive : 0 < len.toNat)
    (short : len.toNat < rxSize) (within : address.toNat + len.toNat ≤ rxSize)
    (pool : rxSize ≤ dest.toNat) (inside : dest.toNat + len.toNat ≤ ramSize) :
    moveCallback memory dest (wrapped address) len =
      some (store id memory dest.toNat (load (· % rxSize) memory address.toNat len.toNat)) := by
  have ring : rxSize = 2048 := rfl
  have first : late address.toNat = 0 := late_of_lt (by omega)
  have last : surplus address.toNat len.toNat = 0 := by
    rw [surplus, first, Nat.add_zero, Nat.mod_eq_of_lt (by omega)]
    exact late_of_lt (by omega)
  rw [moveCallback_ring positive (by omega) short pool inside, first, last, Nat.add_zero,
    Nat.add_zero]
  refine congrArg some (store_congr (fun i before => ?_) _)
  rw [length_load] at before
  exact Nat.mod_eq_of_lt (by omega)

theorem Network.copyPacket_eq {n : Network} {dest srcPos len : UInt16} (positive : 0 < len.toNat)
    (begins : n.begin.toNat < rxSize) (short : srcPos.toNat + len.toNat < rxSize)
    (pool : rxSize ≤ dest.toNat) (inside : dest.toNat + len.toNat ≤ ramSize) :
    n.copyPacket dest srcPos len = some
      (Network.setERXRDPT { n with
        memory := store (· % ramSize) n.memory dest.toNat
          (load (· % rxSize) n.memory
            (n.begin.toNat + srcPos.toNat + late (n.begin.toNat + srcPos.toNat))
            (len.toNat + surplus (n.begin.toNat + srcPos.toNat) len.toNat)) }) := by
  have ring : rxSize = 2048 := rfl
  have sum : (n.begin + srcPos).toNat = n.begin.toNat + srcPos.toNat := by
    rw [UInt16.toNat_add]
    exact Nat.mod_eq_of_lt (by omega)
  rw [copyPacket, moveCallback_ring positive (by omega) (by omega) pool inside, sum]
  rfl

/-- A copy from one place too far shows its first byte. -/
theorem exists_ne_of_shifted {position dest count copied : Nat} (positive : 0 < count)
    (few : 0 < copied) (short : copied ≤ ramSize) (inside : dest < ramSize) :
    ∃ memory : Nat → UInt8,
      store (· % ramSize) memory dest (load (· % rxSize) memory (position + 1) copied) ≠
        store id memory dest (load (· % rxSize) memory position count) := by
  let memory : Nat → UInt8 := fun a => if a = position % rxSize then 1 else 0
  refine ⟨memory, fun same => ?_⟩
  have left : store (· % ramSize) memory dest (load (· % rxSize) memory (position + 1) copied)
      (dest % ramSize) = memory ((position + 1) % rxSize) :=
    store_load_at (i := 0) few fun j behind below => mod_ne behind (by omega)
  have right : store id memory dest (load (· % rxSize) memory position count) dest =
      memory (position % rxSize) :=
    store_load_at (i := 0) positive fun j behind _ => by simp only [id]; omega
  have other : (position + 1) % rxSize ≠ position % rxSize := by
    rw [rxSize]
    omega
  have set : memory (position % rxSize) = 1 := if_pos rfl
  have unset : memory ((position + 1) % rxSize) = 0 := if_neg other
  have here := congrFun same dest
  rw [Nat.mod_eq_of_lt inside] at left
  rw [left, right, set, unset] at here
  exact absurd here (by decide)

/-- A copy of one byte more shows that byte. -/
theorem exists_ne_of_longer {position dest count : Nat} (short : count < rxSize)
    (pool : rxSize ≤ dest) (inside : dest + count ≤ ramSize)
    (notStart : (position + count) % rxSize ≠ 0) :
    ∃ memory : Nat → UInt8,
      store (· % ramSize) memory dest (load (· % rxSize) memory position (count + 1)) ≠
        store id memory dest (load (· % rxSize) memory position count) := by
  have ring : rxSize = 2048 := rfl
  have ram : ramSize = 8192 := rfl
  let memory : Nat → UInt8 := fun a => if a = (position + count) % rxSize then 1 else 0
  refine ⟨memory, fun same => ?_⟩
  have left : store (· % ramSize) memory dest (load (· % rxSize) memory position (count + 1))
      ((dest + count) % ramSize) = memory ((position + count) % rxSize) :=
    store_load_at (Nat.lt_succ_self _) fun j behind below => by omega
  have right : store id memory dest (load (· % rxSize) memory position count)
      ((dest + count) % ramSize) = memory ((dest + count) % ramSize) := by
    refine store_other fun j below => ?_
    rw [length_load] at below
    rw [ram]
    simp only [id]
    omega
  have other : (dest + count) % ramSize ≠ (position + count) % rxSize := by
    rw [ring] at notStart pool ⊢
    rw [ram]
    omega
  have set : memory ((position + count) % rxSize) = 1 := if_pos rfl
  have unset : memory ((dest + count) % ramSize) = 0 := if_neg other
  have here := congrFun same ((dest + count) % ramSize)
  rw [left, right, set, unset] at here
  exact absurd here (by decide)

/-- The part of the packet is copied, and nothing else changes, whatever the memory holds:
    exactly if the part does not reach behind the end of the ring.  If it passes the end, one byte
    more is copied; if all of it lies behind the end, it is taken from one place too far. -/
theorem copyPacket_exact_iff {begin dest srcPos len : UInt16} (positive : 0 < len.toNat)
    (begins : begin.toNat < rxSize) (short : srcPos.toNat + len.toNat < rxSize)
    (pool : rxSize ≤ dest.toNat) (inside : dest.toNat + len.toNat ≤ ramSize) :
    ((∀ n : Network, n.begin = begin →
        (n.copyPacket dest srcPos len).map Network.memory =
          some (store id n.memory dest.toNat
            (load (· % rxSize) n.memory (begin.toNat + srcPos.toNat) len.toNat))) ↔
      begin.toNat + srcPos.toNat + len.toNat ≤ rxSize) ∧
    ∀ n : Network, n.begin = begin → rxSize < begin.toNat + srcPos.toNat + len.toNat →
      (n.copyPacket dest srcPos len).map Network.memory =
        some (store (· % ramSize) n.memory dest.toNat
          (if begin.toNat + srcPos.toNat < rxSize then
            load (· % rxSize) n.memory (begin.toNat + srcPos.toNat) (len.toNat + 1)
          else load (· % rxSize) n.memory (begin.toNat + srcPos.toNat + 1) len.toNat)) := by
  have ring : rxSize = 2048 := rfl
  have ram : ramSize = 8192 := rfl
  have sum : (begin + srcPos).toNat = begin.toNat + srcPos.toNat := by
    rw [UInt16.toNat_add]
    exact Nat.mod_eq_of_lt (by omega)
  have otherwise (n : Network) (isBegin : n.begin = begin)
      (passes : rxSize < begin.toNat + srcPos.toNat + len.toNat) :
      (n.copyPacket dest srcPos len).map Network.memory =
        some (store (· % ramSize) n.memory dest.toNat
          (if begin.toNat + srcPos.toNat < rxSize then
            load (· % rxSize) n.memory (begin.toNat + srcPos.toNat) (len.toNat + 1)
          else load (· % rxSize) n.memory (begin.toNat + srcPos.toNat + 1) len.toNat)) := by
    subst isBegin
    rw [Network.copyPacket_eq positive begins short pool inside, Option.map_some]
    by_cases before : n.begin.toNat + srcPos.toNat < rxSize
    case pos =>
      have first : late (n.begin.toNat + srcPos.toNat) = 0 := late_of_lt before
      have more : surplus (n.begin.toNat + srcPos.toNat) len.toNat = 1 := by
        rw [surplus, first, Nat.add_zero, Nat.mod_eq_of_lt before]
        exact late_of_le (by omega)
      rw [if_pos before, first, more]
      rfl
    case neg =>
      have first : late (n.begin.toNat + srcPos.toNat) = 1 := late_of_le (Nat.le_of_not_lt before)
      have none : surplus (n.begin.toNat + srcPos.toNat) len.toNat = 0 := by
        rw [surplus, first]
        exact late_of_lt (by rw [ring]; omega)
      rw [if_neg before, first, none]
      rfl
  refine ⟨⟨fun exact => ?_, fun within n isBegin => ?_⟩, otherwise⟩
  · by_contra passes
    -- in each case some memory shows the difference
    have copied (memory : Nat → UInt8) := (otherwise { Network.init memory with begin } rfl
      (Nat.lt_of_not_le passes)).symm.trans (exact { Network.init memory with begin } rfl)
    by_cases before : begin.toNat + srcPos.toNat < rxSize
    case pos =>
      obtain ⟨memory, differs⟩ := exists_ne_of_longer (show len.toNat < rxSize by omega)
        pool inside (show (begin.toNat + srcPos.toNat + len.toNat) % rxSize ≠ 0 by
          rw [ring]
          omega)
      have same := Option.some.inj (copied memory)
      rw [if_pos before] at same
      exact differs same
    case neg =>
      obtain ⟨memory, differs⟩ := exists_ne_of_shifted positive positive (by omega)
        (show dest.toNat < ramSize by omega)
      have same := Option.some.inj (copied memory)
      rw [if_neg before] at same
      exact differs same
  · subst isBegin
    rw [Network.copyPacket, Network.moveCallback_inside positive (by omega) (by rw [sum]; omega)
      pool inside, sum]
    rfl

/-- A packet of 60 bytes at the start of the ring, and one at its end. -/
theorem copyPacket_exact_iff_whole :
    (∀ n : Network, n.begin = 6 →
        (n.copyPacket 0x801 0 60).map Network.memory =
          some (store id n.memory 0x801 (load (· % rxSize) n.memory 6 60))) ∧
      (¬ ∀ n : Network, n.begin = 2000 →
        (n.copyPacket 0x801 0 60).map Network.memory =
          some (store id n.memory 0x801 (load (· % rxSize) n.memory 2000 60))) ∧
      ∀ n : Network, n.begin = 2000 →
        (n.copyPacket 0x801 0 60).map Network.memory =
          some (store (· % ramSize) n.memory 0x801 (load (· % rxSize) n.memory 2000 61)) :=
  ⟨(copyPacket_exact_iff (by decide) (by decide) (by decide) (by decide)
      (by decide)).1.mpr (by decide),
    fun exact => absurd ((copyPacket_exact_iff (by decide) (by decide) (by decide) (by decide)
      (by decide)).1.mp exact) (by decide),
    fun n isBegin => (copyPacket_exact_iff (by decide) (by decide) (by decide) (by decide)
      (by decide)).2 n isBegin (by decide)⟩

end Enc28J60

/-! ## The compaction of the pool -/

namespace MemoryPool

variable {p : MemoryPool} {handles first second : List Nat} {cur : Nat}

/-- `MEMPOOL_MEMBLOCK_MV`, as the chip does it. -/
def pullNextByChip (p : MemoryPool) (cur : Nat) : Option MemoryPool :=
  let next := (p.blocks cur).nextblock
  let dest := (p.blocks cur).behind
  let src := (p.blocks next).begin
  if dest ≠ src then do
    let memory ← Enc28J60.Network.moveCallback p.memory (UInt16.ofNat dest) (UInt16.ofNat src)
      (UInt16.ofNat (p.blocks next).size)
    return { memory, blocks := Function.update p.blocks next { p.blocks next with begin := dest } }
  else some p

def collectByChip : (rounds : Nat) → MemoryPool → (cur : Nat) → Option (MemoryPool × Nat)
  | 0, _, _ => none
  | rounds + 1, p, cur => do
    let next := (p.blocks cur).nextblock
    if next = noBlock then some (p, cur)
    else
      let p ← p.pullNextByChip cur
      collectByChip rounds p next

/-- A block lies behind the receive buffer. -/
theorem Ordered.place (ordered : Ordered p handles) {h : Nat} (block : h ∈ handles) :
    Enc28J60.rxSize ≤ (p.blocks h).begin ∧
      (p.blocks h).begin + (p.blocks h).size ≤ Enc28J60.ramSize := by
  have behindBuffer : Enc28J60.rxSize ≤ memPoolStartAddress := by decide
  have poolEnd : memPoolStartAddress + memPoolSize = Enc28J60.ramSize := rfl
  have start := ordered.start_le_begin (List.mem_cons_of_mem _ block)
  have inside := ordered.inside h (List.mem_cons_of_mem _ block)
  rw [MemBlock.behind, poolEnd] at inside
  exact ⟨behindBuffer.trans start, inside⟩

/-- Every block that is moved has something in it, and lies in the pool. -/
theorem Ordered.pullNextByChip_eq (ordered : Ordered p handles) {next : Nat} {rest : List Nat}
    (split : poolStart :: handles = first ++ cur :: next :: rest) :
    p.pullNextByChip cur = some (p.pullNext cur) := by
  have successor : (p.blocks cur).nextblock = next := by
    rw [ordered.nextblock_eq split, List.headD_cons]
  have isBlock : next ∈ handles := mem_of_behind split List.mem_cons_self
  have member : cur ∈ poolStart :: handles := by
    rw [split]
    exact List.mem_append_right _ List.mem_cons_self
  have before : (p.blocks cur).behind ≤ (p.blocks next).begin := by
    have sorted := ordered.sorted
    rw [split, List.pairwise_append, List.pairwise_cons] at sorted
    exact sorted.2.1.1 next List.mem_cons_self
  have notEmpty : 0 < (p.blocks next).size := Nat.pos_of_ne_zero ((ordered.used next).mpr isBlock)
  obtain ⟨behindBuffer, inside⟩ := ordered.place isBlock
  have ram : Enc28J60.ramSize = 8192 := rfl
  have word {v : Nat} (small : v ≤ Enc28J60.ramSize) : (UInt16.ofNat v).toNat = v := by
    rw [UInt16.toNat_ofNat']
    exact Nat.mod_eq_of_lt (by omega)
  rw [pullNextByChip, pullNext, successor]
  dsimp only
  split
  case isFalse => rfl
  case isTrue =>
    rw [Enc28J60.Network.moveCallback_pool (by rw [word (by omega)]; exact notEmpty)
      (by rw [word (by omega)]; exact behindBuffer)
      (by rw [word (by omega), word (by omega)]; omega)
      (by rw [word (by omega), word (by omega)]; omega), word (by omega), word (by omega),
      word (by omega)]
    rfl

theorem Ordered.collectByChip_eq {rounds : Nat} (ordered : Ordered p handles)
    (split : poolStart :: handles = first ++ cur :: second) (enough : second.length < rounds) :
    collectByChip rounds p cur = collect rounds p cur := by
  induction second generalizing first cur p rounds with
  | nil =>
    obtain ⟨rounds, rfl⟩ := Nat.exists_eq_add_of_lt enough
    have last := (ordered.nextblock_eq_noBlock split).mpr rfl
    rw [collectByChip, collect, if_pos last, if_pos last]
  | cons next rest inductionHypothesis =>
    obtain ⟨rounds, rfl⟩ := Nat.exists_eq_add_of_lt enough
    have successor := ordered.nextblock_eq split
    have notLast : (p.blocks cur).nextblock ≠ noBlock := fun zero => by
      cases (ordered.nextblock_eq_noBlock split).mp zero
    have later : poolStart :: handles = (first ++ [cur]) ++ next :: rest := by
      rw [split, List.append_assoc, List.singleton_append]
    rw [collectByChip, collect, if_neg notLast, if_neg notLast, ordered.pullNextByChip_eq split,
      successor, List.headD_cons]
    exact inductionHypothesis (ordered.pullNext_spec split).1 later (by
      rw [List.length_cons]
      omega)

/-- In a pool that can be reached, every copy the compaction asks the chip for ends, and is a
    plain move. -/
theorem collect_by_chip {memory : Nat → UInt8} {calls : List PoolCall}
    (finished : run step (init memory) calls = some p) :
    ∃ q last, collectByChip rounds p poolStart = some (q, last) ∧
      collect rounds p poolStart = some (q, last) ∧ contents q = contents p := by
  obtain ⟨handles, ordered⟩ := valid_run finished
  have enough : handles.length < rounds := Nat.lt_succ_of_le ordered.length_le
  obtain ⟨q, last, collected, _, _, kept, _⟩ := ordered.collect_spec (List.nil_append _).symm enough
  refine ⟨q, last, ?_, collected, kept⟩
  rw [ordered.collectByChip_eq (List.nil_append _).symm enough, collected]

/-- The second block is moved to where the first has been. -/
theorem collect_by_chip_two :
    ∃ p, run step (init fun _ => 0)
          [.allocBlock 3 1, .allocBlock 2 2, .writePacket 2 0 [7, 8] 2, .freeBlock 1] = some p ∧
      ∃ q last, collectByChip rounds p poolStart = some (q, last) ∧
        collect rounds p poolStart = some (q, last) ∧ contents q = contents p :=
  have ⟨p, finished⟩ := Option.isSome_iff_exists.mp (show (run _ _ _).isSome from rfl)
  ⟨p, finished, collect_by_chip finished⟩

end MemoryPool

end HomeAutomation.Uip
