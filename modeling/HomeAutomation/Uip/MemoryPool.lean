import HomeAutomation.Lib.Links
import HomeAutomation.Lib.Memory

/-! # The memory pool of the UIP library

`MemoryPool` (`mempool.cpp`) hands out blocks of the memory of the ENC28J60 chip.  The blocks
in use are linked in the order of their addresses, from an entry at `POOLSTART` that is never
in use; a block is allocated behind the block with the smallest sufficient gap behind it, and
if there is none, all blocks are moved together first.

The loops of the source follow the links; here they have a number of rounds, and a result
only if they end within them.  The memory is that of the chip.
-/

namespace HomeAutomation.Uip

open HomeAutomation.Lib.Memory

/-! ## `mempool_conf.h` -/

def poolStart : Nat := 0
def noBlock : Nat := 0
def poolOffset : Nat := 1

/-- Ten packets for each of four TCP connections, three for each of four UDP connections. -/
def memPoolNumMemBlocks : Nat := 52

/-- `TXSTART_INIT+1` -/
def memPoolStartAddress : Nat := 0x801

/-- `TXSTOP_INIT-TXSTART_INIT` -/
def memPoolSize : Nat := 0x17FF

/-! ## `mempool.cpp` -/

structure MemBlock where
  begin : Nat
  size : Nat
  nextblock : Nat
  deriving DecidableEq

/-- The first address behind a block. -/
def MemBlock.behind (block : MemBlock) : Nat := block.begin + block.size

structure MemoryPool where
  blocks : Nat → MemBlock
  memory : Nat → UInt8

namespace MemoryPool

def init (memory : Nat → UInt8) : MemoryPool where
  blocks := Function.update (fun _ => ⟨0, 0, noBlock⟩) poolStart ⟨memPoolStartAddress, 0, noBlock⟩
  memory

def limit (p : MemoryPool) : Nat := (p.blocks poolStart).begin + memPoolSize

def freesize (p : MemoryPool) (cur : Nat) : Nat :=
  let block := p.blocks cur
  let next := block.nextblock
  (if next = noBlock then p.limit else (p.blocks next).begin) - block.begin - block.size

/-- The loop of `allocBlock` that looks for the best gap. -/
def bestBlock (p : MemoryPool) (size : Nat) :
    (rounds cur : Nat) → (best : Option Nat) → (bestsize : Nat) → Option (Option Nat)
  | 0, _, _, _ => none
  | rounds + 1, cur, best, bestsize =>
    let next := (p.blocks cur).nextblock
    let freesize := p.freesize cur
    if freesize = size then some (some cur)
    else
      let (best, bestsize) :=
        if size < freesize ∧ freesize < bestsize then (some cur, freesize) else (best, bestsize)
      if next = noBlock then some best else p.bestBlock size rounds next best bestsize

/-- The body of `collect`: move the block behind `cur` down to it. -/
def pullNext (p : MemoryPool) (cur : Nat) : MemoryPool :=
  let next := (p.blocks cur).nextblock
  let dest := (p.blocks cur).behind
  let src := (p.blocks next).begin
  if dest ≠ src then
    { memory := move p.memory dest src (p.blocks next).size
      blocks := Function.update p.blocks next { p.blocks next with begin := dest } }
  else p

/-- `collect`: the pool and the last block. -/
def collect : (rounds : Nat) → MemoryPool → (cur : Nat) → Option (MemoryPool × Nat)
  | 0, _, _ => none
  | rounds + 1, p, cur =>
    let next := (p.blocks cur).nextblock
    if next = noBlock then some (p, cur) else collect rounds (p.pullNext cur) next

/-- The first entry that is not in use. -/
def freeEntry (p : MemoryPool) : Option Nat :=
  (List.range' poolOffset memPoolNumMemBlocks).find? fun cur => decide ((p.blocks cur).size = 0)

/-- Put a block of the given size behind `best`, in entry `cur`. -/
def insert (p : MemoryPool) (best size cur : Nat) : MemoryPool :=
  let block : MemBlock := ⟨(p.blocks best).behind, size, (p.blocks best).nextblock⟩
  let blocks := Function.update p.blocks cur block
  { p with blocks := Function.update blocks best { blocks best with nextblock := cur } }

/-- `found` -/
def found (p : MemoryPool) (best size : Nat) : Nat × MemoryPool :=
  match p.freeEntry with
  | some cur => (cur, p.insert best size cur)
  | none => (noBlock, p)

/-- Every loop over the blocks passes each entry once. -/
def rounds : Nat := memPoolNumMemBlocks + 1

/-- The handle, or `NOBLOCK`, and the pool. -/
def allocBlock (p : MemoryPool) (size : Nat) : Option (Nat × MemoryPool) := do
  match ← p.bestBlock size rounds poolStart none (memPoolSize + 1) with
  | some best => return p.found best size
  | none =>
    let (p, last) ← collect rounds p poolStart
    if size ≤ p.limit - (p.blocks last).begin - (p.blocks last).size then return p.found last size
    else return (noBlock, p)

/-- Take `next` out of the list, where it stands behind `b`. -/
def unlink (p : MemoryPool) (b next : Nat) : MemoryPool :=
  let blocks := Function.update p.blocks b { p.blocks b with nextblock := (p.blocks next).nextblock }
  { p with blocks := Function.update blocks next { blocks next with size := 0, nextblock := noBlock } }

def freeFrom (p : MemoryPool) (handle : Nat) : (rounds b : Nat) → Option MemoryPool
  | 0, _ => none
  | rounds + 1, b =>
    let next := (p.blocks b).nextblock
    if next = handle then some (p.unlink b next)
    else if next = noBlock then some p
    else p.freeFrom handle rounds next

def freeBlock (p : MemoryPool) (handle : Nat) : Option MemoryPool :=
  if handle = noBlock then some p else p.freeFrom handle rounds poolStart

def resizeBlock (p : MemoryPool) (handle position : Nat) : MemoryPool :=
  let block := p.blocks handle
  { p with
    blocks := Function.update p.blocks handle
      { block with begin := block.begin + position, size := block.size - position } }

/-- `resizeBlock` with a size -/
def resizeBlockTo (p : MemoryPool) (handle position size : Nat) : MemoryPool :=
  let block := p.blocks handle
  { p with
    blocks := Function.update p.blocks handle
      { block with begin := block.begin + position, size } }

def blockSize (p : MemoryPool) (handle : Nat) : Nat :=
  if handle = noBlock then 0 else (p.blocks handle).size

/-! ## `Enc28J60Network.cpp` -/

def readPacket (p : MemoryPool) (handle position len : Nat) : List UInt8 :=
  load id p.memory ((p.blocks handle).begin + position) (min len ((p.blocks handle).size - position))

/-- The number of bytes written, and the pool. -/
def writePacket (p : MemoryPool) (handle position : Nat) (buffer : List UInt8) :
    Nat × MemoryPool :=
  let len := min buffer.length ((p.blocks handle).size - position)
  (len, { p with
    memory := store id p.memory ((p.blocks handle).begin + position) (buffer.take len) })

/-- `copyPacket` between two blocks -/
def copyPacket (p : MemoryPool) (dest destPos src srcPos len : Nat) : MemoryPool :=
  { p with
    memory := move p.memory ((p.blocks dest).begin + destPos) ((p.blocks src).begin + srcPos) len }

end MemoryPool

end HomeAutomation.Uip
