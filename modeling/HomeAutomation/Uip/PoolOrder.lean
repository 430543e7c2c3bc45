import HomeAutomation.Uip.MemoryPool
import Mathlib

/-! # The order of the blocks

`Ordered p handles`: the blocks in use are `handles`, linked in this order, and lie behind
each other inside the pool.  Allocation keeps this, and the contents of the blocks, wherever
it moves them.
-/

namespace HomeAutomation.Uip.MemoryPool

open HomeAutomation.Lib.Memory HomeAutomation.Lib.Links

variable {p : MemoryPool} {handles first second : List Nat} {cur next best size entry : Nat}

/-! ## Contents -/

/-- The content of a block. -/
def contents (p : MemoryPool) (h : Nat) : List UInt8 :=
  load id p.memory (p.blocks h).begin (p.blocks h).size

theorem contents_eq_nil {h : Nat} (unused : (p.blocks h).size = 0) : contents p h = [] := by
  rw [contents, unused, load]

@[simp] theorem length_contents (p : MemoryPool) (h : Nat) :
    (contents p h).length = (p.blocks h).size := length_load _ _ _ _

/-- A block whose place and cells stay keeps its content. -/
theorem contents_congr {q : MemoryPool} {h : Nat} (place : (q.blocks h).begin = (p.blocks h).begin)
    (size : (q.blocks h).size = (p.blocks h).size)
    (cells : ∀ a, (p.blocks h).begin ≤ a → a < (p.blocks h).behind → q.memory a = p.memory a) :
    contents q h = contents p h := by
  rw [contents, contents, place, size]
  apply load_congr
  intro i inside
  exact cells _ (Nat.le_add_right _ _) (Nat.add_lt_add_left inside _)

/-- Two pools that differ in the places of their blocks only. -/
def SameEntries (p q : MemoryPool) : Prop :=
  ∀ h, (q.blocks h).size = (p.blocks h).size ∧ (q.blocks h).nextblock = (p.blocks h).nextblock

/-- The receive buffer is not touched. -/
def SameBelow (p q : MemoryPool) : Prop := ∀ a < memPoolStartAddress, q.memory a = p.memory a

/-- The bytes in use. -/
def total (p : MemoryPool) (handles : List Nat) : Nat :=
  (handles.map fun h => (p.blocks h).size).sum

theorem total_congr {q : MemoryPool} (entries : SameEntries p q) (nodes : List Nat) :
    total q nodes = total p nodes := by
  rw [total, total]
  exact congrArg List.sum (List.map_congr_left fun h _ => (entries h).1)

/-- Blocks that lie behind each other have room between their ends. -/
theorem sum_le_of_sorted {start stop : Nat} {nodes : List Nat}
    (sorted : nodes.Pairwise fun a b => (p.blocks a).behind ≤ (p.blocks b).begin)
    (lower : ∀ h ∈ nodes, start ≤ (p.blocks h).begin) (upper : ∀ h ∈ nodes, (p.blocks h).behind ≤ stop) :
    total p nodes ≤ stop - start := by
  induction nodes generalizing start with
  | nil => exact Nat.zero_le _
  | cons node nodes inductionHypothesis =>
    rw [List.pairwise_cons] at sorted
    have rest : total p nodes ≤ stop - (p.blocks node).behind :=
      inductionHypothesis sorted.2 sorted.1 fun h member => upper h (List.mem_cons_of_mem _ member)
    have place := lower node List.mem_cons_self
    have inside := upper node List.mem_cons_self
    rw [total, List.map_cons, List.sum_cons]
    rw [total] at rest
    rw [MemBlock.behind] at inside rest
    omega

/-! ## Single entries -/

theorem pullNext_next (successor : (p.blocks cur).nextblock = next) :
    (p.pullNext cur).blocks next = { p.blocks next with begin := (p.blocks cur).behind } := by
  rw [pullNext, successor]
  split
  case isTrue => exact Function.update_self _ _ _
  case isFalse noGap => rw [not_not.mp noGap]

theorem pullNext_other {h : Nat} (successor : (p.blocks cur).nextblock = next)
    (other : h ≠ next) : (p.pullNext cur).blocks h = p.blocks h := by
  rw [pullNext, successor]
  split
  case isTrue => exact Function.update_of_ne other _ _
  case isFalse => rfl

theorem pullNext_memory {a : Nat} (successor : (p.blocks cur).nextblock = next)
    (outside : a < (p.blocks cur).behind ∨ (p.blocks cur).behind + (p.blocks next).size ≤ a) :
    (p.pullNext cur).memory a = p.memory a := by
  rw [pullNext, successor]
  split
  case isTrue => exact move_other outside
  case isFalse => rfl

theorem pullNext_load (successor : (p.blocks cur).nextblock = next)
    (before : (p.blocks cur).behind ≤ (p.blocks next).begin) :
    load id (p.pullNext cur).memory (p.blocks cur).behind (p.blocks next).size =
      contents p next := by
  rw [pullNext, successor]
  split
  case isTrue => exact load_move (Or.inl before)
  case isFalse noGap => rw [not_not.mp noGap, contents]

theorem freeEntry_some (found : p.freeEntry = some entry) :
    1 ≤ entry ∧ entry ≤ memPoolNumMemBlocks ∧ (p.blocks entry).size = 0 := by
  have member := List.mem_of_find?_eq_some found
  have unused := List.find?_some found
  rw [List.mem_range'_1] at member
  simp only [poolOffset, decide_eq_true_eq] at member unused
  exact ⟨member.1, by omega, unused⟩

theorem freeEntry_none (found : p.freeEntry = none) (from_one : 1 ≤ entry)
    (to_last : entry ≤ memPoolNumMemBlocks) : (p.blocks entry).size ≠ 0 := by
  have all := List.find?_eq_none.mp found entry (by
    rw [List.mem_range'_1, poolOffset]
    omega)
  simpa using all

theorem insert_entry (different : entry ≠ best) :
    (p.insert best size entry).blocks entry =
      ⟨(p.blocks best).behind, size, (p.blocks best).nextblock⟩ := by
  simp [insert, Function.update_of_ne different]

theorem insert_best : ((p.insert best size entry).blocks best).nextblock = entry := by
  simp [insert]

theorem insert_place (different : entry ≠ best) {h : Nat} (other : h ≠ entry) :
    ((p.insert best size entry).blocks h).begin = (p.blocks h).begin ∧
      ((p.insert best size entry).blocks h).size = (p.blocks h).size := by
  by_cases isBest : h = best
  · subst isBest
    simp [insert, Function.update_of_ne other]
  · simp [insert, Function.update_of_ne other, Function.update_of_ne isBest]

theorem insert_other {h : Nat} (other : h ≠ entry) (notBest : h ≠ best) :
    (p.insert best size entry).blocks h = p.blocks h := by
  simp [insert, Function.update_of_ne other, Function.update_of_ne notBest]

/-! ## The order -/

structure Ordered (p : MemoryPool) (handles : List Nat) : Prop where
  origin : (p.blocks poolStart).begin = memPoolStartAddress
  empty : (p.blocks poolStart).size = 0
  linked : Linked (fun h => (p.blocks h).nextblock) noBlock (poolStart :: handles)
  distinct : (poolStart :: handles).Nodup
  entries : ∀ h ∈ handles, h ≤ memPoolNumMemBlocks
  used : ∀ h, (p.blocks h).size ≠ 0 ↔ h ∈ handles
  sorted : (poolStart :: handles).Pairwise fun a b => (p.blocks a).behind ≤ (p.blocks b).begin
  inside : ∀ h ∈ poolStart :: handles, (p.blocks h).behind ≤ memPoolStartAddress + memPoolSize

theorem ordered_init (memory : Nat → UInt8) : Ordered (init memory) [] where
  origin := rfl
  empty := rfl
  linked := linked_singleton.mpr rfl
  distinct := List.nodup_singleton _
  entries _ member := by cases member
  used h := by
    have unused : ((init memory).blocks h).size = 0 := by
      by_cases start : h = poolStart
      · subst start
        rfl
      · simp [init, Function.update_of_ne start]
    simp [unused]
  sorted := List.pairwise_singleton _ _
  inside h member := by
    rw [List.mem_singleton] at member
    subst member
    exact Nat.le_add_right _ _

namespace Ordered

theorem not_poolStart (ordered : Ordered p handles) {h : Nat} (member : h ∈ handles) :
    h ≠ poolStart := by
  rintro rfl
  exact (List.nodup_cons.mp ordered.distinct).1 member

theorem start_behind (ordered : Ordered p handles) :
    (p.blocks poolStart).behind = memPoolStartAddress := by
  rw [MemBlock.behind, ordered.origin, ordered.empty, Nat.add_zero]

theorem limit_eq (ordered : Ordered p handles) :
    p.limit = memPoolStartAddress + memPoolSize := by
  rw [limit, ordered.origin]

theorem start_le_begin (ordered : Ordered p handles) {h : Nat} (member : h ∈ poolStart :: handles) :
    memPoolStartAddress ≤ (p.blocks h).begin := by
  rcases List.mem_cons.mp member with rfl | used
  · exact ordered.origin.ge
  · rw [← ordered.start_behind]
    exact (List.pairwise_cons.mp ordered.sorted).1 h used

/-- Two blocks have no byte in common. -/
theorem apart (ordered : Ordered p handles) {a b : Nat} (memberA : a ∈ handles)
    (memberB : b ∈ handles) (different : a ≠ b) :
    (p.blocks a).behind ≤ (p.blocks b).begin ∨ (p.blocks b).behind ≤ (p.blocks a).begin := by
  have either := (List.pairwise_cons.mp ordered.sorted).2.imp
    (S := fun a b => (p.blocks a).behind ≤ (p.blocks b).begin ∨
      (p.blocks b).behind ≤ (p.blocks a).begin) Or.inl
  have symmetric : Std.Symm fun a b => (p.blocks a).behind ≤ (p.blocks b).begin ∨
      (p.blocks b).behind ≤ (p.blocks a).begin := ⟨fun _ _ => Or.symm⟩
  exact either.forall memberA memberB different

theorem nextblock_eq (ordered : Ordered p handles)
    (split : poolStart :: handles = first ++ cur :: second) :
    (p.blocks cur).nextblock = second.headD noBlock := by
  have linked := ordered.linked
  rw [split] at linked
  exact linked.next_eq

/-- The nodes behind another one are blocks. -/
theorem mem_of_behind (split : poolStart :: handles = first ++ cur :: second) {h : Nat}
    (member : h ∈ second) : h ∈ handles := by
  cases first with
  | nil =>
    rw [List.nil_append, List.cons.injEq] at split
    rw [split.2]
    exact member
  | cons a first =>
    rw [List.cons_append, List.cons.injEq] at split
    rw [split.2]
    exact List.mem_append_right _ (List.mem_cons_of_mem _ member)

theorem nextblock_eq_noBlock (ordered : Ordered p handles)
    (split : poolStart :: handles = first ++ cur :: second) :
    (p.blocks cur).nextblock = noBlock ↔ second = [] := by
  rw [ordered.nextblock_eq split]
  cases second with
  | nil => simp
  | cons next rest =>
    have member : next ∈ handles := mem_of_behind split List.mem_cons_self
    have isBlock : next ≠ noBlock := ordered.not_poolStart member
    simpa using isBlock

/-- The gap behind a block. -/
theorem freesize_eq (ordered : Ordered p handles)
    (split : poolStart :: handles = first ++ cur :: second) :
    p.freesize cur =
      (match second with
        | [] => memPoolStartAddress + memPoolSize
        | next :: _ => (p.blocks next).begin) - (p.blocks cur).behind := by
  have last := ordered.nextblock_eq_noBlock split
  have successor := ordered.nextblock_eq split
  rw [freesize, MemBlock.behind, Nat.sub_sub]
  cases second with
  | nil => rw [if_pos (last.mpr rfl), ordered.limit_eq]
  | cons next rest =>
    have notLast : (p.blocks cur).nextblock ≠ noBlock := fun zero => by cases last.mp zero
    rw [if_neg notLast, successor, List.headD_cons]

theorem freesize_le (ordered : Ordered p handles)
    (member : cur ∈ poolStart :: handles) : p.freesize cur ≤ memPoolSize := by
  obtain ⟨first, second, split⟩ := List.append_of_mem member
  have start := ordered.start_le_begin member
  rw [ordered.freesize_eq split, MemBlock.behind]
  cases second with
  | nil => dsimp only; omega
  | cons next rest =>
    have member : next ∈ handles := mem_of_behind split List.mem_cons_self
    have inside := ordered.inside next (List.mem_cons_of_mem _ member)
    rw [MemBlock.behind] at inside
    dsimp only
    omega

/-- As many handles as there are entries at most. -/
theorem length_le (ordered : Ordered p handles) : handles.length ≤ memPoolNumMemBlocks := by
  have subset : handles ⊆ List.range' poolOffset memPoolNumMemBlocks := by
    intro h member
    have notStart := ordered.not_poolStart member
    have entry := ordered.entries h member
    rw [List.mem_range'_1]
    simp only [poolStart, poolOffset] at *
    omega
  have bound := ((List.nodup_cons.mp ordered.distinct).2.subperm subset).length_le
  rwa [List.length_range'] at bound

theorem total_le (ordered : Ordered p handles) : total p handles ≤ memPoolSize := by
  have bound := sum_le_of_sorted (List.pairwise_cons.mp ordered.sorted).2
    (fun h member => ordered.start_le_begin (List.mem_cons_of_mem _ member))
    (fun h member => ordered.inside h (List.mem_cons_of_mem _ member))
  rwa [Nat.add_sub_cancel_left] at bound

end Ordered

/-! ## The best gap -/

/-- `best` has the smallest sufficient gap of all of `nodes`, if there is one. -/
def Best (p : MemoryPool) (size : Nat) (nodes : List Nat) : Option Nat → Prop
  | none => ∀ node ∈ nodes, p.freesize node < size
  | some best => best ∈ nodes ∧ size ≤ p.freesize best ∧
      ∀ node ∈ nodes, size ≤ p.freesize node → p.freesize best ≤ p.freesize node

/-- What the loop knows: `bestsize` is the size of the best gap, or more than there is. -/
def Looked (p : MemoryPool) (size : Nat) (nodes : List Nat) (best : Option Nat)
    (bestsize : Nat) : Prop :=
  Best p size nodes best ∧ bestsize = best.elim (memPoolSize + 1) p.freesize

theorem best_of_exact {nodes : List Nat} (member : cur ∈ nodes)
    (fits : p.freesize cur = size) : Best p size nodes (some cur) :=
  ⟨member, fits.ge, fun _ _ fitsNode => fits.le.trans fitsNode⟩

namespace Ordered

theorem looked_next (ordered : Ordered p handles) {best : Option Nat} {bestsize : Nat}
    (split : poolStart :: handles = first ++ cur :: second)
    (looked : Looked p size first best bestsize) (differs : p.freesize cur ≠ size) :
    ∀ pair, pair = (if size < p.freesize cur ∧ p.freesize cur < bestsize then
        (some cur, p.freesize cur) else (best, bestsize)) →
      Looked p size (first ++ [cur]) pair.1 pair.2 := by
  have small := ordered.freesize_le (show cur ∈ poolStart :: handles by rw [split]; simp)
  obtain ⟨known, measured⟩ := looked
  rintro pair rfl
  cases best with
  | none =>
    rw [Option.elim_none] at measured
    split
    case isTrue better =>
      refine ⟨⟨by simp, better.1.le, fun node member fits => ?_⟩, rfl⟩
      rcases List.mem_append.mp member with before | here
      · exact absurd fits (Nat.not_le_of_lt (known node before))
      · rw [List.mem_singleton.mp here]
    case isFalse worse =>
      refine ⟨fun node member => ?_, measured⟩
      rcases List.mem_append.mp member with before | here
      · exact known node before
      · rw [List.mem_singleton.mp here]
        omega
  | some best =>
    rw [Option.elim_some] at measured
    obtain ⟨member, fits, least⟩ := known
    split
    case isTrue better =>
      refine ⟨⟨by simp, better.1.le, fun node member fitsNode => ?_⟩, rfl⟩
      rcases List.mem_append.mp member with before | here
      · have below := least node before fitsNode
        omega
      · rw [List.mem_singleton.mp here]
    case isFalse worse =>
      refine ⟨⟨List.mem_append_left _ member, fits, fun node memberNode fitsNode => ?_⟩, measured⟩
      rcases List.mem_append.mp memberNode with before | here
      · exact least node before fitsNode
      · rw [List.mem_singleton.mp here] at fitsNode ⊢
        omega

/-- The loop ends, and finds the best gap. -/
theorem bestBlock_spec (ordered : Ordered p handles) {best : Option Nat}
    {bestsize rounds : Nat} (split : poolStart :: handles = first ++ cur :: second)
    (looked : Looked p size first best bestsize) (enough : second.length < rounds) :
    ∃ result, p.bestBlock size rounds cur best bestsize = some result ∧
      Best p size (poolStart :: handles) result := by
  induction second generalizing first cur best bestsize rounds with
  | nil =>
    obtain ⟨rounds, rfl⟩ := Nat.exists_eq_add_of_lt enough
    have last := (ordered.nextblock_eq_noBlock split).mpr rfl
    by_cases fits : p.freesize cur = size
    case pos =>
      exact ⟨some cur, by rw [bestBlock, if_pos fits], best_of_exact (by rw [split]; simp) fits⟩
    case neg =>
      rw [bestBlock, if_neg fits]
      generalize chosen : (if size < p.freesize cur ∧ p.freesize cur < bestsize then
        (some cur, p.freesize cur) else (best, bestsize)) = pair
      have looked := ordered.looked_next split looked fits pair chosen.symm
      rw [← split] at looked
      exact ⟨pair.1, if_pos last, looked.1⟩
  | cons next rest inductionHypothesis =>
    obtain ⟨rounds, rfl⟩ := Nat.exists_eq_add_of_lt enough
    have successor := ordered.nextblock_eq split
    have notLast : (p.blocks cur).nextblock ≠ noBlock := fun zero => by
      cases (ordered.nextblock_eq_noBlock split).mp zero
    by_cases fits : p.freesize cur = size
    case pos =>
      exact ⟨some cur, by rw [bestBlock, if_pos fits], best_of_exact (by rw [split]; simp) fits⟩
    case neg =>
      rw [bestBlock, if_neg fits]
      generalize chosen : (if size < p.freesize cur ∧ p.freesize cur < bestsize then
        (some cur, p.freesize cur) else (best, bestsize)) = pair
      have looked := ordered.looked_next split looked fits pair chosen.symm
      rw [successor, List.headD_cons] at notLast
      simp only [successor, List.headD_cons, if_neg notLast]
      refine inductionHypothesis ?_ looked (by rw [List.length_cons]; omega)
      rw [split, List.append_assoc, List.singleton_append]

/-! ## Moving the blocks together -/

/-- The blocks before `next` end where `cur` ends, and the others begin where `next` ends. -/
theorem beside (ordered : Ordered p handles) {rest : List Nat}
    (split : poolStart :: handles = first ++ cur :: next :: rest) {h : Nat}
    (member : h ∈ poolStart :: handles) (other : h ≠ next) :
    (p.blocks h).behind ≤ (p.blocks cur).behind ∨
      (p.blocks next).behind ≤ (p.blocks h).begin := by
  have sorted := ordered.sorted
  rw [split, List.pairwise_append, List.pairwise_cons, List.pairwise_cons] at sorted
  obtain ⟨_, ⟨_, behindNext, _⟩, before⟩ := sorted
  rw [split, List.mem_append, List.mem_cons, List.mem_cons] at member
  rcases member with early | rfl | rfl | late
  · have below := before h early cur List.mem_cons_self
    exact Or.inl (below.trans (Nat.le_add_right _ _))
  · exact Or.inl (Nat.le_refl _)
  · exact absurd rfl other
  · exact Or.inr (behindNext h late)

/-- Blocks may be moved, and their sizes changed, as long as their order stays. -/
theorem rearranged (ordered : Ordered p handles) {q : MemoryPool}
    (start : q.blocks poolStart = p.blocks poolStart)
    (links : ∀ h, (q.blocks h).nextblock = (p.blocks h).nextblock)
    (used : ∀ h, (q.blocks h).size = 0 ↔ (p.blocks h).size = 0)
    (sorted : ∀ a ∈ poolStart :: handles, ∀ b ∈ handles, a ≠ b →
      (p.blocks a).behind ≤ (p.blocks b).begin → (q.blocks a).behind ≤ (q.blocks b).begin)
    (inside : ∀ h ∈ handles, (q.blocks h).behind ≤ memPoolStartAddress + memPoolSize) :
    Ordered q handles where
  origin := by rw [start, ordered.origin]
  empty := by rw [start, ordered.empty]
  linked := ordered.linked.congr fun h _ => links h
  distinct := ordered.distinct
  entries := ordered.entries
  used h := by rw [ne_eq, used h, ← ordered.used h]
  sorted := by
    have before := List.pairwise_cons.mp ordered.sorted
    have different := List.nodup_cons.mp ordered.distinct
    refine List.pairwise_cons.mpr ⟨fun b block => ?_, ?_⟩
    · exact sorted poolStart List.mem_cons_self b block (ordered.not_poolStart block).symm
        (before.1 b block)
    · refine (before.2.and different.2).imp_of_mem fun {a b} memberA memberB holds => ?_
      exact sorted a (List.mem_cons_of_mem _ memberA) b memberB holds.2 holds.1
  inside h member := by
    rcases List.mem_cons.mp member with rfl | block
    · rw [start]
      exact ordered.inside poolStart List.mem_cons_self
    · exact inside h block

/-- Moving the block behind `cur` down to it. -/
theorem pullNext_spec (ordered : Ordered p handles) {rest : List Nat}
    (split : poolStart :: handles = first ++ cur :: next :: rest) :
    Ordered (p.pullNext cur) handles ∧ SameEntries p (p.pullNext cur) ∧
      contents (p.pullNext cur) = contents p ∧
      ((p.pullNext cur).blocks next).begin = (p.blocks cur).behind := by
  have successor : (p.blocks cur).nextblock = next := by
    rw [ordered.nextblock_eq split, List.headD_cons]
  have isBlock : next ∈ handles := mem_of_behind split List.mem_cons_self
  have before : (p.blocks cur).behind ≤ (p.blocks next).begin := by
    have sorted := ordered.sorted
    rw [split, List.pairwise_append, List.pairwise_cons] at sorted
    exact sorted.2.1.1 next List.mem_cons_self
  have notEmpty : 0 < (p.blocks next).size := Nat.pos_of_ne_zero ((ordered.used next).mpr isBlock)
  have size : (p.blocks next).behind = (p.blocks next).begin + (p.blocks next).size := rfl
  -- the block only moves down, so it stays in front of those behind it
  have here := pullNext_next successor
  have lower : ((p.pullNext cur).blocks next).behind ≤ (p.blocks next).behind := by
    rw [here]
    exact Nat.add_le_add_right before _
  have entries : SameEntries p (p.pullNext cur) := by
    intro h
    by_cases other : h = next
    · rw [other, here]
      exact ⟨rfl, rfl⟩
    · rw [pullNext_other successor other]
      exact ⟨rfl, rfl⟩
  refine ⟨ordered.rearranged (pullNext_other successor (ordered.not_poolStart isBlock).symm)
    (fun h => (entries h).2) (fun h => by rw [(entries h).1]) ?_ ?_, entries, ?_, by rw [here]⟩
  · intro a memberA b memberB differ sorted
    by_cases isNext : a = next
    · subst isNext
      rw [pullNext_other successor differ.symm]
      exact lower.trans sorted
    · rw [pullNext_other successor isNext]
      by_cases toNext : b = next
      · subst toNext
        rw [here]
        rcases ordered.beside split memberA isNext with below | above
        · exact below
        · -- a block behind `next` is not before it
          have place : (p.blocks a).begin ≤ (p.blocks a).behind := Nat.le_add_right _ _
          omega
      · rw [pullNext_other successor toNext]
        exact sorted
  · intro h block
    have inside := ordered.inside h (List.mem_cons_of_mem _ block)
    by_cases isNext : h = next
    · subst isNext
      exact lower.trans inside
    · rw [pullNext_other successor isNext]
      exact inside
  · funext h
    by_cases isNext : h = next
    · subst isNext
      rw [contents, here]
      exact pullNext_load successor before
    · -- the others lie in front of the place it is moved to, or behind the one it came from
      by_cases block : h ∈ handles
      · refine contents_congr (by rw [pullNext_other successor isNext]) (entries h).1
          fun a from_begin to_behind => pullNext_memory successor ?_
        rcases ordered.beside split (List.mem_cons_of_mem _ block) isNext with below | above
        · omega
        · omega
      · have unused : (p.blocks h).size = 0 := by
          by_contra used
          exact block ((ordered.used h).mp used)
        rw [contents_eq_nil unused, contents_eq_nil ((entries h).1.trans unused)]

/-- `collect` ends; no block has a gap before it then, and its content is where it is now. -/
theorem collect_spec {rounds : Nat} (ordered : Ordered p handles)
    (split : poolStart :: handles = first ++ cur :: second) (enough : second.length < rounds) :
    ∃ q last, collect rounds p cur = some (q, last) ∧ Ordered q handles ∧ SameEntries p q ∧
      contents q = contents p ∧ (∃ before, poolStart :: handles = before ++ [last]) ∧
      (q.blocks last).behind =
        (p.blocks cur).behind + (second.map fun h => (p.blocks h).size).sum ∧ SameBelow p q := by
  induction second generalizing first cur p rounds with
  | nil =>
    obtain ⟨rounds, rfl⟩ := Nat.exists_eq_add_of_lt enough
    have last := (ordered.nextblock_eq_noBlock split).mpr rfl
    exact ⟨p, cur, if_pos last, ordered, fun _ => ⟨rfl, rfl⟩, rfl, ⟨first, split⟩, rfl,
      fun _ _ => rfl⟩
  | cons next rest inductionHypothesis =>
    obtain ⟨rounds, rfl⟩ := Nat.exists_eq_add_of_lt enough
    have successor := ordered.nextblock_eq split
    have notLast : (p.blocks cur).nextblock ≠ noBlock := fun zero => by
      cases (ordered.nextblock_eq_noBlock split).mp zero
    obtain ⟨stays, entries, kept, place⟩ := ordered.pullNext_spec split
    have later : poolStart :: handles = (first ++ [cur]) ++ next :: rest := by
      rw [split, List.append_assoc, List.singleton_append]
    have still : rest.length < (next :: rest).length + rounds := by
      rw [List.length_cons]
      omega
    obtain ⟨q, last, collected, orderedQ, entriesQ, keptQ, atEnd, behind, below⟩ :=
      inductionHypothesis stays later still
    refine ⟨q, last, ?_, orderedQ, fun h => ?_, keptQ.trans kept, atEnd, ?_, fun a small => ?_⟩
    · rw [collect, if_neg notLast, successor, List.headD_cons]
      exact collected
    · exact ⟨(entriesQ h).1.trans (entries h).1, (entriesQ h).2.trans (entries h).2⟩
    · have sizes : (rest.map fun h => ((p.pullNext cur).blocks h).size) =
          rest.map fun h => (p.blocks h).size := List.map_congr_left fun h _ => (entries h).1
      rw [behind, sizes, MemBlock.behind, place, (entries next).1, List.map_cons, List.sum_cons,
        Nat.add_assoc]
    · have isNode : cur ∈ poolStart :: handles := by simp [split]
      have start := ordered.start_le_begin isNode
      rw [below a small]
      refine pullNext_memory (by rw [successor, List.headD_cons]) (Or.inl ?_)
      exact Nat.lt_of_lt_of_le small (start.trans (Nat.le_add_right _ _))

/-! ## A new block -/

/-- What fits into the gap behind a block ends before the blocks behind it. -/
theorem gap_spec (ordered : Ordered p handles)
    (split : poolStart :: handles = first ++ cur :: second) (positive : 0 < size)
    (fits : size ≤ p.freesize cur) :
    (p.blocks cur).behind + size ≤ memPoolStartAddress + memPoolSize ∧
      ∀ h ∈ second, (p.blocks cur).behind + size ≤ (p.blocks h).begin := by
  rw [ordered.freesize_eq split] at fits
  cases second with
  | nil =>
    dsimp only at fits
    exact ⟨by omega, fun h member => by cases member⟩
  | cons next rest =>
    dsimp only at fits
    have inside := ordered.inside next
      (List.mem_cons_of_mem _ (mem_of_behind split List.mem_cons_self))
    have sorted := ordered.sorted
    rw [split, List.pairwise_append, List.pairwise_cons, List.pairwise_cons] at sorted
    obtain ⟨_, ⟨_, behindNext, _⟩, _⟩ := sorted
    have size_next : (p.blocks next).begin ≤ (p.blocks next).behind := Nat.le_add_right _ _
    refine ⟨by omega, fun h member => ?_⟩
    rcases List.mem_cons.mp member with rfl | later
    · omega
    · have above := behindNext h later
      omega

/-- The order of the blocks with the new one. -/
theorem exists_inserted (split : poolStart :: handles = first ++ best :: second) :
    ∃ inserted, poolStart :: inserted = first ++ best :: entry :: second ∧
      inserted.Perm (entry :: handles) := by
  obtain ⟨inserted, eq⟩ : ∃ inserted, poolStart :: inserted = first ++ best :: entry :: second := by
    cases first with
    | nil =>
      rw [List.nil_append, List.cons.injEq] at split
      exact ⟨entry :: second, by rw [split.1, List.nil_append]⟩
    | cons a first =>
      rw [List.cons_append, List.cons.injEq] at split
      exact ⟨first ++ best :: entry :: second, by rw [split.1, List.cons_append]⟩
  have moved : (first ++ best :: entry :: second).Perm (entry :: (first ++ best :: second)) := by
    rw [List.append_cons first best (entry :: second), List.append_cons first best second]
    exact List.perm_middle
  rw [← eq, ← split] at moved
  exact ⟨inserted, eq, (List.perm_cons poolStart).mp (moved.trans (List.Perm.swap _ _ _))⟩

/-- Putting a block into a sufficient gap. -/
theorem insert_spec (ordered : Ordered p handles)
    (member : best ∈ poolStart :: handles) (positive : 0 < size) (fits : size ≤ p.freesize best)
    (from_one : 1 ≤ entry) (to_last : entry ≤ memPoolNumMemBlocks)
    (unused : (p.blocks entry).size = 0) :
    ∃ inserted, Ordered (p.insert best size entry) inserted ∧ inserted.Perm (entry :: handles) ∧
      ((p.insert best size entry).blocks entry).size = size ∧
      ∀ h, h ≠ entry → contents (p.insert best size entry) h = contents p h := by
  obtain ⟨first, second, split⟩ := List.append_of_mem member
  obtain ⟨inserted, eq, perm⟩ : ∃ inserted, poolStart :: inserted = first ++ best :: entry :: second ∧
      inserted.Perm (entry :: handles) := exists_inserted split
  obtain ⟨bound, later⟩ := ordered.gap_spec split positive fits
  have notBlock : entry ∉ handles := fun block => (ordered.used entry).mpr block unused
  have notStart : entry ≠ poolStart := Nat.ne_of_gt from_one
  have notMember : entry ∉ poolStart :: handles := by
    rw [List.mem_cons, not_or]
    exact ⟨notStart, notBlock⟩
  have different : entry ≠ best := fun same => notMember (same ▸ member)
  have here : (p.insert best size entry).blocks entry =
      ⟨(p.blocks best).behind, size, (p.blocks best).nextblock⟩ := insert_entry different
  have notEntry : ∀ h ∈ poolStart :: handles, h ≠ entry := by
    rintro h node rfl
    exact notMember node
  -- all other blocks stay where they are
  have place : ∀ h ∈ poolStart :: handles,
      ((p.insert best size entry).blocks h).begin = (p.blocks h).begin ∧
        ((p.insert best size entry).blocks h).size = (p.blocks h).size :=
    fun h node => insert_place different (notEntry h node)
  have ends : ∀ h ∈ poolStart :: handles,
      ((p.insert best size entry).blocks h).behind = (p.blocks h).behind := by
    intro h node
    rw [MemBlock.behind, MemBlock.behind, (place h node).1, (place h node).2]
  have endsEntry : ((p.insert best size entry).blocks entry).behind =
      (p.blocks best).behind + size := by rw [here, MemBlock.behind]
  refine ⟨inserted, ?_, perm, by rw [here], fun h other => ?_⟩
  · constructor
    case origin => rw [(place poolStart List.mem_cons_self).1, ordered.origin]
    case empty => rw [(place poolStart List.mem_cons_self).2, ordered.empty]
    case linked =>
      have linked := ordered.linked
      have distinct := ordered.distinct
      rw [split] at linked distinct
      rw [eq]
      refine linked.insert distinct insert_best (by rw [here]) fun old node notBest => ?_
      rw [← split] at node
      rw [insert_other (notEntry old node) notBest]
    case distinct =>
      rw [(perm.cons poolStart).nodup_iff, (List.Perm.swap entry poolStart handles).nodup_iff]
      exact List.nodup_cons.mpr ⟨notMember, ordered.distinct⟩
    case entries =>
      intro h block
      rcases List.mem_cons.mp (perm.mem_iff.mp block) with rfl | old
      · exact to_last
      · exact ordered.entries h old
    case used =>
      intro h
      rw [perm.mem_iff, List.mem_cons]
      by_cases isEntry : h = entry
      · subst isEntry
        rw [here]
        simp [positive.ne']
      · rw [(insert_place different isEntry).2, ordered.used h]
        simp [isEntry]
    case sorted =>
      have old : (poolStart :: handles).Pairwise fun a b =>
          ((p.insert best size entry).blocks a).behind ≤
            ((p.insert best size entry).blocks b).begin := by
        refine ordered.sorted.imp_of_mem fun {a b} nodeA nodeB holds => ?_
        rw [ends a nodeA, (place b nodeB).1]
        exact holds
      have behindBest : ((p.insert best size entry).blocks entry).begin =
          (p.blocks best).behind := by rw [here]
      rw [split, List.pairwise_append, List.pairwise_cons] at old
      obtain ⟨oldFirst, ⟨oldBest, oldSecond⟩, across⟩ := old
      rw [eq, List.pairwise_append, List.pairwise_cons, List.pairwise_cons]
      -- `best` and what is behind it, the new block and what is behind it, and what is before both
      refine ⟨oldFirst, ⟨fun b node => ?_, fun b node => ?_, oldSecond⟩, fun a nodeA b nodeB => ?_⟩
      · rcases List.mem_cons.mp node with rfl | behind
        · rw [behindBest, ends best member]
        · exact oldBest b behind
      · have inList : b ∈ poolStart :: handles := by
          rw [split]
          exact List.mem_append_right _ (List.mem_cons_of_mem _ node)
        rw [endsEntry, (place b inList).1]
        exact later b node
      · rcases List.mem_cons.mp nodeB with rfl | nodeB
        · exact across a nodeA b List.mem_cons_self
        · rcases List.mem_cons.mp nodeB with rfl | behind
          · have below := across a nodeA best List.mem_cons_self
            rw [(place best member).1] at below
            rw [behindBest]
            exact below.trans (Nat.le_add_right _ _)
          · exact across a nodeA b (List.mem_cons_of_mem _ behind)
    case inside =>
      intro h node
      rcases List.mem_cons.mp node with rfl | block
      · rw [ends poolStart List.mem_cons_self]
        exact ordered.inside poolStart List.mem_cons_self
      · rcases List.mem_cons.mp (perm.mem_iff.mp block) with rfl | old
        · rw [endsEntry]
          exact bound
        · rw [ends h (List.mem_cons_of_mem _ old)]
          exact ordered.inside h (List.mem_cons_of_mem _ old)
  · exact contents_congr (insert_place different other).1 (insert_place different other).2
      fun _ _ _ => rfl

end Ordered

/-! ## Allocation -/

/-- What allocation does, where it succeeds: a block that was not in use gets the size asked
    for, and all others keep their contents. -/
structure Allocated (p : MemoryPool) (handles : List Nat) (size entry : Nat) (q : MemoryPool) :
    Prop where
  from_one : 1 ≤ entry
  to_last : entry ≤ memPoolNumMemBlocks
  unused : contents p entry = []
  ordered : ∃ inserted, Ordered q inserted
  length : (contents q entry).length = size
  kept : ∀ h, h ≠ entry → contents q h = contents p h
  below : SameBelow p q
  room : total p handles + size ≤ memPoolSize

/-- Where it fails: nothing changes, and there was no entry, or not enough memory. -/
structure Refused (p : MemoryPool) (handles : List Nat) (size : Nat) (q : MemoryPool) : Prop where
  ordered : Ordered q handles
  kept : contents q = contents p
  below : SameBelow p q
  reason : (∀ entry, 1 ≤ entry → entry ≤ memPoolNumMemBlocks → contents p entry ≠ []) ∨
    memPoolSize < total p handles + size

namespace Ordered

theorem found_spec (ordered : Ordered p handles) (member : best ∈ poolStart :: handles)
    (positive : 0 < size) (fits : size ≤ p.freesize best) :
    (∃ q, p.found best size = (noBlock, q) ∧ Refused p handles size q) ∨
      ∃ entry q, p.found best size = (entry, q) ∧ Allocated p handles size entry q := by
  rw [found]
  cases free : p.freeEntry with
  | none =>
    refine Or.inl ⟨p, rfl, ordered, rfl, fun _ _ => rfl, Or.inl fun entry from_one to_last empty => ?_⟩
    apply freeEntry_none free from_one to_last
    rw [← length_contents, empty, List.length_nil]
  | some entry =>
    obtain ⟨from_one, to_last, unused⟩ := freeEntry_some free
    obtain ⟨inserted, orderedQ, perm, length, kept⟩ :=
      ordered.insert_spec member positive fits from_one to_last unused
    refine Or.inr ⟨entry, _, rfl, from_one, to_last, contents_eq_nil unused, ⟨inserted, orderedQ⟩,
      by rw [length_contents, length], kept, fun _ _ => rfl, ?_⟩
    have bound := orderedQ.total_le
    have notBlock : ∀ h ∈ handles, h ≠ entry := by
      rintro h block rfl
      exact (ordered.used h).mpr block unused
    have sizes : (handles.map fun h => ((p.insert best size entry).blocks h).size) =
        handles.map fun h => (p.blocks h).size := by
      refine List.map_congr_left fun h block => ?_
      rw [← length_contents, kept h (notBlock h block), length_contents]
    rw [total, (perm.map _).sum_eq, List.map_cons, List.sum_cons, length, sizes] at bound
    rw [total]
    omega

theorem allocBlock_spec (ordered : Ordered p handles) (positive : 0 < size) :
    (∃ q, p.allocBlock size = some (noBlock, q) ∧ Refused p handles size q) ∨
      ∃ entry q, p.allocBlock size = some (entry, q) ∧ Allocated p handles size entry q := by
  have enough : handles.length < rounds := Nat.lt_succ_of_le ordered.length_le
  have all : poolStart :: handles = [] ++ poolStart :: handles := rfl
  have nothing : Looked p size [] none (memPoolSize + 1) := ⟨List.forall_mem_nil _, rfl⟩
  obtain ⟨result, searched, best⟩ := ordered.bestBlock_spec all nothing enough
  rw [allocBlock, searched, Option.bind_eq_bind, Option.bind_some]
  cases result with
  | some best =>
    rcases ordered.found_spec best.1 positive best.2.1 with ⟨q, result, refused⟩ |
      ⟨entry, q, result, allocated⟩
    · exact Or.inl ⟨q, congrArg some result, refused⟩
    · exact Or.inr ⟨entry, q, congrArg some result, allocated⟩
  | none =>
    obtain ⟨moved, last, collected, orderedQ, entries, kept, ⟨before, atEnd⟩, behind, below⟩ :=
      ordered.collect_spec all enough
    have isNode : last ∈ poolStart :: handles := by simp [atEnd]
    have sizes := total_congr entries handles
    have gap : moved.limit - (moved.blocks last).begin - (moved.blocks last).size =
        memPoolSize - total p handles := by
      rw [ordered.start_behind] at behind
      rw [orderedQ.limit_eq, Nat.sub_sub, ← MemBlock.behind, behind, total]
      omega
    have free : moved.freesize last = memPoolSize - total p handles := by
      rw [← gap, freesize, (orderedQ.nextblock_eq_noBlock atEnd).mpr rfl, if_pos rfl]
    simp only [collected, Option.bind_eq_bind, Option.bind_some, gap]
    split
    case isTrue fits =>
      rcases orderedQ.found_spec isNode positive (free ▸ fits) with ⟨q, result, refused⟩ |
        ⟨entry, q, result, allocated⟩
      · refine Or.inl ⟨q, congrArg some result, refused.ordered, refused.kept.trans kept,
          fun a small => (refused.below a small).trans (below a small), ?_⟩
        rw [← kept, ← sizes]
        exact refused.reason
      · refine Or.inr ⟨entry, q, congrArg some result, ?_⟩
        obtain ⟨from_one, to_last, unused, ordered, length, others, belowQ, room⟩ := allocated
        rw [kept] at unused others
        rw [sizes] at room
        exact ⟨from_one, to_last, unused, ordered, length, others,
          fun a small => (belowQ a small).trans (below a small), room⟩
    case isFalse full =>
      refine Or.inl ⟨moved, rfl, orderedQ, kept, below, Or.inr ?_⟩
      have bound := ordered.total_le
      omega

end Ordered

end HomeAutomation.Uip.MemoryPool
