import HomeAutomation.Uip.PoolOrder

/-! # Freeing, resizing and writing

The other operations on the blocks: each keeps the order, and changes the content of one
block only.
-/

namespace HomeAutomation.Uip.MemoryPool

open HomeAutomation.Lib.Memory HomeAutomation.Lib.Links

variable {p : MemoryPool} {handles first second rest : List Nat} {cur b next handle position : Nat}

/-! ## Freeing -/

theorem unlink_next : ((p.unlink b next).blocks next).size = 0 := by
  simp [unlink]

theorem unlink_before (different : b ≠ next) :
    ((p.unlink b next).blocks b).nextblock = (p.blocks next).nextblock := by
  simp [unlink, Function.update_of_ne different]

theorem unlink_place {h : Nat} (other : h ≠ next) :
    ((p.unlink b next).blocks h).begin = (p.blocks h).begin ∧
      ((p.unlink b next).blocks h).size = (p.blocks h).size := by
  by_cases isBefore : h = b
  · subst isBefore
    simp [unlink, Function.update_of_ne other]
  · simp [unlink, Function.update_of_ne other, Function.update_of_ne isBefore]

theorem unlink_other {h : Nat} (other : h ≠ next) (notBefore : h ≠ b) :
    (p.unlink b next).blocks h = p.blocks h := by
  simp [unlink, Function.update_of_ne other, Function.update_of_ne notBefore]

/-- What stays when a block is freed, or was not in use. -/
structure Freed (p : MemoryPool) (handle : Nat) (q : MemoryPool) : Prop where
  ordered : ∃ remaining, Ordered q remaining
  freed : contents q handle = []
  kept : ∀ h, h ≠ handle → contents q h = contents p h

namespace Ordered

theorem unlink_spec (ordered : Ordered p handles)
    (split : poolStart :: handles = first ++ b :: next :: rest) :
    ∃ remaining, Ordered (p.unlink b next) remaining ∧ contents (p.unlink b next) next = [] ∧
      ∀ h, h ≠ next → contents (p.unlink b next) h = contents p h := by
  obtain ⟨remaining, eq⟩ : ∃ remaining, poolStart :: remaining = first ++ b :: rest := by
    cases first with
    | nil =>
      rw [List.nil_append, List.cons.injEq] at split
      exact ⟨rest, by rw [split.1, List.nil_append]⟩
    | cons a first =>
      rw [List.cons_append, List.cons.injEq] at split
      exact ⟨first ++ b :: rest, by rw [split.1, List.cons_append]⟩
  have isBlock : next ∈ handles := mem_of_behind split List.mem_cons_self
  have distinct := ordered.distinct
  rw [split] at distinct
  have sublist : (poolStart :: remaining).Sublist (poolStart :: handles) := by
    rw [eq, split]
    exact (List.Sublist.refl first).append (((List.sublist_cons_self next rest)).cons_cons b)
  have gone : next ∉ poolStart :: remaining := by
    rw [List.append_cons, List.nodup_middle, ← List.append_cons, ← eq] at distinct
    exact (List.nodup_cons.mp distinct).1
  have notNext : ∀ h ∈ poolStart :: remaining, h ≠ next := by
    rintro h node rfl
    exact gone node
  have different : b ≠ next := notNext b (by rw [eq]; simp)
  have member : ∀ h, h ≠ next → (h ∈ remaining ↔ h ∈ handles) := by
    intro h other
    have nodes : h ∈ poolStart :: remaining ↔ h ∈ poolStart :: handles := by
      rw [eq, split]
      simp [other]
    by_cases isStart : h = poolStart
    · subst isStart
      have left := (List.nodup_cons.mp (ordered.distinct.sublist sublist)).1
      exact iff_of_false left (List.nodup_cons.mp ordered.distinct).1
    · simpa [isStart] using nodes
  have ends : ∀ h ∈ poolStart :: remaining,
      ((p.unlink b next).blocks h).behind = (p.blocks h).behind := by
    intro h node
    rw [MemBlock.behind, MemBlock.behind, (unlink_place (notNext h node)).1,
      (unlink_place (notNext h node)).2]
  refine ⟨remaining, ?_, contents_eq_nil unlink_next, fun h other => ?_⟩
  · constructor
    case origin => rw [(unlink_place (notNext poolStart List.mem_cons_self)).1, ordered.origin]
    case empty => rw [(unlink_place (notNext poolStart List.mem_cons_self)).2, ordered.empty]
    case linked =>
      have linked := ordered.linked
      rw [split] at linked
      rw [eq]
      refine linked.remove (unlink_before different) fun kept node => ?_
      have inList : kept ∈ poolStart :: remaining := by
        rw [eq]
        rcases List.mem_append.mp node with before | behind
        · exact List.mem_append_left _ before
        · exact List.mem_append_right _ (List.mem_cons_of_mem _ behind)
      rw [unlink_other (notNext kept inList)]
      rintro rfl
      have nodup := ordered.distinct.sublist sublist
      rw [eq, List.nodup_middle] at nodup
      exact (List.nodup_cons.mp nodup).1 node
    case distinct => exact ordered.distinct.sublist sublist
    case entries =>
      intro h block
      exact ordered.entries h ((member h (notNext h (List.mem_cons_of_mem _ block))).mp block)
    case used =>
      intro h
      by_cases isNext : h = next
      · subst isNext
        refine iff_of_false (not_not.mpr unlink_next) fun block => ?_
        exact gone (List.mem_cons_of_mem _ block)
      · rw [(unlink_place isNext).2, member h isNext, ordered.used h]
    case sorted =>
      refine (ordered.sorted.sublist sublist).imp_of_mem fun {a c} nodeA nodeC holds => ?_
      rw [ends a nodeA, (unlink_place (notNext c nodeC)).1]
      exact holds
    case inside =>
      intro h node
      rw [ends h node]
      exact ordered.inside h (sublist.subset node)
  · exact contents_congr (unlink_place other).1 (unlink_place other).2 fun _ _ _ => rfl

theorem freed_unused (ordered : Ordered p handles) (notBlock : handle ∉ handles) :
    Freed p handle p where
  ordered := ⟨handles, ordered⟩
  freed := contents_eq_nil (not_not.mp (mt (ordered.used handle).mp notBlock))
  kept _ _ := rfl

theorem freeFrom_spec (ordered : Ordered p handles) {rounds : Nat}
    (split : poolStart :: handles = first ++ cur :: second) (enough : second.length < rounds)
    (notBefore : handle ∉ first ++ [cur]) :
    ∃ q, p.freeFrom handle rounds cur = some q ∧ Freed p handle q := by
  induction second generalizing first cur rounds with
  | nil =>
    obtain ⟨rounds, rfl⟩ := Nat.exists_eq_add_of_lt enough
    have last := (ordered.nextblock_eq_noBlock split).mpr rfl
    have notNode : handle ∉ poolStart :: handles := by rwa [split]
    rw [List.mem_cons, not_or] at notNode
    have isHandle : noBlock ≠ handle := Ne.symm notNode.1
    refine ⟨p, ?_, ordered.freed_unused notNode.2⟩
    rw [freeFrom, last, if_neg isHandle, if_pos rfl]
  | cons next rest inductionHypothesis =>
    obtain ⟨rounds, rfl⟩ := Nat.exists_eq_add_of_lt enough
    have successor : (p.blocks cur).nextblock = next := by
      rw [ordered.nextblock_eq split, List.headD_cons]
    have notLast : next ≠ noBlock := fun zero => by
      cases (ordered.nextblock_eq_noBlock split).mp (successor.trans zero)
    by_cases here : next = handle
    case pos =>
      subst here
      obtain ⟨remaining, freed⟩ := ordered.unlink_spec split
      refine ⟨p.unlink cur next, ?_, ⟨remaining, freed.1⟩, freed.2.1, freed.2.2⟩
      rw [freeFrom, successor, if_pos rfl]
    case neg =>
      have later : poolStart :: handles = (first ++ [cur]) ++ next :: rest := by
        rw [split, List.append_assoc, List.singleton_append]
      have still : rest.length < (next :: rest).length + rounds := by
        rw [List.length_cons]
        omega
      obtain ⟨q, freed, spec⟩ :=
        inductionHypothesis later still (by simpa [Ne.symm here] using notBefore)
      refine ⟨q, ?_, spec⟩
      rw [freeFrom, successor, if_neg here, if_neg notLast]
      exact freed

theorem freeBlock_spec (ordered : Ordered p handles) (handle : Nat) :
    ∃ q, p.freeBlock handle = some q ∧ Freed p handle q := by
  rw [freeBlock]
  by_cases none : handle = noBlock
  case pos =>
    rw [if_pos none]
    exact ⟨p, rfl, ordered.freed_unused fun block => ordered.not_poolStart block none⟩
  case neg =>
    rw [if_neg none]
    have all : poolStart :: handles = [] ++ poolStart :: handles := rfl
    refine ordered.freeFrom_spec all (Nat.lt_succ_of_le ordered.length_le) ?_
    rw [List.nil_append, List.mem_singleton]
    exact none

end Ordered

/-! ## Resizing -/

theorem resizeBlockTo_other {size h : Nat} (other : h ≠ handle) :
    (p.resizeBlockTo handle position size).blocks h = p.blocks h :=
  Function.update_of_ne other _ _

theorem resizeBlockTo_self {size : Nat} :
    (p.resizeBlockTo handle position size).blocks handle =
      { p.blocks handle with begin := (p.blocks handle).begin + position, size } :=
  Function.update_self _ _ _

namespace Ordered

/-- A block may be cut at both ends. -/
theorem resizeBlockTo_spec (ordered : Ordered p handles) {size : Nat}
    (positive : 0 < size) (inside : position + size ≤ (p.blocks handle).size) :
    Ordered (p.resizeBlockTo handle position size) handles ∧
      contents (p.resizeBlockTo handle position size) =
        Function.update (contents p) handle (((contents p handle).drop position).take size) := by
  have block : handle ∈ handles := (ordered.used handle).mp (by omega)
  have here : (p.resizeBlockTo handle position size).blocks handle =
      { p.blocks handle with begin := (p.blocks handle).begin + position, size } :=
    resizeBlockTo_self
  have lower : (p.blocks handle).begin ≤
      ((p.resizeBlockTo handle position size).blocks handle).begin := by
    rw [here]
    exact Nat.le_add_right _ _
  have upper : ((p.resizeBlockTo handle position size).blocks handle).behind ≤
      (p.blocks handle).behind := by
    rw [here, MemBlock.behind, MemBlock.behind, Nat.add_assoc]
    exact Nat.add_le_add_left inside _
  refine ⟨ordered.rearranged (resizeBlockTo_other (ordered.not_poolStart block).symm)
    (fun h => ?_) (fun h => ?_) (fun a _ c _ differ sorted => ?_) (fun h member => ?_), ?_⟩
  · by_cases isHandle : h = handle
    · rw [isHandle, here]
    · rw [resizeBlockTo_other isHandle]
  · by_cases isHandle : h = handle
    · rw [isHandle, here]
      dsimp only
      omega
    · rw [resizeBlockTo_other isHandle]
  · by_cases isHandle : a = handle
    · subst isHandle
      rw [resizeBlockTo_other differ.symm]
      exact upper.trans sorted
    · rw [resizeBlockTo_other isHandle]
      by_cases toHandle : c = handle
      · subst toHandle
        exact sorted.trans lower
      · rw [resizeBlockTo_other toHandle]
        exact sorted
  · have bound := ordered.inside h (List.mem_cons_of_mem _ member)
    by_cases isHandle : h = handle
    · subst isHandle
      exact upper.trans bound
    · rw [resizeBlockTo_other isHandle]
      exact bound
  · funext h
    by_cases isHandle : h = handle
    · subst isHandle
      rw [Function.update_self, contents, here, contents, load_slice inside]
      rfl
    · rw [Function.update_of_ne isHandle]
      exact contents_congr (by rw [resizeBlockTo_other isHandle])
        (by rw [resizeBlockTo_other isHandle]) fun _ _ _ => rfl

theorem resizeBlock_spec (ordered : Ordered p handles)
    (inside : position < (p.blocks handle).size) :
    Ordered (p.resizeBlock handle position) handles ∧
      contents (p.resizeBlock handle position) =
        Function.update (contents p) handle ((contents p handle).drop position) := by
  have positive : 0 < (p.blocks handle).size - position := Nat.sub_pos_of_lt inside
  have spec := ordered.resizeBlockTo_spec positive (Nat.add_sub_cancel' inside.le).le
  have whole : ((contents p handle).drop position).take ((p.blocks handle).size - position) =
      (contents p handle).drop position := by
    apply List.take_of_length_le
    rw [List.length_drop, length_contents]
  rw [whole] at spec
  exact spec

/-! ## Reading and writing -/

/-- Only the memory changes. -/
theorem with_memory (ordered : Ordered p handles) (memory : Nat → UInt8) :
    Ordered { p with memory } handles :=
  ⟨ordered.origin, ordered.empty, ordered.linked, ordered.distinct, ordered.entries, ordered.used,
    ordered.sorted, ordered.inside⟩

theorem store_spec (ordered : Ordered p handles) {cells : List UInt8}
    (block : handle ∈ handles) (inside : position + cells.length ≤ (p.blocks handle).size) :
    contents { p with memory := store id p.memory ((p.blocks handle).begin + position) cells } =
      Function.update (contents p) handle (overwrite (contents p handle) position cells) := by
  funext h
  by_cases isHandle : h = handle
  · subst isHandle
    rw [Function.update_self]
    exact load_store_inside inside
  · rw [Function.update_of_ne isHandle]
    by_cases member : h ∈ handles
    · refine contents_congr rfl rfl fun a from_begin to_behind => store_other fun i below => ?_
      have behind : (p.blocks handle).behind = (p.blocks handle).begin + (p.blocks handle).size := rfl
      simp only [id]
      rcases ordered.apart member block isHandle with before | after
      · omega
      · omega
    · have unused : (p.blocks h).size = 0 := not_not.mp (mt (ordered.used h).mp member)
      rw [contents_eq_nil unused]
      exact contents_eq_nil unused

theorem writePacket_spec (ordered : Ordered p handles) {buffer : List UInt8} (block : handle ∈ handles)
    (inside : position ≤ (p.blocks handle).size) :
    (p.writePacket handle position buffer).1 =
        min buffer.length ((contents p handle).length - position) ∧
      Ordered (p.writePacket handle position buffer).2 handles ∧
      contents (p.writePacket handle position buffer).2 = Function.update (contents p) handle
        (overwrite (contents p handle) position
          (buffer.take ((contents p handle).length - position))) := by
  have cut : buffer.take (min buffer.length ((p.blocks handle).size - position)) =
      buffer.take ((p.blocks handle).size - position) := by
    rw [Nat.min_comm]
    exact List.take_eq_take_min.symm
  rw [length_contents]
  refine ⟨rfl, ordered.with_memory _, ?_⟩
  rw [writePacket, cut]
  refine ordered.store_spec block ?_
  rw [List.length_take]
  omega

/-- Copying from one block to another. -/
theorem copyPacket_spec (ordered : Ordered p handles) {dest destPos src srcPos len : Nat}
    (destBlock : dest ∈ handles) (srcBlock : src ∈ handles) (differ : dest ≠ src)
    (destInside : destPos + len ≤ (p.blocks dest).size)
    (srcInside : srcPos + len ≤ (p.blocks src).size) :
    Ordered (p.copyPacket dest destPos src srcPos len) handles ∧
      contents (p.copyPacket dest destPos src srcPos len) = Function.update (contents p) dest
        (overwrite (contents p dest) destPos (((contents p src).drop srcPos).take len)) := by
  refine ⟨ordered.with_memory _, ?_⟩
  have behindDest : (p.blocks dest).behind = (p.blocks dest).begin + (p.blocks dest).size := rfl
  have behindSrc : (p.blocks src).behind = (p.blocks src).begin + (p.blocks src).size := rfl
  have apart : (p.blocks dest).begin + destPos ≤ (p.blocks src).begin + srcPos ∨
      (p.blocks src).begin + srcPos + len ≤ (p.blocks dest).begin + destPos := by
    rcases ordered.apart destBlock srcBlock differ with before | after
    · omega
    · omega
  rw [copyPacket, move_eq_store apart, contents, contents, load_slice srcInside]
  exact ordered.store_spec destBlock (by rw [length_load]; exact destInside)

end Ordered

theorem readPacket_spec {len : Nat} (inside : position ≤ (p.blocks handle).size) :
    p.readPacket handle position len = ((contents p handle).drop position).take len := by
  have cut : ((contents p handle).drop position).take len =
      ((contents p handle).drop position).take (min len ((p.blocks handle).size - position)) := by
    rw [List.take_eq_take_min, List.length_drop, length_contents]
  rw [cut, contents, load_slice (by omega)]
  rfl

end HomeAutomation.Uip.MemoryPool
