import Mathlib.Data.List.Basic
import Mathlib.Logic.Function.Basic
import Mathlib.Order.Interval.Finset.Nat

/-! # Addressed memory and ring buffers

A memory is a function from addresses to cells.  `load` and `store` access the cells of
consecutive positions, through a map from positions to addresses: the identity for plain
memory, the remainder by the size for a ring buffer.

A ring buffer keeps a window of a stream: the element at position `i` of the stream
stands in the cell of position `i`, as long as it belongs to the window.  What is loaded
inside the window is what the stream has there, and storing behind the stream keeps the
window as long as it is not longer than the buffer.
-/

namespace HomeAutomation.Lib.Memory

variable {Cell : Type*}

/-! ## Access -/

/-- The cells of `count` positions. -/
def load (address : Nat → Nat) (memory : Nat → Cell) (position : Nat) : Nat → List Cell
  | 0 => []
  | count + 1 => memory (address position) :: load address memory (position + 1) count

/-- Write the cells, one position after another. -/
def store (address : Nat → Nat) (memory : Nat → Cell) (position : Nat) : List Cell → Nat → Cell
  | [] => memory
  | cell :: cells =>
    store address (Function.update memory (address position) cell) (position + 1) cells

@[simp] theorem length_load (address : Nat → Nat) (memory : Nat → Cell) (position count : Nat) :
    (load address memory position count).length = count := by
  induction count generalizing position with
  | zero => rfl
  | succ count inductionHypothesis => rw [load, List.length_cons, inductionHypothesis]

theorem getElem_load {address : Nat → Nat} {memory : Nat → Cell} {position count i : Nat}
    (inside : i < (load address memory position count).length) :
    (load address memory position count)[i] = memory (address (position + i)) := by
  induction count generalizing position i with
  | zero => cases inside
  | succ count inductionHypothesis =>
    cases i with
    | zero => rfl
    | succ i =>
      rw [length_load] at inside
      have rest : i < (load address memory (position + 1) count).length := by
        rw [length_load]
        omega
      calc (load address memory (position + 1) count)[i]
          = memory (address (position + 1 + i)) := inductionHypothesis rest
        _ = memory (address (position + (i + 1))) := by rw [Nat.add_right_comm, Nat.add_assoc]

theorem load_append (address : Nat → Nat) (memory : Nat → Cell) (position first second : Nat) :
    load address memory position (first + second) =
      load address memory position first ++ load address memory (position + first) second := by
  induction first generalizing position with
  | zero => simp [load]
  | succ first inductionHypothesis =>
    rw [Nat.succ_add, load, load, inductionHypothesis, List.cons_append, Nat.add_right_comm,
      Nat.add_assoc]

/-- Loading depends on the cells at the addresses only. -/
theorem load_congr {address other : Nat → Nat} {memory changed : Nat → Cell}
    {position place count : Nat}
    (same : ∀ i < count, memory (address (position + i)) = changed (other (place + i))) :
    load address memory position count = load other changed place count := by
  induction count generalizing position place with
  | zero => rfl
  | succ count inductionHypothesis =>
    have here : memory (address position) = changed (other place) := same 0 (Nat.succ_pos count)
    rw [load, load, here, inductionHypothesis]
    intro i inside
    have shifted := same (i + 1) (Nat.succ_lt_succ inside)
    rwa [← Nat.add_assoc, ← Nat.add_assoc, Nat.add_right_comm, Nat.add_right_comm place] at shifted

/-- A cell that is not addressed stays. -/
theorem store_other {address : Nat → Nat} {memory : Nat → Cell} {position : Nat} {cells : List Cell}
    {a : Nat} (other : ∀ i < cells.length, address (position + i) ≠ a) :
    store address memory position cells a = memory a := by
  induction cells generalizing memory position with
  | nil => rfl
  | cons cell cells inductionHypothesis =>
    rw [store, inductionHypothesis]
    · exact Function.update_of_ne (Ne.symm (other 0 (Nat.succ_pos _))) _ _
    · intro i inside
      have shifted := other (i + 1) (Nat.succ_lt_succ inside)
      rwa [← Nat.add_assoc, Nat.add_right_comm] at shifted

/-- A cell that is written has its new value, if no other position has its address. -/
theorem store_at {address : Nat → Nat} {memory : Nat → Cell} {position : Nat} {cells : List Cell}
    {i : Nat} (inside : i < cells.length)
    (apart : ∀ j, i < j → j < cells.length → address (position + j) ≠ address (position + i)) :
    store address memory position cells (address (position + i)) = cells[i] := by
  induction cells generalizing memory position i with
  | nil => cases inside
  | cons cell cells inductionHypothesis =>
    rw [store]
    cases i with
    | zero =>
      rw [store_other]
      · exact Function.update_self _ _ _
      · intro j below
        have differs := apart (j + 1) (Nat.succ_pos j) (Nat.succ_lt_succ below)
        rwa [← Nat.add_assoc, Nat.add_right_comm] at differs
    | succ i =>
      rw [List.length_cons] at inside apart
      have shift : position + (i + 1) = position + 1 + i := by omega
      rw [List.getElem_cons_succ, shift]
      apply inductionHypothesis (Nat.lt_of_succ_lt_succ inside)
      intro j behind below
      have differs := apart (j + 1) (Nat.succ_lt_succ behind) (Nat.succ_lt_succ below)
      rwa [shift, ← Nat.add_assoc, Nat.add_right_comm] at differs

/-- A cell that is copied. -/
theorem store_load_at {address other : Nat → Nat} {memory : Nat → Cell} {dest src count i : Nat}
    (inside : i < count)
    (apart : ∀ j, i < j → j < count → address (dest + j) ≠ address (dest + i)) :
    store address memory dest (load other memory src count) (address (dest + i)) =
      memory (other (src + i)) := by
  rw [store_at (by rw [length_load]; exact inside) (by rw [length_load]; exact apart),
    getElem_load]

/-- What has been stored is loaded again. -/
theorem load_store {address : Nat → Nat} (memory : Nat → Cell) (position : Nat) (cells : List Cell)
    (apart : ∀ i j, i < j → j < cells.length → address (position + j) ≠ address (position + i)) :
    load address (store address memory position cells) position cells.length = cells := by
  apply List.ext_getElem (length_load _ _ _ _)
  intro i loaded inside
  rw [getElem_load loaded, store_at inside (apart i)]

/-! ## Plain memory -/

/-- A part of what is loaded. -/
theorem load_slice {address : Nat → Nat} {memory : Nat → Cell} {position count skip part : Nat}
    (inside : skip + part ≤ count) :
    ((load address memory position count).drop skip).take part =
      load address memory (position + skip) part := by
  obtain ⟨rest, rfl⟩ := Nat.exists_eq_add_of_le inside
  rw [Nat.add_assoc, load_append, List.drop_left' (length_load _ _ _ _), load_append,
    List.take_left' (length_load _ _ _ _)]

/-- Replace the elements from `position` on. -/
def overwrite (old : List Cell) (position : Nat) (cells : List Cell) : List Cell :=
  old.take position ++ cells ++ old.drop (position + cells.length)

theorem take_overwrite {old cells : List Cell} {position : Nat} (inside : position ≤ old.length) :
    (overwrite old position cells).take (position + cells.length) = old.take position ++ cells := by
  rw [overwrite, List.take_left']
  rw [List.length_append, List.length_take, Nat.min_eq_left inside]

theorem drop_overwrite {old cells : List Cell} {position : Nat} (inside : position ≤ old.length) :
    (overwrite old position cells).drop position = cells ++ old.drop (position + cells.length) := by
  rw [overwrite, List.append_assoc, List.drop_left']
  rw [List.length_take, Nat.min_eq_left inside]

theorem length_overwrite {old cells : List Cell} {position : Nat}
    (inside : position + cells.length ≤ old.length) :
    (overwrite old position cells).length = old.length := by
  rw [overwrite, List.length_append, List.length_append, List.length_take, List.length_drop]
  omega

theorem load_store_inside {memory : Nat → Cell} {start count position : Nat} {cells : List Cell}
    (inside : position + cells.length ≤ count) :
    load id (store id memory (start + position) cells) start count =
      overwrite (load id memory start count) position cells := by
  obtain ⟨rest, rfl⟩ := Nat.exists_eq_add_of_le inside
  have before : load id (store id memory (start + position) cells) start position =
      load id memory start position := by
    refine load_congr fun i below => store_other fun j _ => ?_
    simp only [id]
    omega
  have behind : load id (store id memory (start + position) cells)
      (start + position + cells.length) rest =
        load id memory (start + position + cells.length) rest := by
    refine load_congr fun i _ => store_other fun j below => ?_
    simp only [id]
    omega
  have here : load id (store id memory (start + position) cells) (start + position) cells.length =
      cells := by
    refine load_store memory (start + position) cells fun i j before _ => ?_
    simp only [id]
    omega
  rw [overwrite, Nat.add_assoc, load_append, load_append, before, here, behind, load_append,
    List.take_left' (length_load _ _ _ _), ← List.drop_drop, List.drop_left' (length_load _ _ _ _),
    load_append, List.drop_left' (length_load _ _ _ _), List.append_assoc]

/-! ## Moving -/

/-- Copy cells upwards, one after another. -/
def move (memory : Nat → Cell) (dest src : Nat) : Nat → Nat → Cell
  | 0 => memory
  | count + 1 => move (Function.update memory dest (memory src)) (dest + 1) (src + 1) count

theorem move_other {memory : Nat → Cell} {dest src count a : Nat}
    (outside : a < dest ∨ dest + count ≤ a) : move memory dest src count a = memory a := by
  induction count generalizing memory dest src with
  | zero => rfl
  | succ count inductionHypothesis =>
    rw [move, inductionHypothesis (by omega)]
    exact Function.update_of_ne (by omega) _ _

/-- Moving down, and moving to a place apart from the source, copies the cells as they were
    before. -/
theorem move_at {memory : Nat → Cell} {dest src count i : Nat}
    (apart : dest ≤ src ∨ src + count ≤ dest) (inside : i < count) :
    move memory dest src count (dest + i) = memory (src + i) := by
  induction count generalizing memory dest src i with
  | zero => cases inside
  | succ count inductionHypothesis =>
    rw [move]
    cases i with
    | zero =>
      rw [move_other (by omega)]
      exact Function.update_self _ _ _
    | succ i =>
      have shift : dest + (i + 1) = dest + 1 + i := by omega
      rw [shift, inductionHypothesis (by omega) (Nat.lt_of_succ_lt_succ inside),
        Function.update_of_ne (by omega)]
      congr 1
      omega

theorem load_move {memory : Nat → Cell} {dest src count : Nat}
    (apart : dest ≤ src ∨ src + count ≤ dest) :
    load id (move memory dest src count) dest count = load id memory src count :=
  load_congr fun _ inside => move_at apart inside

/-- Moving cells is storing what was there. -/
theorem move_eq_store {memory : Nat → Cell} {dest src count : Nat}
    (apart : dest ≤ src ∨ src + count ≤ dest) :
    move memory dest src count = store id memory dest (load id memory src count) := by
  funext a
  by_cases inside : dest ≤ a ∧ a < dest + count
  case pos =>
    obtain ⟨i, rfl⟩ := Nat.exists_eq_add_of_le inside.1
    have below : i < (load id memory src count).length := by
      rw [length_load]
      omega
    have stored : store id memory dest (load id memory src count) (id (dest + i)) =
        (load id memory src count)[i] := store_at below fun j _ _ => by simp only [id]; omega
    rw [getElem_load] at stored
    rw [move_at apart (by omega)]
    exact stored.symm
  case neg =>
    rw [move_other (by omega), store_other]
    intro i below
    rw [length_load] at below
    simp only [id]
    omega

/-! ## Ring buffers -/

/-- Positions that lie less than a buffer apart have different cells. -/
theorem mod_ne {size position i j : Nat} (before : i < j) (near : j < i + size) :
    (position + j) % size ≠ (position + i) % size := by
  intro same
  have equal := Nat.mod_injOn_Ico (position + i) size
    (Finset.mem_coe.mpr (Finset.mem_Ico.mpr ⟨by omega, by omega⟩))
    (Finset.mem_coe.mpr (Finset.mem_Ico.mpr ⟨Nat.le_refl _, by omega⟩)) same
  omega

/-- The buffer holds the elements of the stream from `first` on; the stream starts at
    position `origin`. -/
def Window (size : Nat) (memory : Nat → Cell) (origin : Nat) (stream : List Cell) (first : Nat) :
    Prop :=
  ∀ i, first ≤ i → ∀ inside : i < stream.length, memory ((origin + i) % size) = stream[i]

namespace Window

variable {size origin first : Nat} {memory : Nat → Cell} {stream : List Cell}

theorem mono (window : Window size memory origin stream first) {later : Nat}
    (ordered : first ≤ later) : Window size memory origin stream later :=
  fun i from_later inside => window i (ordered.trans from_later) inside

/-- Elements are loaded from inside the window. -/
theorem load_eq (window : Window size memory origin stream first) {position count : Nat}
    (after : first ≤ position) (available : position + count ≤ stream.length) :
    load (· % size) memory (origin + position) count = (stream.drop position).take count := by
  apply List.ext_getElem
  · rw [length_load, List.length_take, List.length_drop]
    omega
  · intro i loaded inside
    rw [length_load] at loaded
    rw [getElem_load, List.getElem_take, List.getElem_drop, Nat.add_assoc]
    exact window (position + i) (by omega) (by omega)

/-- The stream grows by what is stored behind it. -/
theorem append (window : Window size memory origin stream first) {data : List Cell}
    (room : stream.length + data.length ≤ first + size) :
    Window size (store (· % size) memory (origin + stream.length) data) origin (stream ++ data)
      first := by
  intro i after inside
  rw [List.length_append] at inside
  by_cases old : i < stream.length
  case pos =>
    have kept : store (· % size) memory (origin + stream.length) data ((origin + i) % size) =
        memory ((origin + i) % size) := by
      apply store_other
      intro j below
      rw [Nat.add_assoc]
      exact mod_ne (by omega) (by omega)
    rw [kept, List.getElem_append_left old]
    exact window i after old
  case neg =>
    obtain ⟨j, rfl⟩ : ∃ j, i = stream.length + j := ⟨i - stream.length, by omega⟩
    have new : j < data.length := by omega
    rw [List.getElem_append_right (by omega)]
    simp only [Nat.add_sub_cancel_left]
    rw [← Nat.add_assoc]
    refine @store_at _ (· % size) _ _ _ _ new fun k behind below => ?_
    exact mod_ne behind (by omega)

end Window

/-! ## Access in two parts

Without help from the hardware an access to a ring buffer that passes its end is made in
two parts, each of which is plain. -/

theorem load_ring_of_le {size position count : Nat} (memory : Nat → Cell)
    (fits : position % size + count ≤ size) :
    load id memory (position % size) count = load (· % size) memory position count := by
  apply load_congr
  intro i inside
  have low : (position + i) % size = position % size + i := by
    rw [← Nat.mod_add_mod, Nat.mod_eq_of_lt (by omega)]
  rw [low]
  rfl

theorem load_ring_split {size position count : Nat} (memory : Nat → Cell)
    (passes : size ≤ position % size + count) (whole : count ≤ size) (positive : 0 < size) :
    load id memory (position % size) (size - position % size) ++
        load id memory 0 (count - (size - position % size)) =
      load (· % size) memory position count := by
  have below := Nat.mod_lt position positive
  have parts : count = (size - position % size) + (count - (size - position % size)) := by omega
  have wrapped : (position + (size - position % size)) % size = 0 := by
    rw [← Nat.mod_add_mod, show position % size + (size - position % size) = size by omega,
      Nat.mod_self]
  conv_rhs => rw [parts, load_append]
  congr 1
  · exact load_ring_of_le memory (by omega)
  · have fits : (position + (size - position % size)) % size + (count - (size - position % size)) ≤
        size := by
      rw [wrapped]
      omega
    have second := load_ring_of_le memory fits
    rwa [wrapped] at second

/-- Storing depends on the addresses only. -/
theorem store_congr {address other : Nat → Nat} {position place : Nat} {cells : List Cell}
    (same : ∀ i < cells.length, address (position + i) = other (place + i))
    (memory : Nat → Cell) : store address memory position cells = store other memory place cells := by
  induction cells generalizing memory position place with
  | nil => rfl
  | cons cell cells inductionHypothesis =>
    have here : address position = other place := same 0 (Nat.succ_pos _)
    rw [store, store, here]
    apply inductionHypothesis
    intro i inside
    have shifted := same (i + 1) (Nat.succ_lt_succ inside)
    rwa [← Nat.add_assoc, ← Nat.add_assoc, Nat.add_right_comm, Nat.add_right_comm place] at shifted

end HomeAutomation.Lib.Memory
