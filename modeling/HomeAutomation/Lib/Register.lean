import Mathlib.Data.List.Basic

/-! # Registers written through a first-in first-out queue

A value that is written by messages: a write is queued, and takes effect when its
message is delivered, in the order of the writes.  `settled` is the value the
register will have once nothing is queued.  Deliveries do not change it, which
makes it the quantity to reason about when reads and deliveries interleave.
-/

namespace HomeAutomation.Lib

/-- The present value, and the writes that are still on their way, oldest first. -/
structure Register (Value : Type*) where
  value : Value
  queued : List Value
  deriving DecidableEq

namespace Register

variable {Value : Type*}

/-- A register with nothing on its way. -/
def quiet (value : Value) : Register Value := ⟨value, []⟩

/-- Queue a write. -/
def post (register : Register Value) (value : Value) : Register Value :=
  { register with queued := register.queued ++ [value] }

/-- Deliver the oldest queued write, if there is one. -/
def deliver (register : Register Value) : Option (Register Value) :=
  match register.queued with
  | [] => none
  | value :: rest => some ⟨value, rest⟩

/-- The value once every queued write is delivered. -/
def settled (register : Register Value) : Value :=
  register.queued.getLastD register.value

@[simp] theorem settled_quiet (value : Value) : (quiet value).settled = value := rfl

@[simp] theorem settled_post (register : Register Value) (value : Value) :
    (register.post value).settled = value := by
  simp [settled, post]

@[simp] theorem value_post (register : Register Value) (value : Value) :
    (register.post value).value = register.value := rfl

@[simp] theorem queued_post (register : Register Value) (value : Value) :
    (register.post value).queued = register.queued ++ [value] := rfl

/-- What a delivery does: the oldest write becomes the value. -/
theorem deliver_eq_some {register next : Register Value} (delivered : register.deliver = some next) :
    register.queued = next.value :: next.queued := by
  unfold deliver at delivered
  split at delivered
  · cases delivered
  · rename_i queued
    cases delivered
    exact queued

theorem settled_deliver {register next : Register Value}
    (delivered : register.deliver = some next) : next.settled = register.settled := by
  have queued := deliver_eq_some delivered
  rw [settled, settled, queued]
  cases next.queued with
  | nil => rfl
  | cons value rest => rw [List.getLastD_cons, List.getLastD_cons, List.getLastD_cons]

theorem settled_of_queued_nil {register : Register Value} (empty : register.queued = []) :
    register.settled = register.value := by
  simp [settled, empty]

end Register

end HomeAutomation.Lib
