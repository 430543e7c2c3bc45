import Mathlib.Data.List.Basic
import Mathlib.Logic.Function.Basic

/-! # Assignments to a function, and counting under them

The state of many equal components is a function from their names; a list of
assignments is performed in order, so the last one to a name wins.  `countP_update`
says how the number of components with a property changes with one assignment.
-/

namespace HomeAutomation.Lib.Updates

variable {Name Value : Type*} [DecidableEq Name]

/-- Perform the assignments in order. -/
def assign (state : Name → Value) (assignments : List (Name × Value)) : Name → Value :=
  assignments.foldl (fun state assignment => Function.update state assignment.1 assignment.2) state

@[simp] theorem assign_nil (state : Name → Value) : assign state [] = state := rfl

@[simp] theorem assign_cons (state : Name → Value) (name : Name) (value : Value)
    (assignments : List (Name × Value)) :
    assign state ((name, value) :: assignments) =
      assign (Function.update state name value) assignments := rfl

theorem assign_append (state : Name → Value) (first second : List (Name × Value)) :
    assign state (first ++ second) = assign (assign state first) second := by
  rw [assign, List.foldl_append]
  rfl

/-- Assigning one value to every name of a list. -/
theorem assign_map_const (state : Name → Value) (names : List Name) (value : Value) (name : Name) :
    assign state (names.map (·, value)) name = if name ∈ names then value else state name := by
  induction names generalizing state with
  | nil => rfl
  | cons first names inductionHypothesis =>
    rw [List.map_cons, assign_cons, inductionHypothesis]
    by_cases later : name ∈ names
    · rw [if_pos later, if_pos (List.mem_cons_of_mem first later)]
    · rw [if_neg later]
      by_cases same : name = first
      · rw [same, Function.update_self, if_pos List.mem_cons_self]
      · rw [Function.update_of_ne same, if_neg (by simp [same, later])]

/-- One assignment moves one component from its old count to its new one. -/
theorem countP_update (counted : Value → Bool) (state : Name → Value) (value : Value)
    {names : List Name} (distinct : names.Nodup) {name : Name} (member : name ∈ names) :
    names.countP (fun other => counted (Function.update state name value other)) +
        (counted (state name)).toNat =
      names.countP (fun other => counted (state other)) + (counted value).toNat := by
  induction names with
  | nil => cases member
  | cons first names inductionHypothesis =>
    obtain ⟨fresh, distinct⟩ := List.nodup_cons.mp distinct
    rw [List.countP_cons, List.countP_cons]
    by_cases same : name = first
    · -- the others are not touched
      subst same
      have others : names.countP (fun other => counted (Function.update state name value other)) =
          names.countP (fun other => counted (state other)) := by
        apply List.countP_congr
        intro other memberOther
        rw [Function.update_of_ne (ne_of_mem_of_not_mem memberOther fresh)]
      rw [others, Function.update_self]
      cases counted value <;> cases counted (state name) <;> simp
    · have inside : name ∈ names := List.mem_of_ne_of_mem same member
      have counts := inductionHypothesis distinct inside
      rw [Function.update_of_ne (Ne.symm same)]
      omega

end HomeAutomation.Lib.Updates
