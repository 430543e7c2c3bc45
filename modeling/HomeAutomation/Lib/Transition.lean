import Mathlib.Data.List.Induction

/-! # Runs of a labelled partial step function

A component is given by `step : State → Label → Option State`: `none` means that
the label is not possible in that state.  `run` executes a finite list of labels,
and the rules below are the inductions every development over such a step function
needs: an invariant over the states of a run, one that may also mention the labels
taken so far, and one over the runs whose steps meet a condition.
-/

namespace HomeAutomation.Lib.Transition

variable {State Label : Type*}

/-- Execute a finite list of labels; `none` when one of them is not possible. -/
def run (step : State → Label → Option State) : State → List Label → Option State
  | state, [] => some state
  | state, label :: labels =>
    match step state label with
    | some next => run step next labels
    | none => none

variable {step : State → Label → Option State}

@[simp] theorem run_nil (state : State) : run step state [] = some state := rfl

@[simp] theorem run_cons (state : State) (label : Label) (labels : List Label) :
    run step state (label :: labels) = (step state label).bind (run step · labels) := by
  rw [run]
  cases step state label <;> rfl

theorem run_append (state : State) (first second : List Label) :
    run step state (first ++ second) = (run step state first).bind (run step · second) := by
  induction first generalizing state with
  | nil => rfl
  | cons label first inductionHypothesis =>
    rw [List.cons_append, run_cons, run_cons]
    cases step state label with
    | none => rfl
    | some next => exact inductionHypothesis next

theorem run_snoc (state : State) (labels : List Label) (label : Label) :
    run step state (labels ++ [label]) = (run step state labels).bind (step · label) := by
  rw [run_append]
  congr 1
  funext next
  rw [run_cons]
  cases step next label <;> rfl

/-- The last step of a nonempty run, with the run up to it. -/
theorem run_snoc_inv {state final : State} {labels : List Label} {label : Label}
    (finished : run step state (labels ++ [label]) = some final) :
    ∃ middle, run step state labels = some middle ∧ step middle label = some final := by
  rw [run_snoc] at finished
  exact Option.bind_eq_some_iff.mp finished

/-- Invariance over whole runs, with the labels taken so far in the invariant. -/
theorem run_induction (invariant : List Label → State → Prop) {initial : State}
    (base : invariant [] initial)
    (preserved : ∀ labels state label next, run step initial labels = some state →
      invariant labels state → step state label = some next → invariant (labels ++ [label]) next)
    {labels : List Label} {final : State} (finished : run step initial labels = some final) :
    invariant labels final := by
  induction labels using List.reverseRecOn generalizing final with
  | nil => cases finished; exact base
  | append_singleton labels label inductionHypothesis =>
    obtain ⟨middle, reached, stepped⟩ := run_snoc_inv finished
    exact preserved labels middle label final reached (inductionHypothesis reached) stepped

/-- Invariance of a state predicate over whole runs. -/
theorem run_invariant (invariant : State → Prop) {initial : State} (base : invariant initial)
    (preserved : ∀ state label next, invariant state → step state label = some next →
      invariant next)
    {labels : List Label} {final : State} (finished : run step initial labels = some final) :
    invariant final :=
  run_induction (fun _ state => invariant state) base
    (fun _ state label next _ holds stepped => preserved state label next holds stepped) finished

/-! ## Simulation -/

/-- Where every step of one machine is one of another, seen through `abstraction` and
    under an invariant, every run is. -/
theorem run_simulates {Abstract : Type*} {abstractStep : Abstract → Label → Option Abstract}
    (abstraction : State → Abstract) (invariant : State → Prop) {initial : State}
    (base : invariant initial)
    (preserved : ∀ state label next, invariant state → step state label = some next →
      invariant next)
    (simulates : ∀ state label next, invariant state → step state label = some next →
      abstractStep (abstraction state) label = some (abstraction next))
    {labels : List Label} {final : State} (finished : run step initial labels = some final) :
    run abstractStep (abstraction initial) labels = some (abstraction final) := by
  induction labels generalizing initial with
  | nil => cases finished; rfl
  | cons label labels inductionHypothesis =>
    rw [run_cons] at finished
    obtain ⟨next, stepped, finished⟩ := Option.bind_eq_some_iff.mp finished
    rw [run_cons, simulates initial label next base stepped]
    exact inductionHypothesis (preserved initial label next base stepped) finished

/-- The runs of a machine that is given by a relation. -/
inductive Steps {Abstract : Type*} (relation : Abstract → Label → Abstract → Prop) :
    Abstract → List Label → Abstract → Prop
  | nil (state : Abstract) : Steps relation state [] state
  | cons {state next final : Abstract} {label : Label} {labels : List Label}
      (first : relation state label next) (rest : Steps relation next labels final) :
      Steps relation state (label :: labels) final

/-- Where every step of a machine is one of a relation, seen through `abstraction` and under
    an invariant, every run is. -/
theorem run_refines {Abstract : Type*} {relation : Abstract → Label → Abstract → Prop}
    (abstraction : State → Abstract) (invariant : State → Prop) {initial : State}
    (base : invariant initial)
    (refines : ∀ state label next, invariant state → step state label = some next →
      invariant next ∧ relation (abstraction state) label (abstraction next))
    {labels : List Label} {final : State} (finished : run step initial labels = some final) :
    Steps relation (abstraction initial) labels (abstraction final) := by
  induction labels generalizing initial with
  | nil => cases finished; exact .nil _
  | cons label labels inductionHypothesis =>
    rw [run_cons] at finished
    obtain ⟨next, stepped, finished⟩ := Option.bind_eq_some_iff.mp finished
    obtain ⟨holds, first⟩ := refines initial label next base stepped
    exact .cons first (inductionHypothesis holds finished)

/-! ## Runs whose steps meet a condition -/

/-- Every step of the run is taken in a state that meets the condition. -/
def Along (step : State → Label → Option State) (condition : State → Label → Prop) :
    State → List Label → Prop
  | _, [] => True
  | state, label :: labels =>
    condition state label ∧
      match step state label with
      | some next => Along step condition next labels
      | none => True

instance decidableAlong {condition : State → Label → Prop}
    [∀ state label, Decidable (condition state label)] :
    ∀ state labels, Decidable (Along step condition state labels)
  | _, [] => inferInstanceAs (Decidable True)
  | state, label :: labels =>
    have : Decidable (match step state label with
        | some next => Along step condition next labels
        | none => True) :=
      match step state label with
      | some next => decidableAlong next labels
      | none => isTrue trivial
    instDecidableAnd

/-- Invariance over the runs whose steps meet a condition. -/
theorem run_invariant_along {condition : State → Label → Prop} (invariant : State → Prop)
    (preserved : ∀ state label next, condition state label → invariant state →
      step state label = some next → invariant next)
    {initial final : State} {labels : List Label} (base : invariant initial)
    (along : Along step condition initial labels)
    (finished : run step initial labels = some final) : invariant final := by
  induction labels generalizing initial with
  | nil => cases finished; exact base
  | cons label labels inductionHypothesis =>
    obtain ⟨meets, rest⟩ := along
    rw [run_cons] at finished
    obtain ⟨next, stepped, finished⟩ := Option.bind_eq_some_iff.mp finished
    rw [stepped] at rest
    exact inductionHypothesis (preserved initial label next meets base stepped) rest finished

/-- The converse: where every step against the condition spoils the state for good, the
    steps of a run that ends unspoilt all met it. -/
theorem along_of_unspoilt {condition : State → Label → Prop} (spoilt : State → Prop)
    (stays : ∀ state label next, spoilt state → step state label = some next → spoilt next)
    (spoils : ∀ state label next, ¬ condition state label → step state label = some next →
      spoilt next)
    {initial final : State} {labels : List Label} (finished : run step initial labels = some final)
    (unspoilt : ¬ spoilt final) : Along step condition initial labels := by
  induction labels generalizing initial with
  | nil => trivial
  | cons label labels inductionHypothesis =>
    rw [run_cons] at finished
    obtain ⟨next, stepped, finished⟩ := Option.bind_eq_some_iff.mp finished
    refine ⟨?_, ?_⟩
    · by_contra against
      exact unspoilt (run_invariant spoilt (spoils initial label next against stepped) stays finished)
    · rw [stepped]
      exact inductionHypothesis finished

end HomeAutomation.Lib.Transition
