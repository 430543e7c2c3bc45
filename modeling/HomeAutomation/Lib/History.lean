import Mathlib.Data.List.Basic

/-! # Safety of event histories

A history is the list of the events a component has performed, oldest first.
Most temporal requirements have the form "an event may happen only after a
suitable history"; `Guarded` states that of every event of a history, and
`guarded_snoc` reduces it to the one event a step appends.

`Answered` says that every event of one kind has been followed by one of another
kind.  It is what has to hold when a second event of the first kind is appended,
if two of them must always be separated.

`latest` reads the most recent value some events carry, and `changes` keeps of a
sequence of assignments those that change the variable.
-/

namespace HomeAutomation.Lib.History

variable {Event Value : Type*}

/-! ## Guarded events -/

/-- Every event of the history was allowed by the history before it. -/
def Guarded (allowed : List Event → Event → Prop) (history : List Event) : Prop :=
  ∀ before event after, history = before ++ event :: after → allowed before event

theorem guarded_nil (allowed : List Event → Event → Prop) : Guarded allowed [] := by
  intro before event after split
  simp at split

/-- Where one appended event can stand in a split of the history. -/
theorem split_snoc {history before after : List Event} {last event : Event}
    (split : history ++ [last] = before ++ event :: after) :
    (before = history ∧ event = last ∧ after = []) ∨
      ∃ rest, after = rest ++ [last] ∧ history = before ++ event :: rest := by
  rcases List.eq_nil_or_concat after with rfl | ⟨rest, final, rfl⟩
  · obtain ⟨same, singleton⟩ := List.append_inj' split (by simp)
    simp only [List.cons.injEq, and_true] at singleton
    exact Or.inl ⟨same.symm, singleton.symm, rfl⟩
  · have regrouped : history ++ [last] = (before ++ event :: rest) ++ [final] := by
      simpa using split
    obtain ⟨same, singleton⟩ := List.append_inj' regrouped (by simp)
    simp only [List.cons.injEq, and_true] at singleton
    exact Or.inr ⟨rest, by rw [singleton]; simp, same⟩

/-- The same for an appended list. -/
theorem split_append {history added before after : List Event} {event : Event}
    (split : history ++ added = before ++ event :: after) :
    (∃ rest, after = rest ++ added ∧ history = before ++ event :: rest) ∨
      ∃ start, before = history ++ start ∧ added = start ++ event :: after := by
  rcases List.append_eq_append_iff.mp split with ⟨start, first, second⟩ | ⟨rest, first, second⟩
  · exact Or.inr ⟨start, first, second⟩
  · cases rest with
    | nil =>
      rw [List.append_nil] at first
      exact Or.inr ⟨[], by rw [first, List.append_nil], second.symm⟩
    | cons head rest =>
      obtain ⟨rfl, rfl⟩ := List.cons.inj second
      exact Or.inl ⟨rest, rfl, first⟩

theorem guarded_snoc {allowed : List Event → Event → Prop} {history : List Event} {event : Event}
    (past : Guarded allowed history) (present : allowed history event) :
    Guarded allowed (history ++ [event]) := by
  intro before chosen after split
  rcases split_snoc split with ⟨rfl, rfl, -⟩ | ⟨rest, -, inside⟩
  · exact present
  · exact past before chosen rest inside

/-! ## The last event of a kind -/

section Kind

variable {kind : List Event → Event → Prop}

/-- None of the events that follow `before` is of the kind; whether an event is may depend
    on the history before it. -/
def NoneOf (kind : List Event → Event → Prop) : List Event → List Event → Prop
  | _, [] => True
  | before, event :: after => ¬ kind before event ∧ NoneOf kind (before ++ [event]) after

theorem noneOf_append {before first second : List Event} :
    NoneOf kind before (first ++ second) ↔
      NoneOf kind before first ∧ NoneOf kind (before ++ first) second := by
  induction first generalizing before with
  | nil => simp [NoneOf]
  | cons event first inductionHypothesis =>
    simp [NoneOf, inductionHypothesis, and_assoc]

theorem not_kind_of_noneOf {before after rest : List Event} {event : Event}
    (none : NoneOf kind before (after ++ event :: rest)) : ¬ kind (before ++ after) event :=
  (noneOf_append.mp none).2.1

/-- The last event of the kind: the event itself, and what stands on its two sides. -/
structure LastOf (kind : List Event → Event → Prop) (before : List Event) (event : Event)
    (after : List Event) : Prop where
  ofKind : kind before event
  last : NoneOf kind (before ++ [event]) after

theorem LastOf.not_kind {before after rest middle : List Event} {event other : Event}
    (last : LastOf kind before event after) (split : after = middle ++ other :: rest) :
    ¬ kind (before ++ event :: middle) other := by
  have later : ¬ kind ((before ++ [event]) ++ middle) other :=
    not_kind_of_noneOf (split ▸ last.last)
  rwa [List.append_assoc, List.singleton_append] at later

/-- It stands in one place. -/
theorem LastOf.unique {before after before' after' : List Event} {event event' : Event}
    (last : LastOf kind before event after) (last' : LastOf kind before' event' after')
    (same : before ++ event :: after = before' ++ event' :: after') :
    before = before' ∧ event = event' := by
  rcases split_append same with ⟨rest, tail, front⟩ | ⟨middle, front, tail⟩
  · have kept : kind (before' ++ event' :: rest) event := front ▸ last.ofKind
    exact absurd kept (last'.not_kind tail)
  · cases middle with
    | nil =>
      obtain ⟨rfl, -⟩ := List.cons.inj tail
      exact ⟨by rw [front, List.append_nil], rfl⟩
    | cons head middle =>
      obtain ⟨rfl, behind⟩ := List.cons.inj tail
      have kept : kind (before ++ event :: middle) event' := front ▸ last'.ofKind
      exact absurd kept (last.not_kind behind)

end Kind

/-! ## Answered events -/

/-- Every event that asks has been followed by one that answers. -/
def Answered (asks answers : Event → Prop) (history : List Event) : Prop :=
  ∀ before event after, history = before ++ event :: after → asks event →
    ∃ reply ∈ after, answers reply

theorem answered_nil (asks answers : Event → Prop) : Answered asks answers [] := by
  intro before event after split
  simp at split

theorem answered_snoc {asks answers : Event → Prop} {history : List Event} {event : Event}
    (past : Answered asks answers history) (quiet : ¬ asks event) :
    Answered asks answers (history ++ [event]) := by
  intro before chosen after split asked
  rcases split_snoc split with ⟨-, rfl, -⟩ | ⟨rest, rfl, inside⟩
  · exact absurd asked quiet
  · obtain ⟨reply, member, replies⟩ := past before chosen rest inside asked
    exact ⟨reply, List.mem_append_left _ member, replies⟩

theorem answered_snoc_iff {asks answers : Event → Prop} {history : List Event} {event : Event}
    (quiet : ¬ asks event) (silent : ¬ answers event) :
    Answered asks answers (history ++ [event]) ↔ Answered asks answers history := by
  refine ⟨fun later before chosen after split asked => ?_, fun past => answered_snoc past quiet⟩
  obtain ⟨reply, member, replies⟩ :=
    later before chosen (after ++ [event]) (by rw [split]; simp) asked
  rcases List.mem_append.mp member with inside | final
  · exact ⟨reply, inside, replies⟩
  · rw [List.mem_singleton.mp final] at replies
    exact absurd replies silent

theorem not_answered_snoc {asks answers : Event → Prop} {event : Event} (history : List Event)
    (asked : asks event) : ¬ Answered asks answers (history ++ [event]) := by
  intro answered
  obtain ⟨reply, member, -⟩ := answered history event [] rfl asked
  cases member

/-- An answer settles everything asked before it. -/
theorem answered_of_answer {asks answers : Event → Prop} (history : List Event) {event : Event}
    (replies : answers event) (quiet : ¬ asks event) :
    Answered asks answers (history ++ [event]) := by
  intro before chosen after split asked
  rcases split_snoc split with ⟨-, rfl, -⟩ | ⟨rest, rfl, -⟩
  · exact absurd asked quiet
  · exact ⟨event, by simp, replies⟩

/-! ## The most recent value -/

/-- The value carried by the most recent event that carries one. -/
def latest (value : Event → Option Value) (history : List Event) : Option Value :=
  (history.filterMap value).getLast?

@[simp] theorem latest_nil (value : Event → Option Value) : latest value [] = none := rfl

theorem latest_append (value : Event → Option Value) (first second : List Event) :
    latest value (first ++ second) = (latest value second).or (latest value first) := by
  simp only [latest, List.filterMap_append, List.getLast?_append]

theorem latest_cons (value : Event → Option Value) (event : Event) (history : List Event) :
    latest value (event :: history) = (latest value history).or (value event) := by
  rw [← List.singleton_append, latest_append]
  cases carried : value event <;> simp [latest, carried]

theorem latest_snoc (value : Event → Option Value) (history : List Event) (event : Event) :
    latest value (history ++ [event]) = (value event).or (latest value history) := by
  rw [latest_append]
  cases carried : value event <;> simp [latest, carried]

@[simp] theorem latest_snoc_some {value : Event → Option Value} {event : Event} {carried : Value}
    (history : List Event) (carries : value event = some carried) :
    latest value (history ++ [event]) = some carried := by
  rw [latest_snoc, carries]
  rfl

@[simp] theorem latest_snoc_none {value : Event → Option Value} {event : Event}
    (history : List Event) (silent : value event = none) :
    latest value (history ++ [event]) = latest value history := by
  rw [latest_snoc, silent]
  rfl

/-! ## Actual changes -/

section Changes

variable [DecidableEq Value]

/-- The assignments that change a variable which starts at `current`. -/
def changes : Value → List Value → List Value
  | _, [] => []
  | current, value :: values =>
    if value = current then changes current values else value :: changes value values

theorem changes_snoc (current : Value) (values : List Value) (value : Value) :
    changes current (values ++ [value]) =
      changes current values ++ if value = values.getLastD current then [] else [value] := by
  induction values generalizing current with
  | nil => by_cases same : value = current <;> simp [changes, same]
  | cons first values inductionHypothesis =>
    rw [List.cons_append, changes, changes, List.getLastD_cons]
    by_cases same : first = current
    · subst same
      simp only [if_true, inductionHypothesis]
    · simp only [same, if_false, inductionHypothesis, List.cons_append]

end Changes

end HomeAutomation.Lib.History
