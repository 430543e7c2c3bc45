import Mathlib.Data.List.Induction
import Mathlib.Data.List.Nodup

/-! # Tables that fill up

A table has a number of places.  Each new key gets the next free place; once the table is full,
every other key goes to the first place.  So the second to the last place keep the first keys
that came for good, and the first place has the latest of all others.
-/

namespace HomeAutomation.Lib.Residents

variable {Key : Type*} [DecidableEq Key]

/-- The keys of a history in the order in which they came first. -/
def firsts (history : List Key) : List Key :=
  history.foldl (fun keys key => if key ∈ keys then keys else keys ++ [key]) []

theorem firsts_snoc (history : List Key) (key : Key) :
    firsts (history ++ [key]) =
      if key ∈ firsts history then firsts history else firsts history ++ [key] := by
  rw [firsts, List.foldl_append]
  rfl

theorem mem_firsts {history : List Key} {key : Key} : key ∈ firsts history ↔ key ∈ history := by
  induction history using List.reverseRecOn with
  | nil => exact Iff.rfl
  | append_singleton history last inductionHypothesis =>
    rw [firsts_snoc, List.mem_append, List.mem_singleton]
    by_cases known : last ∈ firsts history
    case pos =>
      rw [if_pos known, inductionHypothesis]
      refine ⟨Or.inl, fun either => either.elim id ?_⟩
      rintro rfl
      exact inductionHypothesis.mp known
    case neg =>
      rw [if_neg known, List.mem_append, List.mem_singleton, inductionHypothesis]

theorem nodup_firsts (history : List Key) : (firsts history).Nodup := by
  induction history using List.reverseRecOn with
  | nil => exact List.nodup_nil
  | append_singleton history last inductionHypothesis =>
    rw [firsts_snoc]
    by_cases known : last ∈ firsts history
    case pos =>
      rw [if_pos known]
      exact inductionHypothesis
    case neg =>
      rw [if_neg known]
      exact List.nodup_append.mpr ⟨inductionHypothesis, List.nodup_singleton last,
        fun key member other last => by rintro rfl; exact known (List.mem_singleton.mp last ▸ member)⟩

/-- The keys in the second to the last of `size` places. -/
def residents (size : Nat) (history : List Key) : List Key := ((firsts history).take size).tail

/-- The latest key that is not among them. -/
def lastOther (size : Nat) (history : List Key) : Option Key :=
  (history.filter fun key => key ∉ residents size history).getLast?

variable {size : Nat} {history : List Key} {key : Key}

theorem mem_residents_iff :
    key ∈ residents size history ↔ ∃ i, 1 ≤ i ∧ i < size ∧ (firsts history)[i]? = some key := by
  rw [residents, List.mem_iff_getElem?]
  constructor
  · rintro ⟨i, here⟩
    rw [List.getElem?_tail, List.getElem?_take] at here
    split at here
    · exact ⟨i + 1, by omega, by omega, here⟩
    · cases here
  · rintro ⟨i, positive, inside, here⟩
    refine ⟨i - 1, ?_⟩
    rw [List.getElem?_tail, List.getElem?_take, Nat.sub_add_cancel positive, if_pos inside]
    exact here

theorem lastOther_mem (last : lastOther size history = some key) :
    key ∈ history ∧ key ∉ residents size history := by
  have member := List.mem_of_getLast? last
  rw [List.mem_filter, decide_eq_true_eq] at member
  exact member

/-- The first key of all is no resident. -/
theorem first_notMem {first : Key} {others : List Key} (split : firsts history = first :: others) :
    first ∉ residents size history := by
  have distinct := nodup_firsts history
  rw [split, List.nodup_cons] at distinct
  intro member
  obtain ⟨i, positive, _, here⟩ := mem_residents_iff.mp member
  rw [split, List.getElem?_cons, if_neg (by omega)] at here
  exact distinct.1 (List.mem_of_getElem? here)

theorem lastOther_isSome (notEmpty : history ≠ []) : ∃ key, lastOther size history = some key := by
  cases split : firsts history with
  | nil =>
    obtain ⟨key, member⟩ := List.exists_mem_of_ne_nil history notEmpty
    have among := mem_firsts.mpr member
    rw [split] at among
    cases among
  | cons first others =>
    have among : first ∈ history := mem_firsts.mp (by rw [split]; exact List.mem_cons_self)
    have inside : first ∈ history.filter fun key => key ∉ residents size history :=
      List.mem_filter.mpr ⟨among, decide_eq_true (first_notMem split)⟩
    exact Option.ne_none_iff_exists'.mp fun none =>
      List.ne_nil_of_mem inside (List.getLast?_eq_none_iff.mp none)

/-- As long as all keys fit, the other key is the first. -/
theorem lastOther_of_fits {first : Key} {others : List Key} (split : firsts history = first :: others)
    (fits : (firsts history).length ≤ size) : lastOther size history = some first := by
  have notEmpty : history ≠ [] := by
    rintro rfl
    cases split
  obtain ⟨key, last⟩ : ∃ key, lastOther size history = some key := lastOther_isSome notEmpty
  obtain ⟨member, notResident⟩ := lastOther_mem last
  have among := mem_firsts.mpr member
  rw [residents, List.take_of_length_le fits, split, List.tail_cons] at notResident
  rw [split, List.mem_cons, or_iff_left notResident] at among
  rw [last, among]

/-! ## One more key -/

theorem residents_of_same (same : (firsts (history ++ [key])).take size = (firsts history).take size) :
    residents size (history ++ [key]) = residents size history := by
  rw [residents, same, residents]

theorem lastOther_snoc (same : residents size (history ++ [key]) = residents size history) :
    lastOther size (history ++ [key]) =
      if key ∈ residents size history then lastOther size history else some key := by
  rw [lastOther, same, List.filter_append]
  by_cases resident : key ∈ residents size history
  case pos => simp [resident, lastOther]
  case neg => simp [resident]

/-- A key that is known, or that comes to a full table. -/
theorem take_firsts_snoc (known : key ∈ firsts history ∨ size ≤ (firsts history).length) :
    (firsts (history ++ [key])).take size = (firsts history).take size := by
  rw [firsts_snoc]
  rcases known with member | full
  · rw [if_pos member]
  · split
    · rfl
    · exact List.take_append_of_le_length full

/-- A new key that gets a place behind the first. -/
theorem lastOther_new (new : key ∉ firsts history) (notEmpty : firsts history ≠ [])
    (free : (firsts history).length < size) :
    lastOther size (history ++ [key]) = lastOther size history := by
  have longer : residents size (history ++ [key]) = residents size history ++ [key] := by
    rw [residents, firsts_snoc, if_neg new, residents, List.take_of_length_le (by
      rw [List.length_append, List.length_singleton]; omega), List.take_of_length_le (Nat.le_of_lt free),
      List.tail_append_of_ne_nil notEmpty]
  have absent : ∀ other ∈ history, other ≠ key := by
    rintro other member rfl
    exact new (mem_firsts.mpr member)
  rw [lastOther, lastOther, longer, List.filter_append]
  have rest : history.filter (fun other => other ∉ residents size history ++ [key]) =
      history.filter fun other => other ∉ residents size history := by
    apply List.filter_congr
    intro other member
    rw [decide_eq_decide, List.mem_append, List.mem_singleton, or_iff_left (absent other member)]
  rw [rest]
  simp

/-! ## What stands where -/

/-- The key in a place, after a history. -/
def place (size : Nat) (history : List Key) (i : Nat) : Option Key :=
  if i = 0 then lastOther size history else (firsts history)[i]?

theorem place_zero : place size history 0 = lastOther size history := if_pos rfl

theorem place_behind {i : Nat} (behind : i ≠ 0) : place size history i = (firsts history)[i]? :=
  if_neg behind

theorem exists_place_iff (positive : 0 < size) :
    (∃ i < size, place size history i = some key) ↔
      key ∈ residents size history ∨ lastOther size history = some key := by
  rw [mem_residents_iff]
  constructor
  · rintro ⟨i, inside, here⟩
    by_cases front : i = 0
    · rw [front, place_zero] at here
      exact Or.inr here
    · rw [place_behind front] at here
      exact Or.inl ⟨i, Nat.pos_of_ne_zero front, inside, here⟩
  · rintro (⟨i, behind, inside, here⟩ | last)
    · exact ⟨i, inside, (place_behind (Nat.ne_of_gt behind)).trans here⟩
    · exact ⟨0, positive, place_zero.trans last⟩

theorem mem_of_place {i : Nat} (here : place size history i = some key) : key ∈ history := by
  by_cases front : i = 0
  · rw [front, place_zero] at here
    exact (lastOther_mem here).1
  · rw [place_behind front] at here
    exact mem_firsts.mp (List.mem_of_getElem? here)

/-- The key is in the table already. -/
theorem place_snoc_of_found {i : Nat} (inside : i < size) (here : place size history i = some key)
    (j : Nat) : place size (history ++ [key]) j = place size history j := by
  have known : key ∈ firsts history := mem_firsts.mpr (mem_of_place here)
  have same : residents size (history ++ [key]) = residents size history :=
    residents_of_same (take_firsts_snoc (Or.inl known))
  by_cases front : j = 0
  case neg => rw [place_behind front, place_behind front, firsts_snoc, if_pos known]
  case pos =>
    rw [front, place_zero, place_zero, lastOther_snoc same]
    split
    case isTrue => rfl
    case isFalse other =>
      have either := (exists_place_iff (Nat.lt_of_le_of_lt (Nat.zero_le i) inside)).mp
        ⟨i, inside, here⟩
      exact (either.resolve_left other).symm

/-- The key is not in the table, and there is a free place. -/
theorem place_snoc_of_free {i : Nat} (inside : i < size)
    (absent : ∀ j < size, place size history j ≠ some key) (free : place size history i = none)
    (used : ∀ j < i, place size history j ≠ none) (j : Nat) :
    place size (history ++ [key]) j = if i = j then some key else place size history j := by
  have positive : 0 < size := Nat.lt_of_le_of_lt (Nat.zero_le i) inside
  by_cases front : i = 0
  case pos =>
    -- place 0 is free only at the beginning
    have empty : history = [] := by
      by_contra notEmpty
      obtain ⟨last, isLast⟩ : ∃ key, lastOther size history = some key :=
        lastOther_isSome notEmpty
      rw [front, place_zero, isLast] at free
      cases free
    subst empty
    have single : firsts ([] ++ [key]) = [key] := rfl
    by_cases first : j = 0
    case pos =>
      rw [first, if_pos front, place_zero]
      exact lastOther_of_fits single positive
    case neg =>
      rw [if_neg (front ▸ Ne.symm first), place_behind first, place_behind first, single]
      exact List.getElem?_eq_none (Nat.pos_of_ne_zero first)
  case neg =>
    have long : (firsts history).length ≤ i := by
      rw [place_behind front] at free
      exact List.getElem?_eq_none_iff.mp free
    have notEmpty : firsts history ≠ [] := by
      intro empty
      refine used 0 (Nat.pos_of_ne_zero front) ?_
      rw [place_zero, Option.eq_none_iff_forall_not_mem]
      intro other last
      have among := mem_firsts.mpr (lastOther_mem last).1
      rw [empty] at among
      cases among
    -- the places before `i` are used, so as many keys have come
    have length : (firsts history).length = i := by
      refine Nat.le_antisymm long ?_
      by_cases one : i = 1
      · have some := List.length_pos_of_ne_nil notEmpty
        omega
      · have there := used (i - 1) (by omega)
        rw [place_behind (by omega), Ne, List.getElem?_eq_none_iff] at there
        omega
    have new : key ∉ firsts history := by
      intro member
      obtain ⟨first, others, split⟩ := List.exists_cons_of_ne_nil notEmpty
      obtain ⟨k, here⟩ := List.mem_iff_getElem?.mp member
      have small := (List.getElem?_eq_some_iff.mp here).1
      refine absent k (by omega) ?_
      by_cases atFront : k = 0
      · rw [atFront, place_zero, lastOther_of_fits split (by omega)]
        rw [atFront, split] at here
        exact here
      · rw [place_behind atFront]
        exact here
    by_cases first : j = 0
    case pos =>
      rw [first, if_neg front, place_zero, place_zero]
      exact lastOther_new new notEmpty (by omega)
    case neg =>
      rw [place_behind first, place_behind first, firsts_snoc, if_neg new, List.getElem?_append]
      by_cases here : i = j
      · rw [if_pos here, if_neg (by omega), length, here, Nat.sub_self]
        rfl
      · rw [if_neg here]
        split
        case isTrue => rfl
        case isFalse beyond =>
          rw [List.getElem?_eq_none (by rw [List.length_singleton]; omega),
            List.getElem?_eq_none (by omega)]

/-- The key is not in the table, and the table is full. -/
theorem place_snoc_of_full (positive : 0 < size)
    (absent : ∀ j < size, place size history j ≠ some key)
    (full : ∀ j < size, place size history j ≠ none) {j : Nat} (inside : j < size) :
    place size (history ++ [key]) j = if 0 = j then some key else place size history j := by
  have long : size ≤ (firsts history).length := by
    by_cases one : size = 1
    · obtain ⟨first, last⟩ := Option.ne_none_iff_exists'.mp (full 0 positive)
      have among := mem_firsts.mpr (mem_of_place last)
      have some := List.length_pos_of_mem among
      omega
    · have there := full (size - 1) (by omega)
      rw [place_behind (by omega), Ne, List.getElem?_eq_none_iff] at there
      omega
  have same : (firsts (history ++ [key])).take size = (firsts history).take size :=
    take_firsts_snoc (Or.inr long)
  by_cases front : j = 0
  case pos =>
    rw [front, if_pos rfl, place_zero, lastOther_snoc (residents_of_same same)]
    refine if_neg fun resident => ?_
    obtain ⟨i, small, here⟩ := (exists_place_iff positive).mpr (Or.inl resident)
    exact absent i small here
  case neg =>
    rw [if_neg (Ne.symm front), place_behind front, place_behind front,
      ← List.getElem?_take_of_lt inside, same, List.getElem?_take_of_lt inside]

end HomeAutomation.Lib.Residents
