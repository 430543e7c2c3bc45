import Mathlib.Data.Nat.ModEq

/-! # Ones' complement sums

Words are added with the carry coming in again at the low end.  With `top` the largest word
this is addition modulo `top`, where zero has two forms: 0 for a sum of zeros only, and `top`
for every other.  A sum together with its complement is `top`, which is how checksums of this
kind are checked.
-/

namespace HomeAutomation.Lib.OnesComplement

variable {top total sum word : Nat}

/-- Addition with end-around carry. -/
def add (top sum word : Nat) : Nat := if sum + word ≤ top then sum + word else sum + word - top

/-- `sum` is the ones' complement sum of words that are `total` together. -/
structure Sums (top total sum : Nat) : Prop where
  le : sum ≤ top
  modEq : sum ≡ total [MOD top]
  zero : sum = 0 ↔ total = 0

namespace Sums

theorem none (top : Nat) : Sums top 0 0 := ⟨Nat.zero_le top, Nat.ModEq.refl 0, Iff.rfl⟩

/-- A single word. -/
theorem one (small : word ≤ top) : Sums top word word := ⟨small, Nat.ModEq.refl word, Iff.rfl⟩

theorem add (sums : Sums top total sum) (small : word ≤ top) :
    Sums top (total + word) (add top sum word) := by
  have le := sums.le
  have zero := sums.zero
  have plain : sum + word ≡ total + word [MOD top] := sums.modEq.add_right word
  rw [OnesComplement.add]
  by_cases fits : sum + word ≤ top
  case pos =>
    rw [if_pos fits]
    exact ⟨fits, plain, by omega⟩
  case neg =>
    rw [if_neg fits]
    refine ⟨by omega, ?_, by omega⟩
    have carried : sum + word - top + top = sum + word := by omega
    have same : sum + word - top ≡ sum + word - top + top [MOD top] :=
      (Nat.add_mod_right _ _).symm
    rw [carried] at same
    exact same.trans plain

/-- The sum is all ones exactly for the multiples of `top` but 0. -/
theorem eq_top_iff (sums : Sums top total sum) (positive : 0 < top) :
    sum = top ↔ total ≠ 0 ∧ top ∣ total := by
  have zero := sums.zero
  have modEq := sums.modEq
  constructor
  · rintro rfl
    refine ⟨by omega, ?_⟩
    exact (Nat.modEq_zero_iff_dvd.mp (modEq.symm.trans (Nat.modEq_zero_iff_dvd.mpr dvd_rfl)))
  · rintro ⟨some, divides⟩
    have multiple : top ∣ sum :=
      Nat.modEq_zero_iff_dvd.mp (modEq.trans (Nat.modEq_zero_iff_dvd.mpr divides))
    have notZero : 0 < sum := by omega
    exact le_antisymm sums.le (Nat.le_of_dvd notZero multiple)

/-- With the complement of the sum the words make a zero. -/
theorem complement (sums : Sums top total sum) : top ∣ total + (top - sum) := by
  have le := sums.le
  have whole : sum + (top - sum) ≡ total + (top - sum) [MOD top] := sums.modEq.add_right _
  rw [Nat.add_sub_cancel' le] at whole
  exact Nat.modEq_zero_iff_dvd.mp (whole.symm.trans (Nat.modEq_zero_iff_dvd.mpr dvd_rfl))

end Sums

/-- Replacing one word by another keeps a zero exactly if they are the same modulo `top`. -/
theorem dvd_replace_iff {rest other : Nat} (zero : top ∣ rest + word) :
    top ∣ rest + other ↔ other ≡ word [MOD top] := by
  have before : rest + word ≡ 0 [MOD top] := Nat.modEq_zero_iff_dvd.mpr zero
  rw [← Nat.modEq_zero_iff_dvd]
  constructor
  · intro after
    exact Nat.ModEq.add_left_cancel' rest (after.trans before.symm)
  · intro same
    exact (same.add_left rest).trans before

/-- Two words that are the same modulo `top` are equal, or the two forms of zero. -/
theorem modEq_words_iff {other : Nat} (small : word ≤ top) (otherSmall : other ≤ top)
    (positive : 0 < top) :
    other ≡ word [MOD top] ↔
      other = word ∨ other = 0 ∧ word = top ∨ other = top ∧ word = 0 := by
  constructor
  · intro same
    rcases Nat.lt_or_eq_of_le small with below | rfl
    · rcases Nat.lt_or_eq_of_le otherSmall with otherBelow | rfl
      · exact Or.inl (Nat.ModEq.eq_of_lt_of_lt same otherBelow below)
      · rw [Nat.ModEq, Nat.mod_self, Nat.mod_eq_of_lt below] at same
        exact Or.inr (Or.inr ⟨rfl, same.symm⟩)
    · rcases Nat.lt_or_eq_of_le otherSmall with otherBelow | rfl
      · rw [Nat.ModEq, Nat.mod_self, Nat.mod_eq_of_lt otherBelow] at same
        exact Or.inr (Or.inl ⟨same, rfl⟩)
      · exact Or.inl rfl
  · rintro (rfl | ⟨rfl, rfl⟩ | ⟨rfl, rfl⟩)
    · exact Nat.ModEq.refl _
    · exact (Nat.modEq_zero_iff_dvd.mpr dvd_rfl).symm
    · exact Nat.modEq_zero_iff_dvd.mpr dvd_rfl

/-! ## Bytes -/

def word16 (high low : UInt8) : Nat := high.toNat * 256 + low.toNat

theorem word16_le (high low : UInt8) : word16 high low ≤ 65535 := by
  have highSmall := high.toNat_lt
  have lowSmall := low.toNat_lt
  rw [word16]
  omega

/-- The words of two bytes each, the last filled up with a zero. -/
def wordSum : List UInt8 → Nat
  | [] => 0
  | [high] => word16 high 0
  | high :: low :: rest => word16 high low + wordSum rest

theorem wordSum_append : {first : List UInt8} → (even : 2 ∣ first.length) →
    (second : List UInt8) → wordSum (first ++ second) = wordSum first + wordSum second
  | [], _, second => (Nat.zero_add _).symm
  | [_], even, _ => by
    rw [List.length_singleton] at even
    omega
  | high :: low :: rest, even, second => by
    have evenRest : 2 ∣ rest.length := by
      rw [List.length_cons, List.length_cons] at even
      omega
    rw [List.cons_append, List.cons_append, wordSum, wordSum, wordSum_append evenRest second,
      Nat.add_assoc]

end HomeAutomation.Lib.OnesComplement
