import Mathlib

/-! # Sequence numbers

uIP keeps sequence numbers as four bytes and adds to them byte by byte.
-/

namespace HomeAutomation.Uip

/-- Four bytes, the first the highest. -/
structure SeqNo where
  b0 : UInt8
  b1 : UInt8
  b2 : UInt8
  b3 : UInt8
  deriving DecidableEq

namespace SeqNo

def toNat (s : SeqNo) : Nat :=
  ((s.b0.toNat * 256 + s.b1.toNat) * 256 + s.b2.toNat) * 256 + s.b3.toNat

theorem toNat_lt (s : SeqNo) : s.toNat < 2 ^ 32 := by
  have b0 := s.b0.toNat_lt
  have b1 := s.b1.toNat_lt
  have b2 := s.b2.toNat_lt
  have b3 := s.b3.toNat_lt
  rw [toNat]
  omega

theorem toNat_inj {s t : SeqNo} (same : s.toNat = t.toNat) : s = t := by
  obtain ⟨s0, s1, s2, s3⟩ := s
  obtain ⟨t0, t1, t2, t3⟩ := t
  have bound (b : UInt8) : b.toNat < 256 := b.toNat_lt
  simp only [toNat] at same
  rw [mk.injEq]
  refine ⟨UInt8.toNat_inj.mp ?_, UInt8.toNat_inj.mp ?_, UInt8.toNat_inj.mp ?_,
    UInt8.toNat_inj.mp ?_⟩
  all_goals
    have h0 := bound s0
    have h1 := bound s1
    have h2 := bound s2
    have h3 := bound s3
    have k0 := bound t0
    have k1 := bound t1
    have k2 := bound t2
    have k3 := bound t3
    omega

/-- A carry into the two higher bytes. -/
def carry1 (s : SeqNo) : SeqNo :=
  let b1 := s.b1 + 1
  if b1 = 0 then { s with b0 := s.b0 + 1, b1 } else { s with b1 }

/-- A carry into the three higher bytes. -/
def carry2 (s : SeqNo) : SeqNo :=
  let b2 := s.b2 + 1
  if b2 = 0 then carry1 { s with b2 } else { s with b2 }

/-- `uip_add32` -/
def uipAdd32 (op32 : SeqNo) (op16 : UInt16) : SeqNo :=
  let low := op16.toUInt8
  let high := (op16 >>> 8).toUInt8
  let acc := { op32 with b3 := op32.b3 + low, b2 := op32.b2 + high }
  let acc := if acc.b2 < high then acc.carry1 else acc
  if acc.b3 < low then acc.carry2 else acc

theorem toNat_carry1 (s : SeqNo) : s.carry1.toNat = (s.toNat + 256 * 256) % 2 ^ 32 := by
  have b0 := s.b0.toNat_lt
  have b1 := s.b1.toNat_lt
  have b2 := s.b2.toNat_lt
  have b3 := s.b3.toNat_lt
  rw [carry1]
  simp only [← UInt8.toNat_inj, UInt8.toNat_add]
  split
  all_goals
    simp only [toNat, UInt8.toNat_add]
    simp only [UInt8.reduceToNat] at *
    omega

theorem toNat_carry2 (s : SeqNo) : s.carry2.toNat = (s.toNat + 256) % 2 ^ 32 := by
  have b0 := s.b0.toNat_lt
  have b1 := s.b1.toNat_lt
  have b2 := s.b2.toNat_lt
  have b3 := s.b3.toNat_lt
  rw [carry2]
  simp only [← UInt8.toNat_inj, UInt8.toNat_add]
  split
  case isTrue wraps =>
    rw [toNat_carry1]
    simp only [toNat, UInt8.toNat_add]
    simp only [UInt8.reduceToNat] at *
    omega
  case isFalse stays =>
    simp only [toNat, UInt8.toNat_add]
    simp only [UInt8.reduceToNat] at *
    omega

theorem carry1_b3 (s : SeqNo) : s.carry1.b3 = s.b3 := by
  show SeqNo.b3 (if s.b1 + 1 = 0 then _ else _) = s.b3
  split <;> rfl

/-- Adding byte by byte is adding, modulo 2^32. -/
theorem toNat_uipAdd32 (op32 : SeqNo) (op16 : UInt16) :
    (op32.uipAdd32 op16).toNat = (op32.toNat + op16.toNat) % 2 ^ 32 := by
  have b0 := op32.b0.toNat_lt
  have b1 := op32.b1.toNat_lt
  have b2 := op32.b2.toNat_lt
  have b3 := op32.b3.toNat_lt
  have small := op16.toNat_lt
  have low : op16.toUInt8.toNat = op16.toNat % 256 := UInt16.toNat_toUInt8 op16
  have high : (op16 >>> 8).toUInt8.toNat = op16.toNat / 256 := by
    rw [UInt16.toNat_toUInt8, UInt16.toNat_shiftRight]
    simp only [UInt16.reduceToNat, Nat.shiftRight_eq_div_pow, Nat.reduceMod, Nat.reducePow]
    omega
  rw [uipAdd32]
  generalize op16.toUInt8 = lowByte at low ⊢
  generalize (op16 >>> 8).toUInt8 = highByte at high ⊢
  simp only [UInt8.lt_iff_toNat_lt]
  -- a byte is below what was added to it exactly if the addition has wrapped
  by_cases highWraps : (op32.b2 + highByte).toNat < highByte.toNat
  case pos =>
    rw [if_pos highWraps, carry1_b3]
    by_cases lowWraps : (op32.b3 + lowByte).toNat < lowByte.toNat
    case pos =>
      rw [if_pos lowWraps, toNat_carry2, toNat_carry1]
      simp only [toNat, UInt8.toNat_add] at *
      omega
    case neg =>
      rw [if_neg lowWraps, toNat_carry1]
      simp only [toNat, UInt8.toNat_add] at *
      omega
  case neg =>
    rw [if_neg highWraps]
    by_cases lowWraps : (op32.b3 + lowByte).toNat < lowByte.toNat
    case pos =>
      rw [if_pos lowWraps, toNat_carry2]
      simp only [toNat, UInt8.toNat_add] at *
      omega
    case neg =>
      rw [if_neg lowWraps]
      simp only [toNat, UInt8.toNat_add] at *
      omega

/-- The bytes of a number, modulo 2^32. -/
def ofNat (n : Nat) : SeqNo :=
  ⟨UInt8.ofNat (n / 256 ^ 3), UInt8.ofNat (n / 256 ^ 2), UInt8.ofNat (n / 256), UInt8.ofNat n⟩

theorem toNat_ofNat (n : Nat) : (ofNat n).toNat = n % 2 ^ 32 := by
  simp only [ofNat, toNat, UInt8.toNat_ofNat']
  omega

/-- `uip_add32` gives the four bytes of the sum. -/
theorem uipAdd32_eq_ofNat (op32 : SeqNo) (op16 : UInt16) :
    op32.uipAdd32 op16 = ofNat (op32.toNat + op16.toNat) := by
  apply toNat_inj
  rw [toNat_uipAdd32, toNat_ofNat]

end SeqNo

end HomeAutomation.Uip
