import Mathlib

/-! # Numeric addresses

Before a name is looked up, the library of the W5100 tries to read it as four decimal numbers
with dots between them.
-/

namespace HomeAutomation

abbrev IPAddress := Vector UInt8 4

def dot : UInt8 := 46

/-- The result of `inet_aton`, and the address behind the reference. -/
structure Parsed where
  accepted : Bool
  address : IPAddress
  deriving DecidableEq

/-! ## The functions -/

namespace Ethernet

def isDigit (c : UInt8) : Bool := 48 ≤ c && c ≤ 57

/-- The loop of `DNSClient::inet_aton` of the W5100's library; `acc` is at most 255, so that
    it does not overflow. -/
def inetAtonLoop : (host : List UInt8) → (dots acc : Nat) → (result : IPAddress) → Parsed
  | [], dots, acc, result =>
    if dots ≠ 3 then ⟨false, result⟩
    else ⟨true, result.setIfInBounds 3 (UInt8.ofNat acc)⟩
  | c :: host, dots, acc, result =>
    if isDigit c then
      let acc := acc * 10 + (c.toNat - 48)
      if acc > 255 then ⟨false, result⟩
      else inetAtonLoop host dots acc result
    else if c = dot then
      if dots = 3 then ⟨false, result⟩
      else inetAtonLoop host (dots + 1) 0 (result.setIfInBounds dots (UInt8.ofNat acc))
    else ⟨false, result⟩

/-- `DNSClient::inet_aton` of the W5100's library -/
def inetAton (host : List UInt8) (result : IPAddress) : Parsed := inetAtonLoop host 0 0 result

end Ethernet

/-! ## Segments -/

/-- The parts between the dots. -/
def segments (host : List UInt8) : List (List UInt8) := host.splitOn dot

/-- A decimal number from `value` on. -/
def decimalFrom (value : Nat) (segment : List UInt8) : Nat :=
  segment.foldl (fun value c => value * 10 + (c.toNat - 48)) value

/-- The segment is a number of a byte; an empty one is 0. -/
def ByteSegment (segment : List UInt8) : Prop :=
  (∀ c ∈ segment, Ethernet.isDigit c = true) ∧ decimalFrom 0 segment ≤ 255

instance (segment : List UInt8) : Decidable (ByteSegment segment) :=
  inferInstanceAs (Decidable (_ ∧ _))

theorem le_decimalFrom (value : Nat) (segment : List UInt8) : value ≤ decimalFrom value segment := by
  induction segment generalizing value with
  | nil => exact Nat.le_refl value
  | cons c segment inductionHypothesis =>
    have more : value ≤ value * 10 + (c.toNat - 48) := by omega
    exact Nat.le_trans more (inductionHypothesis _)

/-- The byte of a segment. -/
def segmentByte (segment : List UInt8) : UInt8 := UInt8.ofNat (decimalFrom 0 segment)

theorem intercalate_segments (host : List UInt8) : [dot].intercalate (segments host) = host :=
  List.intercalate_splitOn dot

theorem dot_notMem_of_mem_segments {host segment : List UInt8} (member : segment ∈ segments host) :
    dot ∉ segment := by
  induction host generalizing segment with
  | nil =>
    rw [List.mem_singleton.mp member]
    exact List.not_mem_nil
  | cons c host inductionHypothesis =>
    rw [segments, List.splitOn_cons_eq_if_modifyHead] at member
    cases split : host.splitOn dot with
    | nil => exact absurd split (List.splitOn_ne_nil dot host)
    | cons first others =>
      rw [split, List.modifyHead_cons] at member
      have before {part : List UInt8} (among : part ∈ first :: others) : dot ∉ part :=
        inductionHypothesis (by rw [segments, split]; exact among)
      by_cases separates : (c == dot) = true
      case pos =>
        rw [if_pos separates] at member
        rcases List.mem_cons.mp member with rfl | among
        · exact List.not_mem_nil
        · exact before among
      case neg =>
        rw [if_neg separates] at member
        rcases List.mem_cons.mp member with rfl | among
        · rw [List.mem_cons, not_or]
          exact ⟨fun same => separates (beq_iff_eq.mpr same.symm), before List.mem_cons_self⟩
        · exact before (List.mem_cons_of_mem _ among)

theorem toList_setIfInBounds {address : IPAddress} {i : Nat} (inside : i < 4) (byte : UInt8) :
    (address.setIfInBounds i byte).toList =
      address.toList.take i ++ ([byte] ++ address.toList.drop (i + 1)) := by
  have length : i < address.toList.length := by
    rw [Vector.length_toList]
    exact inside
  rw [Vector.toList_setIfInBounds, List.set_eq_take_append_cons_drop, if_pos length]
  rfl

/-- The bytes up to one that has been set. -/
theorem take_setIfInBounds {address : IPAddress} {i : Nat} (inside : i < 4) (byte : UInt8) :
    (address.setIfInBounds i byte).toList.take (i + 1) = address.toList.take i ++ [byte] := by
  have length : (address.toList.take i).length = i := by
    rw [List.length_take, Vector.length_toList]
    omega
  rw [toList_setIfInBounds inside, ← List.append_assoc]
  exact List.take_left' (by rw [List.length_append, length, List.length_singleton])

namespace Ethernet

/-- A segment of digits is read as a number, as long as it is that of a byte. -/
theorem inetAtonLoop_segment {segment rest : List UInt8} {dots acc : Nat} {result : IPAddress}
    (noDot : dot ∉ segment) (small : acc ≤ 255) :
    inetAtonLoop (segment ++ rest) dots acc result =
      if (∀ c ∈ segment, isDigit c = true) ∧ decimalFrom acc segment ≤ 255 then
        inetAtonLoop rest dots (decimalFrom acc segment) result
      else ⟨false, result⟩ := by
  induction segment generalizing acc with
  | nil => exact (if_pos ⟨fun _ member => absurd member List.not_mem_nil, small⟩).symm
  | cons c segment inductionHypothesis =>
    rw [List.mem_cons, not_or] at noDot
    rw [List.cons_append, inetAtonLoop]
    by_cases digit : isDigit c = true
    case pos =>
      rw [if_pos digit]
      by_cases fits : acc * 10 + (c.toNat - 48) > 255
      case pos =>
        have large := le_decimalFrom (acc * 10 + (c.toNat - 48)) segment
        rw [if_pos fits, if_neg]
        rintro ⟨_, inside⟩
        exact absurd (Nat.le_trans large inside) (Nat.not_le.mpr fits)
      case neg =>
        rw [if_neg fits, inductionHypothesis noDot.2 (Nat.le_of_not_lt fits)]
        simp only [List.forall_mem_cons, digit, true_and]
        rfl
    case neg =>
      rw [if_neg digit, if_neg (Ne.symm noDot.1), if_neg]
      rintro ⟨digits, _⟩
      exact digit (digits c List.mem_cons_self)

theorem inetAtonLoop_byte {segment : List UInt8} (noDot : dot ∉ segment) (rest : List UInt8)
    (dots : Nat) (result : IPAddress) :
    inetAtonLoop (segment ++ rest) dots 0 result =
      if ByteSegment segment then inetAtonLoop rest dots (decimalFrom 0 segment) result
      else ⟨false, result⟩ := by
  rw [inetAtonLoop_segment noDot (Nat.zero_le _)]
  rfl

theorem accepted_ne {result address : IPAddress} : (⟨false, result⟩ : Parsed) ≠ ⟨true, address⟩ :=
  fun same => Bool.false_ne_true (congrArg Parsed.accepted same)

theorem inetAtonLoop_accepted_iff : {list : List (List UInt8)} →
    (noDots : ∀ segment ∈ list, dot ∉ segment) → (notEmpty : list ≠ []) → {dots : Nat} →
    (before : dots ≤ 3) → {result address : IPAddress} →
    (inetAtonLoop ([dot].intercalate list) dots 0 result = ⟨true, address⟩ ↔
      dots + list.length = 4 ∧ (∀ segment ∈ list, ByteSegment segment) ∧
        address.toList = result.toList.take dots ++ list.map segmentByte)
  | [], _, notEmpty, _, _, _, _ => absurd rfl notEmpty
  | [segment], noDots, _, dots, before, result, address => by
    have read := inetAtonLoop_byte (noDots segment (List.mem_singleton_self _)) [] dots result
    rw [List.append_nil] at read
    rw [List.intercalate_singleton, read, List.forall_mem_singleton, List.length_singleton]
    by_cases good : ByteSegment segment
    case neg =>
      rw [if_neg good]
      exact iff_of_false accepted_ne fun all => good all.2.1
    case pos =>
      rw [if_pos good, inetAtonLoop]
      by_cases last : dots = 3
      case neg =>
        rw [if_pos last]
        exact iff_of_false accepted_ne fun all => last (by omega)
      case pos =>
        rw [if_neg (not_not.mpr last), Parsed.mk.injEq, ← Vector.toList_inj]
        have set : (result.setIfInBounds 3 (segmentByte segment)).toList.take 4 =
            result.toList.take 3 ++ [segmentByte segment] :=
          take_setIfInBounds (by decide) (segmentByte segment)
        rw [List.take_of_length_le (Nat.le_of_eq Vector.length_toList)] at set
        subst last
        refine ⟨fun same => ⟨rfl, good, ?_⟩, fun all => ⟨rfl, ?_⟩⟩
        · exact same.2.symm.trans set
        · exact set.trans all.2.2.symm
  | segment :: next :: list, noDots, _, dots, before, result, address => by
    have others : ∀ segment ∈ next :: list, dot ∉ segment :=
      fun segment member => noDots segment (List.mem_cons_of_mem _ member)
    rw [List.intercalate_cons_cons, List.append_assoc,
      inetAtonLoop_byte (noDots segment List.mem_cons_self), List.forall_mem_cons,
      List.length_cons, List.map_cons]
    by_cases good : ByteSegment segment
    case neg =>
      rw [if_neg good]
      exact iff_of_false accepted_ne fun all => good all.2.1.1
    case pos =>
      have separates : isDigit dot ≠ true := by decide
      rw [if_pos good, List.singleton_append, inetAtonLoop, if_neg separates, if_pos rfl]
      by_cases last : dots = 3
      case pos =>
        rw [if_pos last]
        refine iff_of_false accepted_ne fun all => ?_
        rw [List.length_cons] at all
        omega
      case neg =>
        rw [if_neg last, inetAtonLoop_accepted_iff others (List.cons_ne_nil _ _) (by omega),
          take_setIfInBounds (by omega), List.append_assoc]
        exact and_congr (by rw [List.length_cons]; omega)
          ⟨fun ⟨rest, bytes⟩ => ⟨⟨good, rest⟩, bytes⟩, fun ⟨⟨_, rest⟩, bytes⟩ => ⟨rest, bytes⟩⟩

/-- What is accepted: four numbers of a byte each. -/
theorem inetAton_spec (host : List UInt8) (result address : IPAddress) :
    inetAton host result = ⟨true, address⟩ ↔
      (segments host).length = 4 ∧ (∀ segment ∈ segments host, ByteSegment segment) ∧
        address.toList = (segments host).map segmentByte := by
  have read := @inetAtonLoop_accepted_iff (segments host)
    (fun _ member => dot_notMem_of_mem_segments member) (List.splitOn_ne_nil dot host) 0
    (Nat.zero_le 3) result address
  rw [intercalate_segments, Nat.zero_add, List.take_zero, List.nil_append] at read
  exact read

end Ethernet

end HomeAutomation
