import HomeAutomation.Ethernet.Dns

/-! # Numeric addresses, for the ENC28J60

The library of the ENC28J60 tests every character with a condition that always holds, so that it
also takes names of other characters for addresses.  What the other library takes for an
address, it takes for the same one.
-/

namespace HomeAutomation

namespace Uip

/-! ## The functions -/

/-- `(segmentValue*10)+(*p - '0')`; `none` where the `int` of 16 bits overflows. -/
def nextValue (segmentValue : Int) (c : UInt8) : Option Int :=
  let scaled := segmentValue * 10
  let next := scaled + (c.toInt8.toInt - 48)
  if -2 ^ 15 ≤ scaled ∧ scaled < 2 ^ 15 ∧ -2 ^ 15 ≤ next ∧ next < 2 ^ 15 then some next else none

/-- The condition of the first loop; characters are signed. -/
def addressCharacter (c : UInt8) : Bool :=
  c == dot || 48 ≤ c.toInt8.toInt || c.toInt8.toInt ≤ 57

/-- What follows the second loop. -/
def lastSegment (segment : Nat) (segmentValue : Int) (result : IPAddress) : Parsed :=
  if segmentValue > 255 ∨ segment > 3 then ⟨false, result⟩
  else ⟨true, result.setIfInBounds segment (UInt8.ofInt segmentValue)⟩

def inetAtonLoop : (host : List UInt8) → (segment : Nat) → (segmentValue : Int) →
    (result : IPAddress) → Option Parsed
  | [], segment, segmentValue, result => some (lastSegment segment segmentValue result)
  | c :: host, segment, segmentValue, result =>
    if segment < 4 then
      if c = dot then
        if segmentValue > 255 then some ⟨false, result⟩
        else inetAtonLoop host (segment + 1) 0
          (result.setIfInBounds segment (UInt8.ofInt segmentValue))
      else do
        let segmentValue ← nextValue segmentValue c
        inetAtonLoop host segment segmentValue result
    else some (lastSegment segment segmentValue result)

/-- `DNSClient::inet_aton` of the ENC28J60's library; `none` where a number overflows. -/
def inetAton (host : List UInt8) (result : IPAddress) : Option Parsed :=
  if host.all addressCharacter then inetAtonLoop host 0 0 result else some ⟨false, result⟩

/-! ## Accepted names -/

/-- The number that a segment is read as, from `value` on. -/
def valueFrom (value : Int) (segment : List UInt8) : Option Int := segment.foldlM nextValue value

def valueByte (segment : List UInt8) : UInt8 := UInt8.ofInt ((valueFrom 0 segment).getD 0)

theorem all_addressCharacter (host : List UInt8) : host.all addressCharacter = true := by
  apply List.all_eq_true.mpr
  intro c _
  simp only [addressCharacter, Bool.or_eq_true, decide_eq_true_eq]
  omega

theorem inetAtonLoop_segment {segment rest : List UInt8} {i : Nat} {value : Int}
    {result : IPAddress} (noDot : dot ∉ segment) (inside : i < 4) :
    inetAtonLoop (segment ++ rest) i value result =
      (valueFrom value segment).bind fun value => inetAtonLoop rest i value result := by
  induction segment generalizing value with
  | nil => rfl
  | cons c segment inductionHypothesis =>
    rw [List.mem_cons, not_or] at noDot
    rw [List.cons_append, inetAtonLoop, if_pos inside, if_neg (Ne.symm noDot.1), valueFrom,
      List.foldlM_cons]
    cases next : nextValue value c with
    | none => rfl
    | some v => exact inductionHypothesis noDot.2

/-- More than four segments are not accepted. -/
theorem inetAtonLoop_four (host : List UInt8) (value : Int) (result : IPAddress) :
    inetAtonLoop host 4 value result = some ⟨false, result⟩ := by
  have last : lastSegment 4 value result = ⟨false, result⟩ := if_pos (Or.inr (by decide))
  cases host with
  | nil => rw [inetAtonLoop, last]
  | cons c host => rw [inetAtonLoop, if_neg (Nat.lt_irrefl 4), last]

theorem inetAtonLoop_accepted_iff : {list : List (List UInt8)} →
    (noDots : ∀ segment ∈ list, dot ∉ segment) → (notEmpty : list ≠ []) →
    (fits : ∀ segment ∈ list, ∃ value, valueFrom 0 segment = some value) → {i : Nat} →
    (before : i ≤ 4) → {result address : IPAddress} →
    (inetAtonLoop ([dot].intercalate list) i 0 result = some ⟨true, address⟩ ↔
      i + list.length ≤ 4 ∧ (∀ segment ∈ list, ∀ value ∈ valueFrom 0 segment, value ≤ 255) ∧
        address.toList = result.toList.take i ++
          (list.map valueByte ++ result.toList.drop (i + list.length)))
  | [], _, notEmpty, _, _, _, _, _ => absurd rfl notEmpty
  | [segment], noDots, _, fits, i, before, result, address => by
    rcases Nat.lt_or_eq_of_le before with inside | rfl
    case inr =>
      rw [inetAtonLoop_four, List.length_singleton]
      exact iff_of_false (fun same => Ethernet.accepted_ne (Option.some_inj.mp same))
        fun all => absurd all.1 (by decide)
    obtain ⟨value, valued⟩ := fits segment (List.mem_singleton_self _)
    have read := @inetAtonLoop_segment segment [] i 0 result
      (noDots segment (List.mem_singleton_self _)) inside
    rw [List.append_nil, valued, Option.bind_some, inetAtonLoop] at read
    rw [List.intercalate_singleton, read, List.forall_mem_singleton, List.length_singleton, valued,
      Option.some_inj, lastSegment, List.map_singleton, valueByte, valued]
    by_cases large : value > 255
    case pos =>
      rw [if_pos (Or.inl large)]
      refine iff_of_false Ethernet.accepted_ne fun all => ?_
      have small := all.2.1 value rfl
      omega
    case neg =>
      rw [if_neg (by omega), Parsed.mk.injEq, ← Vector.toList_inj, toList_setIfInBounds inside]
      constructor
      · rintro ⟨_, same⟩
        refine ⟨inside, ?_, same.symm⟩
        intro v member
        cases member
        omega
      · rintro ⟨_, _, same⟩
        exact ⟨rfl, same.symm⟩
  | segment :: next :: list, noDots, _, fits, i, before, result, address => by
    have others : ∀ segment ∈ next :: list, dot ∉ segment :=
      fun segment member => noDots segment (List.mem_cons_of_mem _ member)
    have fitOthers : ∀ segment ∈ next :: list, ∃ value, valueFrom 0 segment = some value :=
      fun segment member => fits segment (List.mem_cons_of_mem _ member)
    rcases Nat.lt_or_eq_of_le before with inside | rfl
    case inr =>
      rw [inetAtonLoop_four]
      refine iff_of_false (fun same => Ethernet.accepted_ne (Option.some_inj.mp same)) fun all => ?_
      rw [List.length_cons] at all
      omega
    obtain ⟨value, valued⟩ := fits segment List.mem_cons_self
    rw [List.intercalate_cons_cons, List.append_assoc,
      inetAtonLoop_segment (noDots segment List.mem_cons_self) inside, valued, Option.bind_some,
      List.singleton_append, inetAtonLoop, if_pos inside, if_pos rfl, List.forall_mem_cons, valued,
      List.length_cons, List.map_cons, valueByte, valued]
    by_cases large : value > 255
    case pos =>
      rw [if_pos large]
      refine iff_of_false (fun same => Ethernet.accepted_ne (Option.some_inj.mp same)) fun all => ?_
      have small := all.2.1.1 value rfl
      omega
    case neg =>
      have small : ∀ v ∈ some value, v ≤ 255 := by
        intro v member
        cases member
        omega
      have behind (byte : UInt8) : (result.setIfInBounds i byte).toList.drop
          (i + 1 + (next :: list).length) = result.toList.drop (i + ((next :: list).length + 1)) := by
        rw [Vector.toList_setIfInBounds, List.drop_set_of_lt (by omega)]
        congr 1
        omega
      rw [if_neg large, inetAtonLoop_accepted_iff others (List.cons_ne_nil _ _) fitOthers inside,
        take_setIfInBounds inside, behind, List.append_assoc]
      exact and_congr (by omega)
        ⟨fun ⟨rest, bytes⟩ => ⟨⟨small, rest⟩, bytes⟩, fun ⟨⟨_, rest⟩, bytes⟩ => ⟨rest, bytes⟩⟩

/-- What is accepted: up to four parts, each with a value of at most 255 whatever its
    characters are; the rest of the address stays as it is. -/
theorem inetAton_accepted_iff {host : List UInt8}
    (fits : ∀ segment ∈ segments host, ∃ value, valueFrom 0 segment = some value)
    (result address : IPAddress) :
    inetAton host result = some ⟨true, address⟩ ↔
      (segments host).length ≤ 4 ∧
        (∀ segment ∈ segments host, ∀ value ∈ valueFrom 0 segment, value ≤ 255) ∧
        address.toList =
          (segments host).map valueByte ++ result.toList.drop (segments host).length := by
  have read := @inetAtonLoop_accepted_iff (segments host)
    (fun _ member => dot_notMem_of_mem_segments member) (List.splitOn_ne_nil dot host) fits 0
    (Nat.zero_le 4) result address
  rw [intercalate_segments, Nat.zero_add, List.take_zero, List.nil_append] at read
  rw [inetAton, if_pos (all_addressCharacter host)]
  exact read

/-- The name `a` is taken for the address 49.0.0.0. -/
theorem inetAton_accepted_iff_name :
    inetAton [97] (Vector.replicate 4 0) = some ⟨true, #v[49, 0, 0, 0]⟩ ↔
      (segments [97]).length ≤ 4 ∧
        (∀ segment ∈ segments [97], ∀ value ∈ valueFrom 0 segment, value ≤ 255) ∧
        (#v[49, 0, 0, 0] : IPAddress).toList = (segments [97]).map valueByte ++
          (Vector.replicate 4 0 : IPAddress).toList.drop (segments [97]).length :=
  inetAton_accepted_iff
    (fun segment member => by
      rw [List.mem_singleton.mp member]
      exact ⟨49, by decide⟩) _ _

/-! ## Both libraries -/

theorem toInt_toInt8_digit {c : UInt8} (digit : Ethernet.isDigit c = true) :
    c.toInt8.toInt - 48 = (c.toNat - 48 : Nat) := by
  rw [Ethernet.isDigit, Bool.and_eq_true, decide_eq_true_eq, decide_eq_true_eq,
    UInt8.le_iff_toNat_le, UInt8.le_iff_toNat_le] at digit
  have lower : 48 ≤ c.toNat := digit.1
  have upper : c.toNat ≤ 57 := digit.2
  have unsigned : c.toInt8.toInt = c.toNat :=
    BitVec.toInt_eq_toNat_of_lt (show 2 * c.toNat < 2 ^ 8 by omega)
  omega

theorem valueFrom_digits {segment : List UInt8} {value : Nat}
    (digits : ∀ c ∈ segment, Ethernet.isDigit c = true) (small : decimalFrom value segment ≤ 255) :
    valueFrom value segment = some (decimalFrom value segment : Int) := by
  induction segment generalizing value with
  | nil => rfl
  | cons c segment inductionHypothesis =>
    obtain ⟨digit, others⟩ := List.forall_mem_cons.mp digits
    have next : nextValue value c = some ((value * 10 + (c.toNat - 48) : Nat) : Int) := by
      have below : value * 10 + (c.toNat - 48) ≤ 255 :=
        Nat.le_trans (le_decimalFrom _ segment) small
      rw [nextValue, toInt_toInt8_digit digit, if_pos (by omega)]
      rfl
    rw [valueFrom, List.foldlM_cons, next]
    exact inductionHypothesis others small

theorem valueByte_eq {segment : List UInt8} (byte : ByteSegment segment) :
    valueByte segment = segmentByte segment := by
  have below : ((decimalFrom 0 segment : Int) % 2 ^ 8).toNat = decimalFrom 0 segment := by
    have small := byte.2
    omega
  have valued : valueFrom 0 segment = some (decimalFrom 0 segment : Int) :=
    valueFrom_digits byte.1 byte.2
  rw [valueByte, valued, Option.getD_some, UInt8.ofInt, below]
  rfl

theorem accepted_of_byteSegments {host : List UInt8} {result address : IPAddress}
    (four : (segments host).length = 4) (bytes : ∀ segment ∈ segments host, ByteSegment segment)
    (same : address.toList = (segments host).map segmentByte) :
    inetAton host result = some ⟨true, address⟩ := by
  have values : ∀ segment ∈ segments host,
      valueFrom 0 segment = some (decimalFrom 0 segment : Int) :=
    fun segment member => valueFrom_digits (bytes segment member).1 (bytes segment member).2
  have read := @inetAtonLoop_accepted_iff (segments host)
    (fun _ member => dot_notMem_of_mem_segments member) (List.splitOn_ne_nil dot host)
    (fun segment member => ⟨_, values segment member⟩) 0 (Nat.zero_le 4) result address
  have nothing : result.toList.drop 4 = [] :=
    List.drop_of_length_le (Nat.le_of_eq Vector.length_toList)
  rw [intercalate_segments, Nat.zero_add, List.take_zero, List.nil_append, four, nothing,
    List.append_nil, List.map_congr_left fun segment member => valueByte_eq (bytes segment member)]
    at read
  rw [inetAton, if_pos (all_addressCharacter host)]
  refine read.mpr ⟨Nat.le_refl 4, fun segment member value valued => ?_, same⟩
  rw [values segment member] at valued
  cases valued
  have small := (bytes segment member).2
  omega

/-- What the library of the W5100 takes for an address, that of the ENC28J60 takes for the same
    address. -/
theorem inetAton_agrees {host : List UInt8} {result address : IPAddress}
    (accepted : Ethernet.inetAton host result = ⟨true, address⟩) :
    inetAton host result = some ⟨true, address⟩ := by
  obtain ⟨four, bytes, same⟩ := (Ethernet.inetAton_spec host result address).mp accepted
  exact accepted_of_byteSegments four bytes same

/-- The server of the light switch, 192.168.2.3. -/
theorem inetAton_agrees_server :
    inetAton [49, 57, 50, 46, 49, 54, 56, 46, 50, 46, 51] (Vector.replicate 4 0) =
      some ⟨true, #v[192, 168, 2, 3]⟩ :=
  inetAton_agrees (by decide)

end Uip

/-! ## Dotted addresses -/

def decimalText (byte : UInt8) : List UInt8 :=
  (Nat.toDigits 10 byte.toNat).map fun c => UInt8.ofNat c.toNat

/-- An address as it is written. -/
def dotted (address : IPAddress) : List UInt8 := [dot].intercalate (address.toList.map decimalText)

theorem digitByte {c : Char} (digit : c.isDigit = true) :
    Ethernet.isDigit (UInt8.ofNat c.toNat) = true ∧
      (UInt8.ofNat c.toNat).toNat - 48 = c.toNat - '0'.toNat := by
  obtain ⟨lower, upper⟩ := Char.isDigit_iff_toNat.mp digit
  have small : (UInt8.ofNat c.toNat).toNat = c.toNat :=
    UInt8.toNat_ofNat_of_lt' (Nat.lt_of_le_of_lt upper (by decide))
  constructor
  · rw [Ethernet.isDigit, Bool.and_eq_true, decide_eq_true_eq, decide_eq_true_eq,
      UInt8.le_iff_toNat_le, UInt8.le_iff_toNat_le, small]
    exact ⟨lower, upper⟩
  · rw [small]
    rfl

theorem decimalFrom_digits {digits : List Char} {value : Nat}
    (all : ∀ c ∈ digits, c.isDigit = true) :
    decimalFrom value (digits.map fun c => UInt8.ofNat c.toNat) =
      Nat.ofDigitChars 10 digits value := by
  induction digits generalizing value with
  | nil =>
    rw [Nat.ofDigitChars_nil]
    rfl
  | cons c digits inductionHypothesis =>
    obtain ⟨digit, others⟩ := List.forall_mem_cons.mp all
    rw [List.map_cons, decimalFrom, List.foldl_cons, (digitByte digit).2, Nat.mul_comm,
      Nat.ofDigitChars_cons]
    exact inductionHypothesis others

theorem decimalFrom_decimalText (byte : UInt8) : decimalFrom 0 (decimalText byte) = byte.toNat := by
  rw [decimalText, decimalFrom_digits fun c member =>
    Nat.isDigit_of_mem_toDigits (by decide) (by decide) member, Nat.ofDigitChars_ten_toDigits]

theorem byteSegment_decimalText (byte : UInt8) : ByteSegment (decimalText byte) := by
  refine ⟨fun c member => ?_, ?_⟩
  · obtain ⟨digit, among, rfl⟩ := List.mem_map.mp member
    exact (digitByte (Nat.isDigit_of_mem_toDigits (by decide) (by decide) among)).1
  · rw [decimalFrom_decimalText]
    exact Nat.le_of_lt_succ byte.toNat_lt

theorem segmentByte_decimalText (byte : UInt8) : segmentByte (decimalText byte) = byte := by
  rw [segmentByte, decimalFrom_decimalText, UInt8.ofNat_toNat]

theorem segments_dotted (address : IPAddress) :
    segments (dotted address) = address.toList.map decimalText := by
  apply List.splitOn_intercalate dot
  · intro segment member inside
    obtain ⟨byte, _, rfl⟩ := List.mem_map.mp member
    exact absurd ((byteSegment_decimalText byte).1 dot inside) (by decide)
  · rw [ne_eq, List.map_eq_nil_iff, ← List.length_eq_zero_iff, Vector.length_toList]
    decide

/-- A dotted address is read by both libraries, and none is looked up. -/
theorem inetAton_dotted (address result : IPAddress) :
    Ethernet.inetAton (dotted address) result = ⟨true, address⟩ ∧
      Uip.inetAton (dotted address) result = some ⟨true, address⟩ := by
  have split := segments_dotted address
  have four : (segments (dotted address)).length = 4 := by
    rw [split, List.length_map, Vector.length_toList]
  have bytes : ∀ segment ∈ segments (dotted address), ByteSegment segment := by
    intro segment member
    rw [split] at member
    obtain ⟨byte, _, rfl⟩ := List.mem_map.mp member
    exact byteSegment_decimalText byte
  have same : address.toList = (segments (dotted address)).map segmentByte := by
    rw [split, List.map_map]
    exact (List.map_id'' segmentByte_decimalText _).symm
  exact ⟨(Ethernet.inetAton_spec _ _ _).mpr ⟨four, bytes, same⟩,
    Uip.accepted_of_byteSegments four bytes same⟩

end HomeAutomation
