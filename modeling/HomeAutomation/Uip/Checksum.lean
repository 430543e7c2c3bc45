import HomeAutomation.Lib.OnesComplement
import HomeAutomation.Uip.BlockMove

/-! # Checksums

The headers of a segment are in `uip_buf`, the data is in the memory of the ENC28J60, and each
has its own loop for the sum.  Together they are the sum over what is read: a segment that is
sent with its checksum is accepted when it arrives, unless its data begin behind the end of the
receive buffer, where the driver reads them from one place too far.  A part that is changed is
noticed unless its words have the same sum modulo 65535.
-/

namespace HomeAutomation.Uip

open HomeAutomation.Lib.Memory HomeAutomation.Lib.OnesComplement HomeAutomation.Lib.Transition
  Enc28J60 MemoryPool

/-! ## Packets -/

/-- What a handle stands for: the packet in the receive buffer, or a block. -/
inductive Packet
  | received (n : Network)
  | block (p : MemoryPool) (handle : Nat)

namespace Packet

def memory : Packet → Nat → UInt8
  | received n => n.memory
  | block p _ => p.memory

def size : Packet → UInt16
  | received n => n.size
  | block p handle => UInt16.ofNat (p.blocks handle).size

/-- `setReadPtr`: where to read, and how much. -/
def setReadPtr (position len : UInt16) : Packet → Nat × UInt16
  | received n => n.setReadPtr position len
  | block p handle =>
    let size := UInt16.ofNat (p.blocks handle).size
    (register (UInt16.ofNat (p.blocks handle).begin + position),
      if len > size - position then size - position else len)

/-- What is read. -/
def bytes (position : UInt16) (len : Nat) (packet : Packet) : List UInt8 :=
  readBuffer packet.memory (packet.setReadPtr position 0).1 len

end Packet

/-! ## The functions -/

def uipLlhLen : Nat := 14
def uipIphLen : Nat := 20
def uipProtoTcp : UInt8 := 6
def uipProtoUdp : UInt8 := 17
def uipUdphLen : UInt8 := 8

def htons (n : UInt16) : UInt16 := (n <<< 8) ||| (n >>> 8)

/-- Add the word `t` of two bytes, and the carry. -/
def addWord (sum : UInt16) (high low : UInt8) : UInt16 :=
  let t := (high.toUInt16 <<< 8) + low.toUInt16
  let sum := sum + t
  if sum < t then sum + 1 else sum

/-- `UIPEthernetClass::chksum` -/
def chksum (sum : UInt16) : List UInt8 → UInt16
  | high :: low :: rest => chksum (addWord sum high low) rest
  | [high] => addWord sum high 0
  | [] => sum

/-- The loop of `Enc28J60Network::chksum` over the bytes that the chip gives one after another;
    `len` is one less than their number. -/
def sumFrom (len : Nat) : (i : Nat) → UInt16 → List UInt8 → Option UInt16
  | i, sum, high :: low :: rest =>
    if i < len then sumFrom len (i + 2) (addWord sum high low) rest
    else if i = len then some (addWord sum high 0)
    else some sum
  | i, sum, [high] =>
    if i < len then none
    else if i = len then some (addWord sum high 0)
    else some sum
  | i, sum, [] => if i ≤ len then none else some sum

/-- `Enc28J60Network::chksum`; with no byte left in the packet its loop does not end. -/
def packetChksum (sum : UInt16) (packet : Packet) (pos len : UInt16) : Option UInt16 :=
  let (start, len) := packet.setReadPtr pos len
  if len = 0 then none
  else sumFrom (len.toNat - 1) 0 sum (readBuffer packet.memory start len.toNat)

/-- `BUF->len`, less the length of the IP header. -/
def upperLayerLen (buf : Nat → UInt8) : UInt16 :=
  ((buf 16).toUInt16 <<< 8) + (buf 17).toUInt16 - UInt16.ofNat uipIphLen

/-- The length of the header behind the IP header. -/
def upperLayerMemlen (proto : UInt8) (buf : Nat → UInt8) : UInt8 :=
  -- `BUF->tcpoffset`
  if proto = uipProtoUdp then uipUdphLen else (buf 46 >>> 4) <<< 2

/-- `UIPEthernetClass::upper_layer_chksum`; `packet` is `uip_packet`. -/
def upperLayerChksum (proto : UInt8) (buf : Nat → UInt8) (packet : Packet) : Option UInt16 := do
  let sum := upperLayerLen buf + proto.toUInt16
  -- `BUF->srcipaddr` and `BUF->destipaddr`
  let sum := chksum sum (load id buf 26 8)
  let memlen := upperLayerMemlen proto buf
  let sum := chksum sum (load id buf (uipIphLen + uipLlhLen) memlen.toNat)
  let sum ←
    if memlen.toUInt16 < upperLayerLen buf then
      packetChksum sum packet (UInt16.ofNat (uipIphLen + uipLlhLen) + memlen.toUInt16)
        (upperLayerLen buf - memlen.toUInt16)
    else some sum
  return if sum = 0 then 0xffff else htons sum

def uipTcpchksum (buf : Nat → UInt8) (packet : Packet) : Option UInt16 :=
  upperLayerChksum uipProtoTcp buf packet

/-- `BUF->tcpchksum = v`, low byte first. -/
def setTcpchksum (buf : Nat → UInt8) (v : UInt16) : Nat → UInt8 :=
  Function.update (Function.update buf 50 v.toUInt8) 51 (v >>> 8).toUInt8

/-- What `uip_process` does to the checksum of a segment to be sent. -/
def fillTcpchksum (buf : Nat → UInt8) (packet : Packet) : Option (Nat → UInt8) := do
  let buf := setTcpchksum buf 0
  let sum ← uipTcpchksum buf packet
  return setTcpchksum buf (~~~sum)

/-! ## The sums -/

theorem toNat_shiftLeft_add (high low : UInt8) :
    ((high.toUInt16 <<< 8) + low.toUInt16).toNat = word16 high low := by
  have highSmall := high.toNat_lt
  have lowSmall := low.toNat_lt
  rw [UInt16.toNat_add, UInt16.toNat_shiftLeft, UInt8.toNat_toUInt16, UInt8.toNat_toUInt16]
  simp only [UInt16.reduceToNat, Nat.shiftLeft_eq, Nat.reduceMod, Nat.reducePow, word16]
  omega

theorem toNat_addWord (sum : UInt16) (high low : UInt8) :
    (addWord sum high low).toNat = add 65535 sum.toNat (word16 high low) := by
  have sumSmall := sum.toNat_lt
  have word := toNat_shiftLeft_add high low
  have wordSmall := word16_le high low
  rw [addWord]
  simp only [UInt16.lt_iff_toNat_lt]
  have plain : (sum + ((high.toUInt16 <<< 8) + low.toUInt16)).toNat =
      (sum.toNat + word16 high low) % 2 ^ 16 := by
    rw [UInt16.toNat_add, word]
  rw [plain, word, add]
  split
  case isTrue wraps =>
    rw [if_neg (by omega), UInt16.toNat_add, plain]
    simp only [UInt16.reduceToNat]
    omega
  case isFalse stays =>
    rw [plain]
    split <;> omega

theorem sums_addWord {total : Nat} {sum : UInt16} (sums : Sums 65535 total sum.toNat)
    (high low : UInt8) :
    Sums 65535 (total + word16 high low) (addWord sum high low).toNat := by
  rw [toNat_addWord]
  exact sums.add (word16_le high low)

theorem sums_chksum : {total : Nat} → {sum : UInt16} → (sums : Sums 65535 total sum.toNat) →
    (data : List UInt8) → Sums 65535 (total + wordSum data) (chksum sum data).toNat
  | _, _, sums, [] => sums
  | _, _, sums, [high] => sums_addWord sums high 0
  | total, sum, sums, high :: low :: rest => by
    rw [chksum, wordSum, ← Nat.add_assoc]
    exact sums_chksum (sums_addWord sums high low) rest

/-- The loop over the memory of the chip sums up as the plain one. -/
theorem sumFrom_eq {len : Nat} : {i count : Nat} → {sum : UInt16} → {bytes : List UInt8} →
    (left : i + count = len + 1) → (inside : count ≤ bytes.length) →
    sumFrom len i sum bytes = some (chksum sum (bytes.take count))
  | i, 0, sum, bytes, left, _ => by
    have above : ¬ i < len := by omega
    have beyond : i ≠ len := by omega
    cases bytes with
    | nil => rw [sumFrom, if_neg (by omega), List.take_nil, chksum]
    | cons high rest =>
      cases rest with
      | nil => rw [sumFrom, if_neg above, if_neg beyond, List.take_zero, chksum]
      | cons low rest => rw [sumFrom, if_neg above, if_neg beyond, List.take_zero, chksum]
  | i, 1, sum, bytes, left, inside => by
    obtain rfl : i = len := by omega
    cases bytes with
    | nil => exact absurd inside (Nat.not_succ_le_zero 0)
    | cons high rest =>
      cases rest with
      | nil => rw [sumFrom, if_neg (Nat.lt_irrefl i), if_pos rfl]; rfl
      | cons low rest => rw [sumFrom, if_neg (Nat.lt_irrefl i), if_pos rfl]; rfl
  | i, count + 2, sum, bytes, left, inside => by
    have below : i < len := by omega
    match bytes, inside with
    | high :: low :: rest, inside =>
      have insideRest : count ≤ rest.length := by
        rw [List.length_cons, List.length_cons] at inside
        omega
      rw [sumFrom, if_pos below, sumFrom_eq (by omega) insideRest]
      rfl

theorem packetChksum_eq {sum : UInt16} {packet : Packet} {pos len : UInt16}
    (positive : 0 < len.toNat) (inside : pos.toNat + len.toNat ≤ packet.size.toNat) :
    packetChksum sum packet pos len = some (chksum sum (packet.bytes pos len.toNat)) := by
  have rest : (packet.size - pos).toNat = packet.size.toNat - pos.toNat :=
    UInt16.toNat_sub_of_le _ _ (UInt16.le_iff_toNat_le.mpr (by omega))
  have notMore : ¬ len > packet.size - pos := fun more => by
    have less := UInt16.lt_iff_toNat_lt.mp more
    omega
  have whole : packet.setReadPtr pos len = ((packet.setReadPtr pos 0).1, len) := by
    cases packet with
    | received n => exact congrArg (_, ·) (if_neg notMore)
    | block p handle => exact congrArg (_, ·) (if_neg notMore)
  have some : len ≠ 0 := by
    rintro rfl
    cases positive
  have length := length_readBuffer packet.memory (packet.setReadPtr pos 0).1 len.toNat
  rw [packetChksum, whole]
  dsimp only
  rw [if_neg some, sumFrom_eq (show 0 + len.toNat = len.toNat - 1 + 1 by omega) length.ge,
    List.take_of_length_le length.le]
  rfl

/-! ## Acceptance -/

/-- Where the data of a segment begin, and how many they are. -/
def dataPos (buf : Nat → UInt8) : Nat :=
  uipIphLen + uipLlhLen + (upperLayerMemlen uipProtoTcp buf).toNat

def dataLen (buf : Nat → UInt8) : Nat :=
  (upperLayerLen buf).toNat - (upperLayerMemlen uipProtoTcp buf).toNat

/-- The data of a segment, as the driver reads them. -/
def tcpData (buf : Nat → UInt8) (packet : Packet) : List UInt8 :=
  packet.bytes (UInt16.ofNat (dataPos buf)) (dataLen buf)

/-- The bytes that the checksum of a segment is about. -/
def covered (buf : Nat → UInt8) (packet : Packet) : List UInt8 :=
  load id buf 26 8 ++ (load id buf (uipIphLen + uipLlhLen) (upperLayerMemlen uipProtoTcp buf).toNat ++
    tcpData buf packet)

/-- The length includes the IP header, and all of the data is in the packet. -/
structure Whole (buf : Nat → UInt8) (packet : Packet) : Prop where
  length : uipIphLen ≤ word16 (buf 16) (buf 17)
  data : 0 < dataLen buf → dataPos buf + dataLen buf ≤ packet.size.toNat

variable {buf : Nat → UInt8} {packet : Packet}

theorem two_dvd_memlen (buf : Nat → UInt8) : 2 ∣ (upperLayerMemlen uipProtoTcp buf).toNat := by
  have shifted : upperLayerMemlen uipProtoTcp buf = (buf 46 >>> 4) <<< 2 :=
    if_neg (by decide)
  rw [shifted, UInt8.toNat_shiftLeft]
  simp only [UInt8.reduceToNat, Nat.shiftLeft_eq, Nat.reduceMod, Nat.reducePow]
  omega

theorem toNat_upperLayerLen (long : uipIphLen ≤ word16 (buf 16) (buf 17)) :
    (upperLayerLen buf).toNat = word16 (buf 16) (buf 17) - uipIphLen := by
  have word := toNat_shiftLeft_add (buf 16) (buf 17)
  have fits : UInt16.ofNat uipIphLen ≤ ((buf 16).toUInt16 <<< 8) + (buf 17).toUInt16 := by
    rw [UInt16.le_iff_toNat_le, word]
    exact long
  rw [upperLayerLen, UInt16.toNat_sub_of_le _ _ fits, word]
  rfl

/-- The lengths depend on the headers only. -/
theorem lengths_of_headers {arrived sent : Nat → UInt8} (long : 34 + 18 ≤ dataPos sent)
    (headers : ∀ i, 14 ≤ i → i < dataPos sent → arrived i = sent i) :
    upperLayerLen arrived = upperLayerLen sent ∧
      upperLayerMemlen uipProtoTcp arrived = upperLayerMemlen uipProtoTcp sent := by
  constructor
  · rw [upperLayerLen, upperLayerLen, headers 16 (by decide) (by omega),
      headers 17 (by decide) (by omega)]
  · rw [upperLayerMemlen, upperLayerMemlen, headers 46 (by decide) (by omega)]

theorem data_of_lengths {first second : Nat → UInt8}
    (lengths : upperLayerLen first = upperLayerLen second ∧
      upperLayerMemlen uipProtoTcp first = upperLayerMemlen uipProtoTcp second) :
    dataPos first = dataPos second ∧ dataLen first = dataLen second := by
  obtain ⟨len, memlen⟩ := lengths
  rw [dataPos, dataLen, len, memlen]
  exact ⟨rfl, rfl⟩

/-- The sum over the addresses, the header and the data. -/
theorem wordSum_covered (buf : Nat → UInt8) (packet : Packet) :
    wordSum (covered buf packet) = wordSum (load id buf 26 8) +
      wordSum (load id buf (uipIphLen + uipLlhLen) (upperLayerMemlen uipProtoTcp buf).toNat) +
      wordSum (tcpData buf packet) := by
  rw [covered, wordSum_append (by rw [length_load]; decide),
    wordSum_append (by rw [length_load]; exact two_dvd_memlen buf), Nat.add_assoc]

/-- The checksum is the sum over the lengths, the addresses, the header and the data. -/
theorem uipTcpchksum_spec (whole : Whole buf packet) :
    ∃ sum : UInt16,
      Sums 65535 ((upperLayerLen buf).toNat + 6 + wordSum (covered buf packet)) sum.toNat ∧
      uipTcpchksum buf packet = some (htons sum) := by
  have small := word16_le (buf 16) (buf 17)
  have start : (upperLayerLen buf + uipProtoTcp.toUInt16).toNat = (upperLayerLen buf).toNat + 6 := by
    rw [UInt16.toNat_add, toNat_upperLayerLen whole.length]
    have six : uipProtoTcp.toUInt16.toNat = 6 := by decide
    have positive : 0 < uipIphLen := by decide
    rw [six]
    have long := whole.length
    rw [uipIphLen] at *
    omega
  have startSums : Sums 65535 ((upperLayerLen buf).toNat + 6)
      (upperLayerLen buf + uipProtoTcp.toUInt16).toNat := by
    rw [start]
    apply Sums.one
    rw [toNat_upperLayerLen whole.length, uipIphLen]
    omega
  have headers := sums_chksum (sums_chksum startSums (load id buf 26 8))
    (load id buf (uipIphLen + uipLlhLen) (upperLayerMemlen uipProtoTcp buf).toNat)
  have split := wordSum_covered buf packet
  -- the protocol number makes the sum more than zero
  have notZero {sum : UInt16} {total : Nat} (sums : Sums 65535 total sum.toNat)
      (some : 6 ≤ total) : (if sum = 0 then 0xffff else htons sum) = htons sum := by
    apply if_neg
    rintro rfl
    have none := sums.zero.mp rfl
    omega
  rw [uipTcpchksum, upperLayerChksum]
  simp only [UInt16.lt_iff_toNat_lt, UInt8.toNat_toUInt16]
  by_cases data : (upperLayerMemlen uipProtoTcp buf).toNat < (upperLayerLen buf).toNat
  case pos =>
    have cut : (upperLayerLen buf - (upperLayerMemlen uipProtoTcp buf).toUInt16).toNat =
        dataLen buf := by
      rw [UInt16.toNat_sub_of_le _ _ (by
        rw [UInt16.le_iff_toNat_le, UInt8.toNat_toUInt16]
        exact data.le), UInt8.toNat_toUInt16, dataLen]
    have memlenSmall := (upperLayerMemlen uipProtoTcp buf).toNat_lt
    have place : UInt16.ofNat (uipIphLen + uipLlhLen) + (upperLayerMemlen uipProtoTcp buf).toUInt16 =
        UInt16.ofNat (dataPos buf) := by
      have word : (upperLayerMemlen uipProtoTcp buf).toUInt16 =
          UInt16.ofNat (upperLayerMemlen uipProtoTcp buf).toNat :=
        UInt16.toNat_inj.mp (by
          rw [UInt8.toNat_toUInt16, UInt16.toNat_ofNat_of_lt' (show _ < 2 ^ 16 by omega)])
      rw [word, ← UInt16.ofNat_add]
      rfl
    have pos : (UInt16.ofNat (dataPos buf)).toNat = dataPos buf := by
      rw [dataPos, uipIphLen, uipLlhLen]
      exact UInt16.toNat_ofNat_of_lt' (show _ < 2 ^ 16 by omega)
    have positive : 0 < dataLen buf := Nat.sub_pos_of_lt data
    have sums := sums_chksum headers (tcpData buf packet)
    rw [Nat.add_assoc, Nat.add_assoc, ← Nat.add_assoc (wordSum _), ← split] at sums
    refine ⟨_, sums, ?_⟩
    rw [if_pos data, place, packetChksum_eq (by rw [cut]; exact positive) (by
      rw [cut, pos]
      exact whole.data positive), cut]
    exact congrArg some (notZero sums (by omega))
  case neg =>
    have none : tcpData buf packet = [] := by
      rw [tcpData, dataLen, Nat.sub_eq_zero_of_le (Nat.le_of_not_lt data)]
      rfl
    rw [none, wordSum, Nat.add_zero] at split
    rw [Nat.add_assoc, ← split] at headers
    refine ⟨_, headers, ?_⟩
    rw [if_neg data]
    exact congrArg some (notZero headers (by omega))

theorem toNat_htons (n : UInt16) : (htons n).toNat = n.toNat % 256 * 256 + n.toNat / 256 := by
  have small := n.toNat_lt
  have low : n.toNat / 2 ^ 8 < 2 ^ 8 := by omega
  have disjoint := Nat.two_pow_add_eq_or_of_lt low (n.toNat % 256)
  rw [htons, UInt16.toNat_or, UInt16.toNat_shiftLeft, UInt16.toNat_shiftRight]
  simp only [UInt16.reduceToNat, Nat.reduceMod, Nat.shiftLeft_eq, Nat.shiftRight_eq_div_pow]
  rw [show n.toNat * 2 ^ 8 % 2 ^ 16 = 2 ^ 8 * (n.toNat % 256) by omega, ← disjoint]
  omega

theorem htons_eq_top_iff (n : UInt16) : htons n = 0xffff ↔ n.toNat = 65535 := by
  have small := n.toNat_lt
  have top : (0xffff : UInt16).toNat = 65535 := by decide
  rw [← UInt16.toNat_inj, toNat_htons, top]
  omega

/-- A segment is accepted exactly if its sum is a multiple of 65535. -/
theorem accepted_iff (whole : Whole buf packet) :
    uipTcpchksum buf packet = some 0xffff ↔
      65535 ∣ (upperLayerLen buf).toNat + 6 + wordSum (covered buf packet) := by
  obtain ⟨sum, sums, result⟩ := uipTcpchksum_spec whole
  rw [result, Option.some_inj, htons_eq_top_iff, sums.eq_top_iff (by decide)]
  exact and_iff_right (by omega)

/-! ## Sending -/

/-- The checksum is stored so that it is read as the complement of the sum. -/
theorem word16_complement (sum : UInt16) :
    word16 (~~~(htons sum)).toUInt8 ((~~~(htons sum)) >>> 8).toUInt8 = 65535 - sum.toNat := by
  have small := sum.toNat_lt
  have complement : (~~~(htons sum)).toNat = 65535 - (htons sum).toNat := UInt16.toNat_not _
  rw [word16, UInt16.toNat_toUInt8, UInt16.toNat_toUInt8, UInt16.toNat_shiftRight, complement,
    toNat_htons]
  simp only [UInt16.reduceToNat, Nat.reduceMod, Nat.reducePow, Nat.shiftRight_eq_div_pow]
  have split := Nat.div_add_mod sum.toNat 256
  have lowSmall : sum.toNat % 256 < 256 := Nat.mod_lt _ (by decide)
  have highSmall : sum.toNat / 256 < 256 := by omega
  generalize sum.toNat % 256 = low at *
  generalize sum.toNat / 256 = high at *
  rw [← split]
  have swapped : 65535 - (low * 256 + high) = (255 - low) * 256 + (255 - high) := by omega
  have quotient : ((255 - low) * 256 + (255 - high)) / 256 = 255 - low := by omega
  have remainder : ((255 - low) * 256 + (255 - high)) % 256 = 255 - high := by omega
  rw [swapped, quotient, remainder]
  omega

theorem setTcpchksum_other (buf : Nat → UInt8) (v : UInt16) {i : Nat} (other : i ≠ 50 ∧ i ≠ 51) :
    setTcpchksum buf v i = buf i := by
  rw [setTcpchksum, Function.update_of_ne other.2, Function.update_of_ne other.1]

theorem setTcpchksum_again (buf : Nat → UInt8) (v w : UInt16) :
    setTcpchksum (setTcpchksum buf v) w = setTcpchksum buf w := by
  funext i
  by_cases field : i = 50 ∨ i = 51
  case pos =>
    rcases field with rfl | rfl
    · rfl
    · rfl
  case neg =>
    rw [not_or] at field
    rw [setTcpchksum_other _ w field, setTcpchksum_other buf v field, setTcpchksum_other buf w field]

theorem load_setTcpchksum (buf : Nat → UInt8) (v : UInt16) {position count : Nat}
    (outside : position + count ≤ 50 ∨ 52 ≤ position) :
    load id (setTcpchksum buf v) position count = load id buf position count :=
  load_congr fun _ inside => setTcpchksum_other buf v (by simp only [id]; omega)

/-- The sum over a header with its checksum. -/
theorem wordSum_header (buf : Nat → UInt8) (v : UInt16) {memlen : Nat} (long : 18 ≤ memlen) :
    wordSum (load id (setTcpchksum buf v) 34 memlen) =
      wordSum (load id buf 34 16) + wordSum (load id buf 52 (memlen - 18)) +
        word16 v.toUInt8 (v >>> 8).toUInt8 := by
  obtain ⟨rest, rfl⟩ : ∃ rest, memlen = 16 + (2 + rest) := ⟨memlen - 18, by omega⟩
  have behind : 16 + (2 + rest) - 18 = rest := by omega
  have field : load id (setTcpchksum buf v) 50 2 = [v.toUInt8, (v >>> 8).toUInt8] := by
    rw [setTcpchksum, load, load, load]
    simp
  rw [behind, load_append, load_append, wordSum_append (by rw [length_load]; decide),
    wordSum_append (by rw [length_load]), field, load_setTcpchksum buf v (Or.inl (by omega)),
    load_setTcpchksum buf v (Or.inr (by omega)), wordSum, wordSum, show 34 + 16 + 2 = 52 from rfl]
  omega

/-- The lengths are not touched. -/
theorem lengths_setTcpchksum (buf : Nat → UInt8) (v : UInt16) :
    upperLayerLen (setTcpchksum buf v) = upperLayerLen buf ∧
      upperLayerMemlen uipProtoTcp (setTcpchksum buf v) = upperLayerMemlen uipProtoTcp buf := by
  constructor
  · rw [upperLayerLen, setTcpchksum_other buf v (by decide), setTcpchksum_other buf v (by decide)]
    rfl
  · rw [upperLayerMemlen, setTcpchksum_other buf v (by decide)]
    rfl

theorem data_setTcpchksum (buf : Nat → UInt8) (v : UInt16) :
    dataPos (setTcpchksum buf v) = dataPos buf ∧ dataLen (setTcpchksum buf v) = dataLen buf :=
  data_of_lengths (lengths_setTcpchksum buf v)

theorem tcpData_setTcpchksum (buf : Nat → UInt8) (v : UInt16) (packet : Packet) :
    tcpData (setTcpchksum buf v) packet = tcpData buf packet := by
  obtain ⟨pos, len⟩ := data_setTcpchksum buf v
  rw [tcpData, pos, len, tcpData]

theorem Whole.setTcpchksum (whole : Whole buf packet) (v : UInt16) :
    Whole (setTcpchksum buf v) packet := by
  obtain ⟨pos, len⟩ := data_setTcpchksum buf v
  refine ⟨?_, ?_⟩
  · rw [setTcpchksum_other buf v (by decide), setTcpchksum_other buf v (by decide)]
    exact whole.length
  · rw [pos, len]
    exact whole.data

/-- What the checksum adds to the sum. -/
theorem wordSum_setTcpchksum (buf : Nat → UInt8) (packet : Packet)
    (long : 18 ≤ (upperLayerMemlen uipProtoTcp buf).toNat) :
    ∃ rest, ∀ v : UInt16, wordSum (covered (setTcpchksum buf v) packet) =
      rest + word16 v.toUInt8 (v >>> 8).toUInt8 := by
  refine ⟨wordSum (load id buf 26 8) + (wordSum (load id buf 34 16) +
    wordSum (load id buf 52 ((upperLayerMemlen uipProtoTcp buf).toNat - 18))) +
    wordSum (tcpData buf packet), fun v => ?_⟩
  rw [wordSum_covered, (lengths_setTcpchksum buf v).2, tcpData_setTcpchksum,
    load_setTcpchksum buf v (Or.inl (by decide)), uipIphLen, uipLlhLen, wordSum_header buf v long]
  omega

/-- The checksum makes the sum a multiple of 65535. -/
theorem filled_spec (whole : Whole buf packet)
    (long : 18 ≤ (upperLayerMemlen uipProtoTcp buf).toNat) :
    ∃ v, fillTcpchksum buf packet = some (setTcpchksum buf v) ∧
      65535 ∣ (upperLayerLen buf).toNat + 6 + wordSum (covered (setTcpchksum buf v) packet) := by
  obtain ⟨sum, sums, result⟩ := uipTcpchksum_spec (whole.setTcpchksum 0)
  obtain ⟨rest, split⟩ := wordSum_setTcpchksum buf packet long
  have zero : word16 (0 : UInt16).toUInt8 ((0 : UInt16) >>> 8).toUInt8 = 0 := by decide
  rw [(lengths_setTcpchksum buf 0).1, split, zero, Nat.add_zero] at sums
  refine ⟨~~~(htons sum), ?_, ?_⟩
  · rw [fillTcpchksum]
    simp only [Option.bind_eq_bind, result, Option.bind_some]
    exact congrArg some (setTcpchksum_again buf 0 _)
  · rw [split, word16_complement, ← Nat.add_assoc]
    exact sums.complement

/-! ## Arriving -/

/-- The data of a block. -/
theorem tcpData_block {p : MemoryPool} {handle : Nat} (valid : Valid p)
    (inside : dataPos buf + dataLen buf ≤ (p.blocks handle).size) :
    tcpData buf (.block p handle) = ((contents p handle).drop (dataPos buf)).take (dataLen buf) := by
  obtain ⟨handles, ordered⟩ := valid
  rw [contents, load_slice inside]
  by_cases none : dataLen buf = 0
  case pos =>
    rw [tcpData, none]
    rfl
  case neg =>
    have block : handle ∈ handles := (ordered.used handle).mp (by omega)
    obtain ⟨behindBuffer, inBlock⟩ := ordered.place block
    have ram : ramSize = 8192 := rfl
    have place : (UInt16.ofNat (p.blocks handle).begin + UInt16.ofNat (dataPos buf)).toNat =
        (p.blocks handle).begin + dataPos buf := by
      rw [← UInt16.ofNat_add]
      exact UInt16.toNat_ofNat_of_lt' (show _ < 2 ^ 16 by omega)
    show readBuffer p.memory
      (register (UInt16.ofNat (p.blocks handle).begin + UInt16.ofNat (dataPos buf))) (dataLen buf) = _
    rw [register_eq (by rw [place]; omega), place]
    exact readBuffer_pool (by omega) (by omega)

/-- The data of a packet in the receive buffer. -/
theorem tcpData_received {n : Network} (begins : n.begin.toNat < rxSize)
    (size : n.size.toNat ≤ rxSize) (inside : dataPos buf + dataLen buf ≤ n.size.toNat)
    (some : 0 < dataLen buf) :
    tcpData buf (.received n) =
      load (· % rxSize) n.memory
        (n.begin.toNat + dataPos buf + late (n.begin.toNat + dataPos buf)) (dataLen buf) := by
  have ring : rxSize = 2048 := rfl
  have ram : ramSize = 8192 := rfl
  have pos : (UInt16.ofNat (dataPos buf)).toNat = dataPos buf :=
    UInt16.toNat_ofNat_of_lt' (show dataPos buf < 2 ^ 16 by omega)
  have sum : (n.begin + UInt16.ofNat (dataPos buf)).toNat = n.begin.toNat + dataPos buf := by
    rw [UInt16.toNat_add, pos]
    exact Nat.mod_eq_of_lt (by omega)
  have place : (wrapped (n.begin + UInt16.ofNat (dataPos buf))).toNat = _ :=
    toNat_wrapped (by rw [sum]; omega)
  have small : (wrapped (n.begin + UInt16.ofNat (dataPos buf))).toNat < ramSize := by
    rw [place]
    exact Nat.lt_trans (Nat.mod_lt _ (by decide)) (show rxSize < ramSize by decide)
  show readBuffer n.memory (register (wrapped (n.begin + UInt16.ofNat (dataPos buf))))
    (dataLen buf) = _
  rw [register_eq small, place, sum]
  exact readBuffer_eq_load

/-- With the headers of an accepted segment another is accepted if the data have the same sum. -/
theorem accepted_iff_data {arrived sent : Nat → UInt8} {other : Packet}
    (arrivedWhole : Whole arrived other)
    (accepted : 65535 ∣ (upperLayerLen sent).toNat + 6 + wordSum (covered sent packet))
    (headers : ∀ i, 14 ≤ i → i < dataPos sent → arrived i = sent i) (long : 34 + 18 ≤ dataPos sent) :
    uipTcpchksum arrived other = some 0xffff ↔
      wordSum (tcpData arrived other) ≡ wordSum (tcpData sent packet) [MOD 65535] := by
  obtain ⟨len, memlen⟩ := lengths_of_headers long headers
  have addresses : load id arrived 26 8 = load id sent 26 8 :=
    load_congr fun i inside => headers _ (by simp only [id]; omega) (by simp only [id]; omega)
  have header : load id arrived (uipIphLen + uipLlhLen) (upperLayerMemlen uipProtoTcp sent).toNat =
      load id sent (uipIphLen + uipLlhLen) (upperLayerMemlen uipProtoTcp sent).toNat :=
    load_congr fun i inside => headers _ (by simp only [id, uipIphLen, uipLlhLen]; omega)
      (by rw [dataPos]; exact Nat.add_lt_add_left inside _)
  rw [wordSum_covered, ← Nat.add_assoc, ← Nat.add_assoc] at accepted
  rw [accepted_iff arrivedWhole, wordSum_covered, len, memlen, addresses, header, ← Nat.add_assoc,
    ← Nat.add_assoc]
  exact dvd_replace_iff accepted

/-- A segment that arrives as it was sent, where the driver takes it to begin, is accepted if its
    data begin before the end of the receive buffer; otherwise it depends on the bytes one place
    further on. -/
theorem sent_accepted_iff {p : MemoryPool} {handle : Nat} (valid : Valid p)
    (whole : Whole buf (.block p handle)) (long : 18 ≤ (upperLayerMemlen uipProtoTcp buf).toNat)
    {sent : Nat → UInt8} (filled : fillTcpchksum buf (.block p handle) = some sent)
    {arrived : Nat → UInt8} {n : Network} (begins : n.begin.toNat < rxSize)
    (size : n.size.toNat ≤ rxSize) (inside : dataPos buf + dataLen buf ≤ n.size.toNat)
    (headers : ∀ i, 14 ≤ i → i < dataPos buf → arrived i = sent i)
    (data : load (· % rxSize) n.memory (n.begin.toNat + dataPos buf) (dataLen buf) =
      ((contents p handle).drop (dataPos buf)).take (dataLen buf)) :
    (n.begin.toNat + dataPos buf < rxSize → uipTcpchksum arrived (.received n) = some 0xffff) ∧
      (rxSize ≤ n.begin.toNat + dataPos buf →
        (uipTcpchksum arrived (.received n) = some 0xffff ↔
          wordSum (load (· % rxSize) n.memory (n.begin.toNat + dataPos buf + 1) (dataLen buf)) ≡
            wordSum (load (· % rxSize) n.memory (n.begin.toNat + dataPos buf) (dataLen buf))
            [MOD 65535])) := by
  obtain ⟨v, result, divides⟩ := filled_spec whole long
  cases filled.symm.trans result
  obtain ⟨pos, len⟩ := data_setTcpchksum buf v
  have sentWhole := whole.setTcpchksum v
  have dataPosIs : dataPos buf = 34 + (upperLayerMemlen uipProtoTcp buf).toNat := rfl
  rw [← (lengths_setTcpchksum buf v).1] at divides
  rw [← pos] at headers
  obtain ⟨arrivedPos, arrivedLen⟩ := data_of_lengths (lengths_of_headers (by omega) headers)
  rw [pos] at arrivedPos
  rw [len] at arrivedLen
  have arrivedWhole : Whole arrived (.received n) := by
    refine ⟨?_, fun _ => ?_⟩
    · rw [headers 16 (by decide) (by omega), headers 17 (by decide) (by omega)]
      exact sentWhole.length
    · rw [arrivedPos, arrivedLen]
      exact inside
  rw [accepted_iff_data arrivedWhole divides headers (by omega), tcpData_setTcpchksum]
  by_cases none : dataLen buf = 0
  case pos =>
    -- nothing is read
    have same : wordSum (tcpData arrived (.received n)) ≡ wordSum (tcpData buf (.block p handle))
        [MOD 65535] := by
      rw [tcpData, arrivedLen, none, tcpData, none]
      rfl
    refine ⟨fun _ => same, fun _ => iff_of_true same ?_⟩
    rw [none]
    rfl
  case neg =>
    have some : 0 < dataLen buf := Nat.pos_of_ne_zero none
    have inBlock : dataPos buf + dataLen buf ≤ (p.blocks handle).size :=
      (whole.data some).trans (Nat.mod_le _ _)
    -- both read the same bytes, but for the place behind the end
    rw [tcpData_block valid inBlock, ← data, tcpData_received begins size (by
      rw [arrivedPos, arrivedLen]; exact inside) (by rw [arrivedLen]; exact some), arrivedPos,
      arrivedLen]
    refine ⟨fun before => ?_, fun behind => ?_⟩
    · rw [late_of_lt before]
      rfl
    · rw [late_of_le behind]

/-- A header of 20 bytes, and data up to the length. -/
def sampleSegment (len high low : UInt8) : Nat → UInt8
  | 17 => len
  | 46 => 0x50
  | 50 => high
  | 51 => low
  | _ => 0

/-- The data in the receive buffer. -/
def sampleArrived (begin : UInt16) (data : List UInt8) : Network :=
  { Network.init (store (· % rxSize) (fun _ => 0) (begin.toNat + 54) data) with
    begin, size := 60 }

/-- Data that pass the end are accepted, data that begin behind it are not. -/
theorem sent_accepted_iff_three :
    ∃ p sent, run MemoryPool.step (MemoryPool.init fun _ => 0)
        [.allocBlock 57 1, .writePacket 1 54 [1, 2, 3] 3] = some p ∧
      fillTcpchksum (sampleSegment 43 0 0) (.block p 1) = some sent ∧
      uipTcpchksum sent (.received (sampleArrived 1992 [1, 2, 3])) = some 0xffff ∧
      uipTcpchksum sent (.received (sampleArrived 2000 [1, 2, 3])) ≠ some 0xffff := by
  obtain ⟨p, finished, state⟩ : ∃ p, run MemoryPool.step (MemoryPool.init fun _ => 0)
        [.allocBlock 57 1, .writePacket 1 54 [1, 2, 3] 3] = some p ∧
      (((Packet.block p 1).size.toNat, ((contents p 1).drop 54).take 3),
        (fillTcpchksum (sampleSegment 43 0 0) (.block p 1)).isSome) = ((57, [1, 2, 3]), true) :=
    Option.map_eq_some_iff.mp (by decide +kernel)
  simp only [Prod.mk.injEq] at state
  obtain ⟨⟨size, data⟩, filled⟩ := state
  obtain ⟨sent, filled⟩ := Option.isSome_iff_exists.mp filled
  have whole : Whole (sampleSegment 43 0 0) (.block p 1) := by
    refine ⟨by decide, fun _ => ?_⟩
    rw [size]
    decide
  have before := sent_accepted_iff (valid_run finished) whole (by decide) filled
    (show (sampleArrived 1992 [1, 2, 3]).begin.toNat < rxSize by decide) (by decide) (by decide)
    (fun _ _ _ => rfl) (Eq.trans (by decide +kernel) data.symm)
  have behind := sent_accepted_iff (valid_run finished) whole (by decide) filled
    (show (sampleArrived 2000 [1, 2, 3]).begin.toNat < rxSize by decide) (by decide) (by decide)
    (fun _ _ _ => rfl) (Eq.trans (by decide +kernel) data.symm)
  refine ⟨p, sent, finished, filled, before.1 (by decide), fun accepted => ?_⟩
  exact absurd ((behind.2 (by decide)).mp accepted) (by decide +kernel)

/-- A part of an accepted segment is replaced by another of the same length: the segment is still
    accepted exactly if the sums of the words are the same modulo 65535; a single word only if it
    was one form of zero and is the other. -/
theorem changed_accepted_iff (whole : Whole buf packet)
    (accepted : uipTcpchksum buf packet = some 0xffff) {arrived : Nat → UInt8} {other : Packet}
    (arrivedWhole : Whole arrived other) (len : upperLayerLen arrived = upperLayerLen buf)
    {before part changed behind : List UInt8} (even : 2 ∣ before.length)
    (sameLength : changed.length = part.length) (aligned : 2 ∣ part.length ∨ behind = [])
    (old : covered buf packet = before ++ (part ++ behind))
    (new : covered arrived other = before ++ (changed ++ behind)) :
    (uipTcpchksum arrived other = some 0xffff ↔
        wordSum changed ≡ wordSum part [MOD 65535]) ∧
      (part.length ≤ 2 →
        (uipTcpchksum arrived other = some 0xffff ↔
          wordSum changed = wordSum part ∨ wordSum changed = 0 ∧ wordSum part = 65535 ∨
            wordSum changed = 65535 ∧ wordSum part = 0)) := by
  have split {bytes : List UInt8} (length : bytes.length = part.length) :
      wordSum (bytes ++ behind) = wordSum bytes + wordSum behind := by
    rcases aligned with two | rfl
    · exact wordSum_append (by rw [length]; exact two) behind
    · rw [List.append_nil]
      rfl
  have small {bytes : List UInt8} (short : bytes.length ≤ 2) : wordSum bytes ≤ 65535 := by
    match bytes, short with
    | [], _ => exact Nat.zero_le _
    | [high], _ => exact word16_le high 0
    | [high, low], _ =>
      rw [wordSum, wordSum, Nat.add_zero]
      exact word16_le high low
  -- what stands before and behind the part has the same sum as before
  have rearranged (n : Nat) : (upperLayerLen buf).toNat + 6 + (wordSum before + (n + wordSum behind)) =
      (upperLayerLen buf).toNat + 6 + wordSum before + wordSum behind + n := by omega
  rw [accepted_iff whole, old, wordSum_append even, split rfl, rearranged] at accepted
  have same : uipTcpchksum arrived other = some 0xffff ↔
      wordSum changed ≡ wordSum part [MOD 65535] := by
    rw [accepted_iff arrivedWhole, new, wordSum_append even, split sameLength, len, rearranged]
    exact dvd_replace_iff accepted
  refine ⟨same, fun short => ?_⟩
  rw [same]
  exact modEq_words_iff (small short) (small (sameLength.trans_le short)) (by decide)

/-- Two words of the data are exchanged, which is not noticed, or two bytes, which is. -/
theorem changed_accepted_iff_exchanged :
    uipTcpchksum (sampleSegment 45 166 218) (.received (sampleArrived 0 [3, 4, 1, 2, 5])) =
        some 0xffff ∧
      uipTcpchksum (sampleSegment 45 166 218) (.received (sampleArrived 0 [2, 1, 3, 4, 5])) ≠
        some 0xffff := by
  have accepted : uipTcpchksum (sampleSegment 45 166 218)
      (.received (sampleArrived 0 [1, 2, 3, 4, 5])) = some 0xffff := by decide +kernel
  have whole (data : List UInt8) :
      Whole (sampleSegment 45 166 218) (.received (sampleArrived 0 data)) :=
    ⟨by decide, fun _ => show _ ≤ 60 by decide⟩
  have words := @changed_accepted_iff _ _ (whole [1, 2, 3, 4, 5]) accepted _ _
    (whole [3, 4, 1, 2, 5]) rfl
    (load id (sampleSegment 45 166 218) 26 8 ++ load id (sampleSegment 45 166 218) 34 20)
    [1, 2, 3, 4] [3, 4, 1, 2] [5] (by decide) rfl (Or.inl (by decide)) (by decide +kernel)
    (by decide +kernel)
  have word := @changed_accepted_iff _ _ (whole [1, 2, 3, 4, 5]) accepted _ _
    (whole [2, 1, 3, 4, 5]) rfl
    (load id (sampleSegment 45 166 218) 26 8 ++ load id (sampleSegment 45 166 218) 34 20)
    [1, 2] [2, 1] [3, 4, 5] (by decide) rfl (Or.inl (by decide)) (by decide +kernel)
    (by decide +kernel)
  refine ⟨words.1.mpr (by decide), fun same => ?_⟩
  exact absurd ((word.2 (by decide)).mp same) (by decide)

end HomeAutomation.Uip
