import HomeAutomation.Lib.Transition
import Mathlib.Data.List.Basic

/-! # The ARP table

Which Ethernet address belongs to an IP address: `uip_arp.c`.  The table has eight entries; an
entry is free when its IP address is zero.
-/

namespace HomeAutomation.Uip

open HomeAutomation.Lib.Transition

/-- `u16_t ipaddr[2]` -/
structure IpAddr where
  w0 : UInt16
  w1 : UInt16
  deriving DecidableEq

abbrev EthAddr := Vector UInt8 6

namespace Arp

/-- `UIP_ARPTAB_SIZE` -/
def arptabSize : Nat := 8

/-- `UIP_ARP_MAXAGE` -/
def maxage : Int := 120

def noAddr : IpAddr := ⟨0, 0⟩
def broadcastIpaddr : IpAddr := ⟨0xffff, 0xffff⟩
def broadcastEthaddr : EthAddr := Vector.replicate 6 0xff

structure ArpEntry where
  ipaddr : IpAddr
  ethaddr : EthAddr
  time : UInt8
  deriving DecidableEq

/-- `arp_table` and `arptime` -/
structure ArpTable where
  entries : List ArpEntry
  size : entries.length = arptabSize
  arptime : UInt8

/-- `uip_ethaddr`, `uip_hostaddr`, `uip_netmask` and `uip_draddr` -/
structure Config where
  ethaddr : EthAddr
  hostaddr : IpAddr
  netmask : IpAddr
  draddr : IpAddr

/-- `struct arp_hdr` without the constant fields -/
structure ArpHdr where
  dest : EthAddr
  src : EthAddr
  opcode : UInt16
  shwaddr : EthAddr
  sipaddr : IpAddr
  dhwaddr : EthAddr
  dipaddr : IpAddr
  deriving DecidableEq

def arpRequest : UInt16 := 1
def arpReply : UInt16 := 2

/-- What `uip_arp_out` makes of an IP packet: a frame with its destination, or a request in its
    place. -/
inductive Frame
  | ip (dest : EthAddr)
  | arp (request : ArpHdr)
  deriving DecidableEq

/-! ## The functions -/

namespace ArpTable

/-- `uip_arp_init`, and the other static variables as they start. -/
def init : ArpTable :=
  ⟨List.replicate arptabSize ⟨noAddr, Vector.replicate 6 0, 0⟩, List.length_replicate, 0⟩

def set (table : ArpTable) (i : Nat) (entry : ArpEntry) : ArpTable :=
  ⟨table.entries.set i entry, (List.length_set ..).trans table.size, table.arptime⟩

/-- The difference of two `u8_t` is an `int`. -/
def age (arptime : UInt8) (entry : ArpEntry) : Int := arptime.toNat - entry.time.toNat

/-- `uip_arp_timer` -/
def uipArpTimer (table : ArpTable) : ArpTable :=
  let arptime := table.arptime + 1
  let expire (entry : ArpEntry) : ArpEntry :=
    if entry.ipaddr.w0 ||| entry.ipaddr.w1 ≠ 0 ∧ age arptime entry ≥ maxage then
      { entry with ipaddr := noAddr }
    else entry
  ⟨table.entries.map expire, List.length_map expire |>.trans table.size, arptime⟩

/-- The entry is in use, and for this address. -/
def matching (ipaddr : IpAddr) (entry : ArpEntry) : Bool :=
  entry.ipaddr.w0 != 0 && entry.ipaddr.w1 != 0 && ipaddr == entry.ipaddr

/-- The loop for the oldest entry, from place `i` on; the place `c` of the oldest so far. -/
def oldest (arptime : UInt8) : List ArpEntry → (i : Nat) → (tmpage : UInt8) → (c : Nat) → Nat
  | [], _, _, c => c
  | entry :: entries, i, tmpage, c =>
    if age arptime entry > tmpage.toNat then
      oldest arptime entries (i + 1) (arptime - entry.time) i
    else oldest arptime entries (i + 1) tmpage c

/-- `uip_arp_update` -/
def uipArpUpdate (table : ArpTable) (ipaddr : IpAddr) (ethaddr : EthAddr) : ArpTable :=
  let i := table.entries.findIdx (matching ipaddr)
  if i < arptabSize then table.set i ⟨ipaddr, ethaddr, table.arptime⟩
  else
    let i := table.entries.findIdx fun entry => entry.ipaddr.w0 == 0 && entry.ipaddr.w1 == 0
    let i := if i = arptabSize then oldest table.arptime table.entries 0 0 0 else i
    table.set i ⟨ipaddr, ethaddr, table.arptime⟩

end ArpTable

/-- `uip_ipaddr_maskcmp` -/
def maskcmp (first second netmask : IpAddr) : Bool :=
  first.w0 &&& netmask.w0 == second.w0 &&& netmask.w0 &&
    first.w1 &&& netmask.w1 == second.w1 &&& netmask.w1

/-- `uip_arp_ipin` -/
def uipArpIpin (config : Config) (table : ArpTable) (src : EthAddr) (srcipaddr : IpAddr) :
    ArpTable :=
  if srcipaddr.w0 &&& config.netmask.w0 ≠ config.hostaddr.w0 &&& config.netmask.w0 then table
  else if srcipaddr.w1 &&& config.netmask.w1 ≠ config.hostaddr.w1 &&& config.netmask.w1 then table
  else table.uipArpUpdate srcipaddr src

/-- `uip_arp_arpin`, with the answer if there is one. -/
def uipArpArpin (config : Config) (table : ArpTable) (hdr : ArpHdr) : ArpTable × Option ArpHdr :=
  if hdr.opcode = arpRequest then
    if hdr.dipaddr = config.hostaddr then
      (table.uipArpUpdate hdr.sipaddr hdr.shwaddr,
        some
          { dest := hdr.shwaddr
            src := config.ethaddr
            opcode := arpReply
            shwaddr := config.ethaddr
            sipaddr := config.hostaddr
            dhwaddr := hdr.shwaddr
            dipaddr := hdr.sipaddr })
    else (table, none)
  else if hdr.opcode = arpReply then
    if hdr.dipaddr = config.hostaddr then (table.uipArpUpdate hdr.sipaddr hdr.shwaddr, none)
    else (table, none)
  else (table, none)

/-- The address that is looked up: hosts that are not on the local network are behind the
    router. -/
def nextHop (config : Config) (destipaddr : IpAddr) : IpAddr :=
  if !maskcmp destipaddr config.hostaddr config.netmask then config.draddr else destipaddr

/-- `uip_arp_out` -/
def uipArpOut (config : Config) (table : ArpTable) (destipaddr : IpAddr) : Frame :=
  if destipaddr = broadcastIpaddr then .ip broadcastEthaddr
  else
    let ipaddr := nextHop config destipaddr
    match table.entries.find? fun entry => ipaddr == entry.ipaddr with
    | none =>
      .arp
        { dest := Vector.replicate 6 0xff
          src := config.ethaddr
          opcode := arpRequest
          shwaddr := config.ethaddr
          sipaddr := config.hostaddr
          dhwaddr := Vector.replicate 6 0
          dipaddr := ipaddr }
    | some entry => .ip entry.ethaddr

/-! ## Runs -/

/-- `out` carries what is sent. -/
inductive Event
  | ipin (src : EthAddr) (srcipaddr : IpAddr)
  | arpin (hdr : ArpHdr)
  | timer
  | out (destipaddr : IpAddr) (frame : Frame)
  deriving DecidableEq

def step (config : Config) (table : ArpTable) : Event → Option ArpTable
  | .ipin src srcipaddr => some (uipArpIpin config table src srcipaddr)
  | .arpin hdr => some (uipArpArpin config table hdr).1
  | .timer => some table.uipArpTimer
  | .out destipaddr frame => if uipArpOut config table destipaddr = frame then some table else none

/-- The addresses that an event enters into the table. -/
def announced (config : Config) : Event → Option (IpAddr × EthAddr)
  | .ipin src srcipaddr =>
    if maskcmp srcipaddr config.hostaddr config.netmask then some (srcipaddr, src) else none
  | .arpin hdr =>
    if (hdr.opcode = arpRequest ∨ hdr.opcode = arpReply) ∧ hdr.dipaddr = config.hostaddr then
      some (hdr.sipaddr, hdr.shwaddr)
    else none
  | .timer => none
  | .out _ _ => none

/-! ## What an update does -/

/-- The address can be told from a free entry: `uip_arp_update` takes an entry to be in use
    only if neither half of its address is zero. -/
def Usable (ipaddr : IpAddr) : Prop := ipaddr.w0 ≠ 0 ∧ ipaddr.w1 ≠ 0

instance (ipaddr : IpAddr) : Decidable (Usable ipaddr) := inferInstanceAs (Decidable (_ ∧ _))

theorem not_usable_noAddr : ¬ Usable noAddr := fun usable => usable.1 rfl

namespace ArpTable

variable {table : ArpTable} {ipaddr : IpAddr}

theorem matching_iff {entry : ArpEntry} :
    matching ipaddr entry = true ↔ entry.ipaddr = ipaddr ∧ Usable ipaddr := by
  rw [matching, Bool.and_eq_true, Bool.and_eq_true, bne_iff_ne, bne_iff_ne, beq_iff_eq]
  constructor
  · rintro ⟨usable, rfl⟩
    exact ⟨rfl, usable⟩
  · rintro ⟨rfl, usable⟩
    exact ⟨usable, rfl⟩

/-- The place that an update writes: that of the address, the first that is free, or the
    oldest. -/
inductive Place (table : ArpTable) (ipaddr : IpAddr) : Nat → Prop
  | found {i : Nat} {entry : ArpEntry} (here : table.entries[i]? = some entry)
      (same : entry.ipaddr = ipaddr) (usable : Usable ipaddr) : Place table ipaddr i
  | free {i : Nat} {entry : ArpEntry} (here : table.entries[i]? = some entry)
      (absent : ∀ entry ∈ table.entries, entry.ipaddr = ipaddr → ¬ Usable ipaddr)
      (unused : entry.ipaddr = noAddr)
      (first : ∀ j < i, ∀ entry, table.entries[j]? = some entry → entry.ipaddr ≠ noAddr) :
      Place table ipaddr i
  | oldest (absent : ∀ entry ∈ table.entries, entry.ipaddr = ipaddr → ¬ Usable ipaddr)
      (full : ∀ entry ∈ table.entries, entry.ipaddr ≠ noAddr) :
      Place table ipaddr (oldest table.arptime table.entries 0 0 0)

theorem oldest_lt {arptime : UInt8} {entries : List ArpEntry} {i c : Nat} {tmpage : UInt8}
    {size : Nat} (inside : i + entries.length ≤ size) (small : c < size) :
    oldest arptime entries i tmpage c < size := by
  induction entries generalizing i c tmpage with
  | nil => exact small
  | cons entry entries inductionHypothesis =>
    rw [List.length_cons] at inside
    rw [oldest]
    split
    · exact inductionHypothesis (by omega) (by omega)
    · exact inductionHypothesis (by omega) small

/-- Where no entry is older than the clock, the first place is taken. -/
theorem oldest_of_young {arptime : UInt8} {entries : List ArpEntry} {i c : Nat}
    (young : ∀ entry ∈ entries, age arptime entry ≤ 0) : oldest arptime entries i 0 c = c := by
  induction entries generalizing i with
  | nil => rfl
  | cons entry entries inductionHypothesis =>
    obtain ⟨here, others⟩ := List.forall_mem_cons.mp young
    have notOlder : ¬ age arptime entry > (0 : UInt8).toNat := by
      rw [UInt8.toNat_zero]
      omega
    rw [oldest, if_neg notOlder]
    exact inductionHypothesis others

/-- The entry at the first place that satisfies a condition. -/
theorem getElem?_findIdx {entries : List ArpEntry} {p : ArpEntry → Bool}
    (inside : entries.findIdx p < entries.length) :
    ∃ entry, entries[entries.findIdx p]? = some entry ∧ p entry = true :=
  ⟨entries[entries.findIdx p], List.getElem?_eq_getElem inside, List.findIdx_getElem⟩

theorem uipArpUpdate_spec (table : ArpTable) (ipaddr : IpAddr) (ethaddr : EthAddr) :
    ∃ i < table.entries.length, Place table ipaddr i ∧
      table.uipArpUpdate ipaddr ethaddr = table.set i ⟨ipaddr, ethaddr, table.arptime⟩ := by
  rw [uipArpUpdate]
  by_cases known : table.entries.findIdx (matching ipaddr) < arptabSize
  case pos =>
    rw [if_pos known]
    rw [← table.size] at known
    obtain ⟨entry, here, isMatch⟩ := getElem?_findIdx known
    obtain ⟨same, usable⟩ := matching_iff.mp isMatch
    exact ⟨_, known, .found here same usable, rfl⟩
  case neg =>
    have absent : ∀ entry ∈ table.entries, entry.ipaddr = ipaddr → ¬ Usable ipaddr := by
      intro entry member same usable
      refine known ?_
      rw [← table.size]
      exact List.findIdx_lt_length_of_exists ⟨entry, member, matching_iff.mpr ⟨same, usable⟩⟩
    have free_iff {entry : ArpEntry} :
        (entry.ipaddr.w0 == 0 && entry.ipaddr.w1 == 0) = true ↔ entry.ipaddr = noAddr := by
      rw [Bool.and_eq_true, beq_iff_eq, beq_iff_eq, noAddr]
      obtain ⟨⟨w0, w1⟩, _, _⟩ := entry
      rw [IpAddr.mk.injEq]
    rw [if_neg known]
    by_cases some : table.entries.findIdx
        (fun entry => entry.ipaddr.w0 == 0 && entry.ipaddr.w1 == 0) = arptabSize
    case pos =>
      simp only [if_pos some]
      refine ⟨_, oldest_lt (Nat.le_of_eq (Nat.zero_add _)) (by rw [table.size]; decide),
        .oldest absent fun entry member unused => ?_, rfl⟩
      rw [← table.size] at some
      have inside := List.findIdx_lt_length_of_exists
        (p := fun entry : ArpEntry => entry.ipaddr.w0 == 0 && entry.ipaddr.w1 == 0)
        ⟨entry, member, free_iff.mpr unused⟩
      omega
    case neg =>
      have inside := @List.findIdx_le_length _
        (fun entry : ArpEntry => entry.ipaddr.w0 == 0 && entry.ipaddr.w1 == 0) table.entries
      rw [← table.size] at some
      simp only [if_neg (table.size ▸ some)]
      obtain ⟨entry, here, unused⟩ := getElem?_findIdx (Nat.lt_of_le_of_ne inside some)
      refine ⟨_, Nat.lt_of_le_of_ne inside some,
        .free here absent (free_iff.mp unused) fun j before other there unused => ?_, rfl⟩
      obtain ⟨length, rfl⟩ := List.getElem?_eq_some_iff.mp there
      have used := List.not_of_lt_findIdx before
      rw [free_iff.mpr unused] at used
      cases used

end ArpTable

/-- What an event does to the table. -/
theorem step_eq {config : Config} {table next : ArpTable} {event : Event}
    (stepped : step config table event = some next) :
    (∃ ipaddr ethaddr, announced config event = some (ipaddr, ethaddr) ∧
        next = table.uipArpUpdate ipaddr ethaddr) ∨
      announced config event = none ∧
        (event = .timer ∧ next = table.uipArpTimer ∨ event ≠ .timer ∧ next = table) := by
  cases event with
  | ipin src srcipaddr =>
    cases stepped
    rw [announced, maskcmp, uipArpIpin]
    by_cases w0 : srcipaddr.w0 &&& config.netmask.w0 = config.hostaddr.w0 &&& config.netmask.w0
    case neg =>
      rw [if_pos w0, if_neg (by rw [Bool.and_eq_true, beq_iff_eq]; exact fun same => w0 same.1)]
      exact Or.inr ⟨rfl, Or.inr ⟨Event.noConfusion, rfl⟩⟩
    case pos =>
      rw [if_neg (not_not.mpr w0)]
      by_cases w1 : srcipaddr.w1 &&& config.netmask.w1 = config.hostaddr.w1 &&& config.netmask.w1
      case neg =>
        rw [if_pos w1, if_neg (by
          rw [Bool.and_eq_true, beq_iff_eq, beq_iff_eq]
          exact fun same => w1 same.2)]
        exact Or.inr ⟨rfl, Or.inr ⟨Event.noConfusion, rfl⟩⟩
      case pos =>
        rw [if_neg (not_not.mpr w1), if_pos (by
          rw [Bool.and_eq_true, beq_iff_eq, beq_iff_eq]
          exact ⟨w0, w1⟩)]
        exact Or.inl ⟨srcipaddr, src, rfl, rfl⟩
  | arpin hdr =>
    cases stepped
    rw [announced, uipArpArpin]
    by_cases ours : hdr.dipaddr = config.hostaddr
    case neg =>
      rw [if_neg fun all => ours all.2, if_neg ours, if_neg ours, ite_self, ite_self]
      exact Or.inr ⟨rfl, Or.inr ⟨Event.noConfusion, rfl⟩⟩
    case pos =>
      rw [if_pos ours, if_pos ours]
      by_cases request : hdr.opcode = arpRequest
      case pos =>
        rw [if_pos request, if_pos ⟨Or.inl request, ours⟩]
        exact Or.inl ⟨_, _, rfl, rfl⟩
      case neg =>
        rw [if_neg request]
        by_cases reply : hdr.opcode = arpReply
        case pos =>
          rw [if_pos reply, if_pos ⟨Or.inr reply, ours⟩]
          exact Or.inl ⟨_, _, rfl, rfl⟩
        case neg =>
          rw [if_neg reply, if_neg fun all => all.1.elim request reply]
          exact Or.inr ⟨rfl, Or.inr ⟨Event.noConfusion, rfl⟩⟩
  | timer =>
    cases stepped
    exact Or.inr ⟨rfl, Or.inl ⟨rfl, rfl⟩⟩
  | out destipaddr frame =>
    rw [step] at stepped
    split at stepped
    · cases stepped
      exact Or.inr ⟨rfl, Or.inr ⟨Event.noConfusion, rfl⟩⟩
    · cases stepped

end Arp

end HomeAutomation.Uip
