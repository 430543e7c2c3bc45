import HomeAutomation.Lib.History
import HomeAutomation.Lib.Residents
import HomeAutomation.Uip.Arp

/-! # Which hosts are in the ARP table

Every host that is in the table has the address it announced last, and one exchange of a request
and a reply is enough for two hosts to find each other.  As `uip_arp_timer` is not called by the
library, entries do not get older: the second to the eighth host that announce themselves stay in
the table for good, and all others take turns in the first place.
-/

namespace HomeAutomation.Uip.Arp

open HomeAutomation.Lib.Transition HomeAutomation.Lib.History HomeAutomation.Lib.Residents ArpTable

variable {config : Config} {events : List Event} {table : ArpTable}

/-! ## The latest announcement -/

/-- The Ethernet address that an event announces for an IP address. -/
def heard (config : Config) (ipaddr : IpAddr) (event : Event) : Option EthAddr :=
  (announced config event).bind fun (other, ethaddr) => if other = ipaddr then some ethaddr else none

theorem getElem?_set (table : ArpTable) {i j : Nat} (inside : i < table.entries.length)
    (entry : ArpEntry) :
    (table.set i entry).entries[j]? = if i = j then some entry else table.entries[j]? := by
  show (table.entries.set i entry)[j]? = _
  rw [List.getElem?_set]
  by_cases same : i = j
  · rw [if_pos same, if_pos same, if_pos inside]
  · rw [if_neg same, if_neg same]

/-- No address is in the table twice, and each is the latest that was announced. -/
structure Sound (config : Config) (events : List Event) (table : ArpTable) : Prop where
  distinct : ∀ (i j : Nat) (first second : ArpEntry), table.entries[i]? = some first →
    table.entries[j]? = some second → Usable first.ipaddr → first.ipaddr = second.ipaddr → i = j
  heard : ∀ entry ∈ table.entries, Usable entry.ipaddr →
    latest (heard config entry.ipaddr) events = some entry.ethaddr

theorem sound_init (config : Config) : Sound config [] init := by
  have unused : ∀ entry ∈ init.entries, ¬ Usable entry.ipaddr := by
    intro entry member
    rw [List.eq_of_mem_replicate member]
    exact not_usable_noAddr
  refine ⟨fun i j first second here _ usable => ?_, fun entry member usable => ?_⟩
  · exact absurd usable (unused first (List.mem_of_getElem? here))
  · exact absurd usable (unused entry member)

namespace Sound

/-- A usable address stands nowhere but in the place that an update of it writes. -/
theorem ne_of_place (sound : Sound config events table) {ipaddr : IpAddr} {i j : Nat}
    (place : Place table ipaddr i) (other : i ≠ j) {entry : ArpEntry}
    (there : table.entries[j]? = some entry) (usable : Usable entry.ipaddr) :
    entry.ipaddr ≠ ipaddr := by
  rintro rfl
  have member := List.mem_of_getElem? there
  cases place with
  | found here same _ => exact other (sound.distinct _ _ _ _ there here usable same.symm).symm
  | free _ absent _ _ => exact absent entry member rfl usable
  | oldest absent _ => exact absent entry member rfl usable

theorem update (sound : Sound config events table) {event : Event} {ipaddr : IpAddr}
    {ethaddr : EthAddr} (announces : announced config event = some (ipaddr, ethaddr)) :
    Sound config (events ++ [event]) (table.uipArpUpdate ipaddr ethaddr) := by
  obtain ⟨i, inside, place, result⟩ := uipArpUpdate_spec table ipaddr ethaddr
  rw [result]
  have hears (other : IpAddr) :
      Arp.heard config other event = if ipaddr = other then some ethaddr else none := by
    rw [Arp.heard, announces]
    rfl
  have old {j : Nat} {entry : ArpEntry} (apart : i ≠ j)
      (there : table.entries[j]? = some entry) (usable : Usable entry.ipaddr) :
      entry.ipaddr ≠ ipaddr :=
    sound.ne_of_place place apart there usable
  refine ⟨fun j k first second here there usable same => ?_, fun entry member usable => ?_⟩
  · -- of two entries of one host at most one is the new one
    rw [getElem?_set table inside] at here there
    by_cases atJ : i = j
    · by_cases atK : i = k
      · exact atJ.symm.trans atK
      · rw [if_pos atJ, Option.some_inj] at here
        rw [if_neg atK] at there
        subst here
        exact absurd same.symm (old atK there (same ▸ usable))
    · rw [if_neg atJ] at here
      by_cases atK : i = k
      · rw [if_pos atK, Option.some_inj] at there
        subst there
        exact absurd same (old atJ here usable)
      · rw [if_neg atK] at there
        exact sound.distinct j k first second here there usable same
  · obtain ⟨j, there⟩ := List.mem_iff_getElem?.mp member
    rw [getElem?_set table inside] at there
    by_cases atJ : i = j
    · rw [if_pos atJ, Option.some_inj] at there
      subst there
      exact latest_snoc_some events ((hears ipaddr).trans (if_pos rfl))
    · rw [if_neg atJ] at there
      have differs := old atJ there usable
      rw [latest_snoc_none events ((hears entry.ipaddr).trans (if_neg (Ne.symm differs)))]
      exact sound.heard entry (List.mem_of_getElem? there) usable

theorem timer (sound : Sound config events table) : Sound config events table.uipArpTimer := by
  -- an entry that can be used has not been deleted
  have old {j : Nat} {entry : ArpEntry} (there : table.uipArpTimer.entries[j]? = some entry)
      (usable : Usable entry.ipaddr) :
      ∃ before, table.entries[j]? = some before ∧ before.ipaddr = entry.ipaddr ∧
        before.ethaddr = entry.ethaddr := by
    rw [uipArpTimer, List.getElem?_map, Option.map_eq_some_iff] at there
    obtain ⟨before, here, rfl⟩ := there
    refine ⟨before, here, ?_⟩
    split at usable
    · exact absurd usable not_usable_noAddr
    · rename_i kept
      rw [if_neg kept]
      exact ⟨rfl, rfl⟩
  refine ⟨fun j k first second here there usable same => ?_, fun entry member usable => ?_⟩
  · obtain ⟨one, hereOne, ipaddrOne, _⟩ := old here usable
    obtain ⟨two, hereTwo, ipaddrTwo, _⟩ := old there (same ▸ usable)
    exact sound.distinct j k one two hereOne hereTwo (ipaddrOne ▸ usable)
      (ipaddrOne.trans (same.trans ipaddrTwo.symm))
  · obtain ⟨j, there⟩ := List.mem_iff_getElem?.mp member
    obtain ⟨before, here, ipaddr, ethaddr⟩ := old there usable
    rw [← ipaddr, ← ethaddr]
    exact sound.heard before (List.mem_of_getElem? here) (ipaddr ▸ usable)

theorem step (sound : Sound config events table) {event : Event} {next : ArpTable}
    (stepped : step config table event = some next) : Sound config (events ++ [event]) next := by
  rcases step_eq stepped with ⟨ipaddr, ethaddr, announces, rfl⟩ | ⟨silent, changed⟩
  · exact sound.update announces
  · have same (ipaddr : IpAddr) : latest (Arp.heard config ipaddr) (events ++ [event]) =
        latest (Arp.heard config ipaddr) events :=
      latest_snoc_none events (by rw [Arp.heard, silent]; rfl)
    have after : Sound config events next := by
      rcases changed with ⟨_, rfl⟩ | ⟨_, rfl⟩
      · exact sound.timer
      · exact sound
    refine ⟨after.distinct, fun entry member usable => ?_⟩
    rw [same]
    exact after.heard entry member usable

end Sound

theorem sound_run (finished : run (step config) init events = some table) :
    Sound config events table :=
  run_induction (fun events table => Sound config events table) (sound_init config)
    (fun _ _ _ _ _ sound stepped => sound.step stepped) finished

/-- The entry that `uip_arp_out` finds. -/
theorem uipArpOut_ip_iff {destipaddr : IpAddr} (notBroadcast : destipaddr ≠ broadcastIpaddr)
    (sound : Sound config events table) (usable : Usable (nextHop config destipaddr))
    {ethaddr : EthAddr} :
    uipArpOut config table destipaddr = .ip ethaddr ↔
      ∃ entry ∈ table.entries, entry.ipaddr = nextHop config destipaddr ∧
        entry.ethaddr = ethaddr := by
  rw [uipArpOut, if_neg notBroadcast]
  dsimp only
  constructor
  · intro sent
    cases found : table.entries.find? fun entry => nextHop config destipaddr == entry.ipaddr with
    | none =>
      rw [found] at sent
      cases sent
    | some entry =>
      rw [found] at sent
      cases sent
      have holds := List.find?_some found
      have same := beq_iff_eq.mp holds
      exact ⟨entry, List.mem_of_find?_eq_some found, same.symm, rfl⟩
  · rintro ⟨entry, member, same, rfl⟩
    cases found : table.entries.find? fun entry => nextHop config destipaddr == entry.ipaddr with
    | none =>
      have none := List.find?_eq_none.mp found entry member
      exact absurd (beq_iff_eq.mpr same.symm) none
    | some other =>
      have holds := List.find?_some found
      have otherSame := beq_iff_eq.mp holds
      obtain ⟨i, here⟩ := List.mem_iff_getElem?.mp member
      obtain ⟨j, there⟩ := List.mem_iff_getElem?.mp (List.mem_of_find?_eq_some found)
      have place := sound.distinct i j entry other here there (same ▸ usable)
        (same.trans otherSame)
      subst place
      cases here.symm.trans there
      rfl

/-- The host 192.168.2.x behind the router 192.168.2.1. -/
def hostOfNetwork (last : UInt8) : Config :=
  { ethaddr := Vector.replicate 6 last
    hostaddr := ⟨0xa8c0, 0x0002 + 256 * last.toUInt16⟩
    netmask := ⟨0xffff, 0x00ff⟩
    draddr := ⟨0xa8c0, 0x0102⟩ }

/-- An address that was entered is found. -/
theorem uipArpOut_uipArpUpdate {event : Event} {ipaddr destipaddr : IpAddr} {ethaddr : EthAddr}
    (finished : run (step config) init events = some table)
    (announces : announced config event = some (ipaddr, ethaddr)) (usable : Usable ipaddr)
    (notBroadcast : destipaddr ≠ broadcastIpaddr) (theirs : nextHop config destipaddr = ipaddr) :
    uipArpOut config (table.uipArpUpdate ipaddr ethaddr) destipaddr = .ip ethaddr := by
  have sound := (sound_run finished).update announces
  refine (uipArpOut_ip_iff notBroadcast sound (theirs ▸ usable)).mpr ?_
  obtain ⟨i, inside, _, result⟩ := uipArpUpdate_spec table ipaddr ethaddr
  refine ⟨⟨ipaddr, ethaddr, table.arptime⟩, ?_, theirs.symm, rfl⟩
  rw [result]
  exact List.mem_set inside _

/-- What is sent when the next host is not known. -/
theorem uipArpOut_arp {destipaddr : IpAddr} {hdr : ArpHdr}
    (request : uipArpOut config table destipaddr = .arp hdr) :
    destipaddr ≠ broadcastIpaddr ∧ hdr.opcode = arpRequest ∧
      hdr.dipaddr = nextHop config destipaddr ∧ hdr.sipaddr = config.hostaddr ∧
      hdr.shwaddr = config.ethaddr := by
  rw [uipArpOut] at request
  split at request
  case isTrue => cases request
  case isFalse notBroadcast =>
    dsimp only at request
    split at request
    · cases request
      exact ⟨notBroadcast, rfl, rfl, rfl, rfl⟩
    · cases request

/-- A request that reaches the host it is for, and the reply that reaches the one who asked,
    whatever both have seen before: both can send to each other. -/
theorem exchange_resolves {asking answering : Config} {asked : ArpTable}
    {seenAsking seenAnswering : List Event} {tableAsking tableAnswering : ArpTable}
    {destipaddr : IpAddr} {hdr : ArpHdr} (request : uipArpOut asking asked destipaddr = .arp hdr)
    (theirs : nextHop asking destipaddr = answering.hostaddr)
    (reachedAnswering : run (step answering) init seenAnswering = some tableAnswering)
    (reachedAsking : run (step asking) init seenAsking = some tableAsking)
    (usableAsking : Usable asking.hostaddr) (usableAnswering : Usable answering.hostaddr) :
    ∃ reply,
      (uipArpArpin answering tableAnswering hdr).2 = some reply ∧
        (uipArpArpin asking tableAsking reply).2 = none ∧
        uipArpOut asking (uipArpArpin asking tableAsking reply).1 destipaddr =
          .ip answering.ethaddr ∧
        ∀ back, back ≠ broadcastIpaddr → nextHop answering back = asking.hostaddr →
          uipArpOut answering (uipArpArpin answering tableAnswering hdr).1 back =
            .ip asking.ethaddr := by
  obtain ⟨notBroadcast, opcode, dipaddr, sipaddr, shwaddr⟩ := uipArpOut_arp request
  have ours : hdr.dipaddr = answering.hostaddr := dipaddr.trans theirs
  -- the host that answers learns from the request, the other one from the reply
  rw [uipArpArpin, if_pos opcode, if_pos ours, sipaddr, shwaddr]
  refine ⟨_, rfl, ?_⟩
  have announcesReply : announced asking (.arpin
      { dest := asking.ethaddr
        src := answering.ethaddr
        opcode := arpReply
        shwaddr := answering.ethaddr
        sipaddr := answering.hostaddr
        dhwaddr := asking.ethaddr
        dipaddr := asking.hostaddr }) = some (answering.hostaddr, answering.ethaddr) :=
    if_pos ⟨Or.inr rfl, rfl⟩
  have notRequest : ¬ arpReply = arpRequest := by decide
  rw [uipArpArpin, if_neg notRequest, if_pos rfl, if_pos rfl]
  refine ⟨rfl, ?_, fun back notBroadcast backTheirs => ?_⟩
  · exact uipArpOut_uipArpUpdate reachedAsking announcesReply usableAnswering notBroadcast theirs
  · have announcesRequest : announced answering (.arpin hdr) =
        some (asking.hostaddr, asking.ethaddr) := by
      rw [announced, if_pos ⟨Or.inl opcode, ours⟩, sipaddr, shwaddr]
    exact uipArpOut_uipArpUpdate reachedAnswering announcesRequest usableAsking notBroadcast
      backTheirs

theorem exchange_resolves_two :
    ∃ hdr, uipArpOut (hostOfNetwork 9) init ⟨0xa8c0, 0x0f02⟩ = .arp hdr ∧
      ∃ reply,
        (uipArpArpin (hostOfNetwork 15) init hdr).2 = some reply ∧
          (uipArpArpin (hostOfNetwork 9) init reply).2 = none ∧
          uipArpOut (hostOfNetwork 9) (uipArpArpin (hostOfNetwork 9) init reply).1
              ⟨0xa8c0, 0x0f02⟩ = .ip (Vector.replicate 6 15) ∧
          ∀ back, back ≠ broadcastIpaddr →
            nextHop (hostOfNetwork 15) back = ⟨0xa8c0, 0x0902⟩ →
              uipArpOut (hostOfNetwork 15) (uipArpArpin (hostOfNetwork 15) init hdr).1 back =
                .ip (Vector.replicate 6 9) :=
  ⟨_, rfl, exchange_resolves
    (show uipArpOut (hostOfNetwork 9) init ⟨0xa8c0, 0x0f02⟩ = .arp _ from rfl)
    (show _ = (hostOfNetwork 15).hostaddr from rfl)
    (show run (step _) init [] = some init from rfl)
    (show run (step _) init [] = some init from rfl) (by decide) (by decide)⟩

/-! ## Who stays -/

/-- The IP addresses that were announced, in their order. -/
def addresses (config : Config) (events : List Event) : List IpAddr :=
  events.filterMap fun event => (announced config event).map Prod.fst

/-- The places hold what the addresses announced so far leave there, and no entry is older than
    the clock. -/
structure Filled (ips : List IpAddr) (table : ArpTable) : Prop where
  young : ∀ entry ∈ table.entries, entry.time = table.arptime
  places : ∀ i entry, table.entries[i]? = some entry →
    entry.ipaddr = (place arptabSize ips i).getD noAddr

namespace Filled

variable {ips : List IpAddr} {ipaddr : IpAddr}

theorem place_eq (filled : Filled ips table) (usable : ∀ ipaddr ∈ ips, Usable ipaddr) {i : Nat}
    {entry : ArpEntry} (here : table.entries[i]? = some entry) :
    place arptabSize ips i = if entry.ipaddr = noAddr then none else some entry.ipaddr := by
  have holds := filled.places i entry here
  cases there : place arptabSize ips i with
  | none =>
    rw [there] at holds
    exact (if_pos holds).symm
  | some ipaddr =>
    rw [there] at holds
    have differs : entry.ipaddr ≠ noAddr := by
      intro same
      have member := usable ipaddr (mem_of_place there)
      rw [← show entry.ipaddr = ipaddr from holds, same] at member
      exact not_usable_noAddr member
    rw [if_neg differs]
    exact congrArg some holds.symm

/-- What one update does to the places. -/
theorem place_snoc (filled : Filled ips table) (usable : ∀ ipaddr ∈ ips, Usable ipaddr)
    (usableNew : Usable ipaddr) {i : Nat} (written : Place table ipaddr i) {j : Nat}
    (inside : j < arptabSize) :
    place arptabSize (ips ++ [ipaddr]) j =
      if i = j then some ipaddr else place arptabSize ips j := by
  have entryAt {k : Nat} (small : k < arptabSize) : ∃ entry, table.entries[k]? = some entry := by
    rw [← table.size] at small
    exact ⟨table.entries[k], List.getElem?_eq_getElem small⟩
  have bound {k : Nat} {entry : ArpEntry} (here : table.entries[k]? = some entry) :
      k < arptabSize := table.size ▸ (List.getElem?_eq_some_iff.mp here).1
  have notIn (absent : ∀ entry ∈ table.entries, entry.ipaddr = ipaddr → ¬ Usable ipaddr) :
      ∀ k < arptabSize, place arptabSize ips k ≠ some ipaddr := by
    intro k small there
    obtain ⟨entry, here⟩ := entryAt small
    have holds := filled.places k entry here
    rw [there] at holds
    exact absent entry (List.mem_of_getElem? here) holds usableNew
  have usedOf {k : Nat} {entry : ArpEntry} (here : table.entries[k]? = some entry)
      (used : entry.ipaddr ≠ noAddr) : place arptabSize ips k ≠ none := by
    rw [filled.place_eq usable here, if_neg used]
    exact Option.some_ne_none _
  cases written with
  | @found _ entry here same _ =>
    have there : place arptabSize ips i = some ipaddr := by
      rw [filled.place_eq usable here, same, if_neg]
      rintro rfl
      exact not_usable_noAddr usableNew
    rw [place_snoc_of_found (bound here) there]
    split
    · rename_i same
      rw [← same, there]
    · rfl
  | @free _ entry here absent unused first =>
    refine place_snoc_of_free (bound here) (notIn absent) ?_ (fun k before => ?_) j
    · rw [filled.place_eq usable here, if_pos unused]
    · obtain ⟨other, there⟩ := entryAt (Nat.lt_trans before (bound here))
      exact usedOf there (first k before other there)
  | oldest absent full =>
    -- all entries are of the same age, and of these the first is taken
    have youngest : ∀ entry ∈ table.entries, age table.arptime entry ≤ 0 := by
      intro entry member
      have new : age table.arptime entry = 0 := by
        rw [age, filled.young entry member, Int.sub_self]
      exact Int.le_of_eq new
    rw [oldest_of_young youngest]
    refine place_snoc_of_full (by decide) (notIn absent) (fun k small => ?_) inside
    obtain ⟨entry, here⟩ := entryAt small
    exact usedOf here (full entry (List.mem_of_getElem? here))

theorem update (filled : Filled ips table) (usable : ∀ ipaddr ∈ ips, Usable ipaddr)
    (usableNew : Usable ipaddr) (ethaddr : EthAddr) :
    Filled (ips ++ [ipaddr]) (table.uipArpUpdate ipaddr ethaddr) := by
  obtain ⟨i, inside, written, result⟩ := uipArpUpdate_spec table ipaddr ethaddr
  rw [result]
  have old {j : Nat} {entry : ArpEntry}
      (there : (table.set i ⟨ipaddr, ethaddr, table.arptime⟩).entries[j]? = some entry) :
      i = j ∧ entry = ⟨ipaddr, ethaddr, table.arptime⟩ ∨
        i ≠ j ∧ table.entries[j]? = some entry := by
    rw [getElem?_set table inside] at there
    split at there
    case isTrue same => exact Or.inl ⟨same, (Option.some.inj there).symm⟩
    case isFalse other => exact Or.inr ⟨other, there⟩
  refine ⟨fun entry member => ?_, fun j entry there => ?_⟩
  · obtain ⟨j, there⟩ := List.mem_iff_getElem?.mp member
    rcases old there with ⟨_, rfl⟩ | ⟨_, here⟩
    · rfl
    · exact filled.young entry (List.mem_of_getElem? here)
  · have small : j < arptabSize := by
      rw [← ArpTable.size (table.set i ⟨ipaddr, ethaddr, table.arptime⟩)]
      exact (List.getElem?_eq_some_iff.mp there).1
    rw [filled.place_snoc usable usableNew written small]
    rcases old there with ⟨same, rfl⟩ | ⟨other, here⟩
    · rw [if_pos same]
      rfl
    · rw [if_neg other]
      exact filled.places j entry here

end Filled

end HomeAutomation.Uip.Arp
