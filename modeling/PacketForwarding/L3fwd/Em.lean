import PacketForwarding.L3fwd.Rfc1812

/-! # Destination ports by exact match

The lookup of one packet, and the lookup of a burst in groups of eight. A group goes
to one table if all of its packet types have the bits of that table's type in common.
Bits in common are not the same type, so a packet can meet a table that its own lookup
would pass by.
-/

namespace PacketForwarding.L3fwd

open Lanes Cells

/-! ## Packet types and tables -/

def rtePtypeL3Mask : BitVec 32 := 0xf0#32

def rtePtypeL4Tcp : BitVec 32 := 0x100#32

def rtePtypeL4Udp : BitVec 32 := 0x200#32

def tcpOrUdp (ptype : BitVec 32) : BitVec 32 :=
  ptype &&& (rtePtypeL4Tcp ||| rtePtypeL4Udp)

def l3Type (ptype : BitVec 32) : BitVec 32 :=
  ptype &&& rtePtypeL3Mask

/-- A hash table of the lcore with the interfaces its positions stand for. A miss is
a negative position in the source. -/
structure EmTable (κ : Type) where
  rteHashLookup : κ → Option Nat
  rteHashLookupBulk : (Nat → κ) → Nat → Nat → Option Nat
  outIf : Nat → BitVec 8

/-- What the library promises: a bulk lookup looks up every key. -/
def EmTable.Lawful (table : EmTable κ) : Prop :=
  ∀ key count i, i < count → table.rteHashLookupBulk key count i = table.rteHashLookup (key i)

structure EmTables where
  ipv4 : EmTable Register
  ipv6 : EmTable (Register × Register × Register)
  mask0 : Register
  mask1 : Register
  mask2 : Register

/-! ## One packet -/

def emMaskKey (data : Nat → BitVec 8) (key : Nat) (mask : Register) : Register :=
  load 16 data key &&& mask

/-- The key of an IPv4 packet starts at its time to live. -/
def getIpv45tuple (tables : EmTables) (pkt : RteMbuf) : Register :=
  emMaskKey pkt.data Ipv4Hdr.timeToLive tables.mask0

/-- Where the payload length of an IPv6 header lies. -/
def ipv6PayloadLen : Nat := rteEtherHdrLen + 4

/-- The key of an IPv6 packet starts at its payload length. -/
def getIpv65tuple (tables : EmTables) (pkt : RteMbuf) : Register × Register × Register :=
  (emMaskKey pkt.data ipv6PayloadLen tables.mask1,
    load 16 pkt.data (ipv6PayloadLen + 16),
    emMaskKey pkt.data (ipv6PayloadLen + 32) tables.mask2)

/-- The interface at a position, or the incoming port if nothing was found. -/
def EmTable.dstPort (table : EmTable κ) (portid : BitVec 16) : Option Nat → BitVec 16
  | none => portid
  | some ret => (table.outIf ret).setWidth 16

def emGetIpv4DstPort (tables : EmTables) (pkt : RteMbuf) (portid : BitVec 16) : BitVec 16 :=
  tables.ipv4.dstPort portid (tables.ipv4.rteHashLookup (getIpv45tuple tables pkt))

def emGetIpv6DstPort (tables : EmTables) (pkt : RteMbuf) (portid : BitVec 16) : BitVec 16 :=
  tables.ipv6.dstPort portid (tables.ipv6.rteHashLookup (getIpv65tuple tables pkt))

def emGetDstPort (env : Env) (tables : EmTables) (pkt : RteMbuf) (portid : BitVec 16) :
    BitVec 16 :=
  if tcpOrUdp pkt.packetType ≠ 0#32 ∧ l3Type pkt.packetType = rtePtypeL3Ipv4 then
    enabledPort env (emGetIpv4DstPort tables pkt portid) portid
  else if tcpOrUdp pkt.packetType ≠ 0#32 ∧ l3Type pkt.packetType = rtePtypeL3Ipv6 then
    enabledPort env (emGetIpv6DstPort tables pkt portid) portid
  else
    portid

/-! ## Eight packets -/

def emHashLookupCount : Nat := 8

/-- The ports of eight keys in a table. A key without a port that is enabled gets its
fallback. -/
def EmTable.getDstPortxN (env : Env) (table : EmTable κ) (key : Nat → κ)
    (fallback : Nat → BitVec 16) : Nat → BitVec 16 :=
  let ret := table.rteHashLookupBulk key emHashLookupCount
  fun i => enabledPort env (table.dstPort (fallback i) (ret i)) (fallback i)

def emGetDstPortIpv4xN (env : Env) (tables : EmTables) (mbufs : MbufHeap) (m : Nat → MbufPtr)
    (portid : BitVec 16) : Nat → BitVec 16 :=
  tables.ipv4.getDstPortxN env (fun i => getIpv45tuple tables (mbufs (m i))) fun _ => portid

def emGetDstPortIpv6xN (env : Env) (tables : EmTables) (mbufs : MbufHeap) (m : Nat → MbufPtr)
    (portid : BitVec 16) : Nat → BitVec 16 :=
  tables.ipv6.getDstPortxN env (fun i => getIpv65tuple tables (mbufs (m i))) fun _ => portid

/-- What eight packet types have in common, as far as it matters. -/
def groupType (mbufs : MbufHeap) (m : Nat → MbufPtr) : BitVec 32 :=
  (List.range emHashLookupCount).foldl (fun pktType i => pktType &&& (mbufs (m i)).packetType)
    (rtePtypeL3Mask ||| rtePtypeL4Tcp ||| rtePtypeL4Udp)

/-- The destination ports of packets `j, ..., j + 7`. -/
def emGroupPorts (env : Env) (tables : EmTables) (mbufs : MbufHeap) (pktsBurst : Nat → MbufPtr)
    (portid : BitVec 16) (j : Nat) : Nat → BitVec 16 :=
  let m := fun i => pktsBurst (j + i)
  let pktType := groupType mbufs m
  if tcpOrUdp pktType ≠ 0#32 ∧ l3Type pktType = rtePtypeL3Ipv4 then
    emGetDstPortIpv4xN env tables mbufs m portid
  else if tcpOrUdp pktType ≠ 0#32 ∧ l3Type pktType = rtePtypeL3Ipv6 then
    emGetDstPortIpv6xN env tables mbufs m portid
  else
    fun i => emGetDstPort env tables (mbufs (m i)) portid

/-! ## A burst -/

/-- `process_packet(pkt, &pkt->port)` -/
def processOwnPort (env : Env) (pkt : RteMbuf) : RteMbuf :=
  let (pkt', port) := processPacket env pkt pkt.port
  { pkt' with port := port }

def emProcessGroup (env : Env) (tables : EmTables) (pktsBurst : Nat → MbufPtr)
    (portid : BitVec 16) (doStep3 : Bool) (packets : MbufHeap × (Nat → BitVec 16)) (j : Nat) :
    MbufHeap × (Nat → BitVec 16) :=
  let ports := emGroupPorts env tables packets.1 pktsBurst portid j
  let packets := (packets.1, assign (fun i => ports (i - j)) j emHashLookupCount packets.2)
  if doStep3 then
    forFours (processx4Step3 env pktsBurst) (emHashLookupCount / fwdStep) j packets
  else
    packets

/-- The last up to 7 packets. What is processed here is the port inside the packet. -/
def emProcessTail (env : Env) (tables : EmTables) (pktsBurst : Nat → MbufPtr)
    (portid : BitVec 16) (doStep3 : Bool) (packets : MbufHeap × (Nat → BitVec 16)) (j : Nat) :
    MbufHeap × (Nat → BitVec 16) :=
  let pkt := packets.1 (pktsBurst j)
  let dstPort := Function.update packets.2 j (emGetDstPort env tables pkt portid)
  if doStep3 then
    (Function.update packets.1 (pktsBurst j) (processOwnPort env pkt), dstPort)
  else
    (packets.1, dstPort)

/-- Groups of eight first, then the remaining packets one by one. -/
def l3fwdEmProcessPackets (env : Env) (tables : EmTables) (mbufs : MbufHeap) (nbRx : Nat)
    (pktsBurst : Nat → MbufPtr) (dstPort : Nat → BitVec 16) (portid : BitVec 16)
    (doStep3 : Bool) : MbufHeap × (Nat → BitVec 16) :=
  let n := nbRx / emHashLookupCount * emHashLookupCount
  let packets := (List.range (nbRx / emHashLookupCount)).foldl
    (fun packets group => emProcessGroup env tables pktsBurst portid doStep3 packets
      (group * emHashLookupCount)) (mbufs, dstPort)
  (List.range' n (nbRx - n)).foldl (emProcessTail env tables pktsBurst portid doStep3) packets

/-! ## Bits in common -/

/-- What a group has in common, each of its packets has. -/
theorem groupType_and (mbufs : MbufHeap) (m : Nat → MbufPtr) {i : Nat}
    (inside : i < emHashLookupCount) :
    groupType mbufs m &&& (mbufs (m i)).packetType = groupType mbufs m := by
  have general : ∀ (indices : List Nat) (start : BitVec 32),
      (∀ bit, (indices.foldl (fun pktType i => pktType &&& (mbufs (m i)).packetType)
        start).getLsbD bit = true → start.getLsbD bit = true ∧
          ∀ i ∈ indices, (mbufs (m i)).packetType.getLsbD bit = true) := by
    intro indices
    induction indices with
    | nil =>
        intro start bit isSet
        exact ⟨isSet, fun i member => absurd member List.not_mem_nil⟩
    | cons head rest induction =>
        intro start bit isSet
        rw [List.foldl_cons] at isSet
        rcases induction _ bit isSet with ⟨first, others⟩
        rw [BitVec.getLsbD_and, Bool.and_eq_true] at first
        exact ⟨first.1, List.forall_mem_cons.mpr ⟨first.2, others⟩⟩
  apply BitVec.eq_of_getLsbD_eq
  intro bit _
  rw [BitVec.getLsbD_and]
  cases isSet : (groupType mbufs m).getLsbD bit with
  | false => rfl
  | true =>
      have own := (general _ _ bit isSet).2 i (List.mem_range.mpr inside)
      rw [own]
      rfl

/-- Bits in common survive a mask. -/
theorem and_ne_zero_of_common {common own mask : BitVec 32} (isCommon : common &&& own = common)
    (notZero : common &&& mask ≠ 0#32) : own &&& mask ≠ 0#32 := by
  intro isZero
  apply notZero
  rw [← isCommon, BitVec.and_assoc, isZero, BitVec.and_zero]

theorem l3Type_hasBits {ptype left : BitVec 32} (isLeft : l3Type ptype = left)
    (someBit : left ≠ 0#32) (within : left &&& rtePtypeL3Mask = left) :
    ptype &&& left ≠ 0#32 := by
  rw [← within, BitVec.and_comm left, ← BitVec.and_assoc]
  change l3Type ptype &&& left ≠ 0#32
  rw [isLeft, BitVec.and_self]
  exact someBit

/-- A type with a bit of another layer 3 type is not that type. -/
theorem l3Type_ne_of_common {common own left right : BitVec 32}
    (isCommon : common &&& own = common) (isLeft : l3Type common = left)
    (someBit : left ≠ 0#32) (disjoint : right &&& left = 0#32)
    (within : left &&& rtePtypeL3Mask = left) : l3Type own ≠ right := by
  intro isRight
  apply and_ne_zero_of_common isCommon (l3Type_hasBits isLeft someBit within)
  rw [← within, BitVec.and_comm left, ← BitVec.and_assoc]
  change l3Type own &&& left = 0#32
  rw [isRight, disjoint]

/-! ## When a group changes nothing -/

/-- No packet of a group is found in a table that its own lookup would pass by, unless
with the port that it would get anyway. -/
def GroupKeeps (env : Env) (tables : EmTables) (mbufs : MbufHeap) (pktsBurst : Nat → MbufPtr)
    (portid : BitVec 16) (j : Nat) : Prop :=
  ∀ i, i < emHashLookupCount →
    let pkt := mbufs (pktsBurst (j + i))
    let pktType := groupType mbufs fun i => pktsBurst (j + i)
    tcpOrUdp pktType ≠ 0#32 →
      (l3Type pktType = rtePtypeL3Ipv4 → l3Type pkt.packetType ≠ rtePtypeL3Ipv4 →
        enabledPort env (emGetIpv4DstPort tables pkt portid) portid = portid) ∧
      (l3Type pktType = rtePtypeL3Ipv6 → l3Type pkt.packetType ≠ rtePtypeL3Ipv6 →
        enabledPort env (emGetIpv6DstPort tables pkt portid) portid = portid)

/-- The port that a packet is given by the lookup of its group. -/
def emGroupedPort (env : Env) (tables : EmTables) (mbufs : MbufHeap) (pktsBurst : Nat → MbufPtr)
    (portid : BitVec 16) (i : Nat) : BitVec 16 :=
  emGroupPorts env tables mbufs pktsBurst portid (i / emHashLookupCount * emHashLookupCount)
    (i % emHashLookupCount)

theorem getDstPortxN_eq (env : Env) {table : EmTable κ} (lawful : table.Lawful)
    (key : Nat → κ) (fallback : Nat → BitVec 16) {i : Nat} (inside : i < emHashLookupCount) :
    table.getDstPortxN env key fallback i =
      enabledPort env (table.dstPort (fallback i) (table.rteHashLookup (key i))) (fallback i) := by
  simp only [EmTable.getDstPortxN, lawful key emHashLookupCount i inside]

section

variable (env : Env) {tables : EmTables} (lawful4 : tables.ipv4.Lawful)
  (lawful6 : tables.ipv6.Lawful) (mbufs : MbufHeap) (pktsBurst : Nat → MbufPtr)
  (portid : BitVec 16)

include lawful4 lawful6

/-- A packet of a group gets its own port exactly if its place in the group does not
matter. -/
theorem emGroupPorts_eq_iff (j : Nat) :
    (∀ i, i < emHashLookupCount → emGroupPorts env tables mbufs pktsBurst portid j i =
      emGetDstPort env tables (mbufs (pktsBurst (j + i))) portid) ↔
    GroupKeeps env tables mbufs pktsBurst portid j := by
  refine forall₂_congr fun i inside => ?_
  have isCommon := groupType_and mbufs (fun i => pktsBurst (j + i)) inside
  have different : rtePtypeL3Ipv4 ≠ rtePtypeL3Ipv6 := by decide
  simp only [emGroupPorts, emGetDstPort]
  generalize groupType mbufs (fun i => pktsBurst (j + i)) = pktType at *
  by_cases isL4 : tcpOrUdp pktType ≠ 0#32
  · have ownL4 := and_ne_zero_of_common isCommon isL4
    change tcpOrUdp _ ≠ 0#32 at ownL4
    by_cases isIpv4 : l3Type pktType = rtePtypeL3Ipv4
    · have apart : rtePtypeL3Ipv6 &&& rtePtypeL3Ipv4 = 0#32 := by decide
      have notIpv6 := l3Type_ne_of_common isCommon isIpv4 (by decide) apart (by decide)
      have looked := getDstPortxN_eq env lawful4
        (fun i => getIpv45tuple tables (mbufs (pktsBurst (j + i)))) (fun _ => portid) inside
      rw [if_pos ⟨isL4, isIpv4⟩, emGetDstPortIpv4xN, looked, isIpv4]
      by_cases own : l3Type (mbufs (pktsBurst (j + i))).packetType = rtePtypeL3Ipv4
      · simp [own, ownL4, different, emGetIpv4DstPort]
      · simp [own, notIpv6, isL4, different, emGetIpv4DstPort]
    · by_cases isIpv6 : l3Type pktType = rtePtypeL3Ipv6
      · have apart : rtePtypeL3Ipv4 &&& rtePtypeL3Ipv6 = 0#32 := by decide
        have notIpv4 := l3Type_ne_of_common isCommon isIpv6 (by decide) apart (by decide)
        have looked := getDstPortxN_eq env lawful6
          (fun i => getIpv65tuple tables (mbufs (pktsBurst (j + i)))) (fun _ => portid) inside
        rw [if_neg fun both => isIpv4 both.2, if_pos ⟨isL4, isIpv6⟩, emGetDstPortIpv6xN, looked,
          isIpv6]
        by_cases own : l3Type (mbufs (pktsBurst (j + i))).packetType = rtePtypeL3Ipv6
        · simp [own, ownL4, different.symm, emGetIpv6DstPort]
        · simp [own, notIpv4, isL4, different.symm, emGetIpv6DstPort]
      · simp [isIpv4, isIpv6]
  · simp [isL4]

omit lawful4 lawful6 in
/-- Without processing, `count` groups are looked up and nothing else. -/
theorem emProcessGroups_lookup (dstPort : Nat → BitVec 16) (count : Nat) :
    (List.range count).foldl (fun packets group =>
        emProcessGroup env tables pktsBurst portid false packets (group * emHashLookupCount))
        (mbufs, dstPort) =
      (mbufs, assign (emGroupedPort env tables mbufs pktsBurst portid) 0
        (count * emHashLookupCount) dstPort) := by
  induction count with
  | zero => rw [List.range_zero, List.foldl_nil, Nat.zero_mul, assign_zero]
  | succ count induction =>
      have added := assign_add (emGroupedPort env tables mbufs pktsBurst portid) 0
        (count * emHashLookupCount) emHashLookupCount dstPort
      rw [Nat.zero_add, ← Nat.succ_mul] at added
      rw [List.range_succ, List.foldl_append, induction, List.foldl_cons, List.foldl_nil, ← added]
      refine Prod.ext rfl ?_
      simp only [emProcessGroup, Bool.false_eq_true, if_false]
      funext i
      refine ite_congr rfl (fun covered => ?_) (fun _ => rfl)
      rcases covered with ⟨after, before⟩
      have quotient : i / emHashLookupCount = count := by
        simp only [emHashLookupCount] at *
        omega
      have remainder : i % emHashLookupCount = i - count * emHashLookupCount := by
        simp only [emHashLookupCount] at *
        omega
      simp only [emGroupedPort, quotient, remainder]

omit lawful4 lawful6 in
/-- Without processing, the tail is looked up and nothing else. -/
theorem emProcessTail_lookup (count : Nat) :
    ∀ first dst, (List.range' first count).foldl
        (emProcessTail env tables pktsBurst portid false) (mbufs, dst) =
      (mbufs, assign (fun i => emGetDstPort env tables (mbufs (pktsBurst i)) portid) first count
        dst) := by
  induction count with
  | zero =>
      intro first dst
      rw [List.range'_zero, List.foldl_nil, assign_zero]
  | succ count induction =>
      intro first dst
      have added := assign_add (fun i => emGetDstPort env tables (mbufs (pktsBurst i)) portid)
        first 1 count dst
      rw [← update_eq_assign] at added
      rw [List.range'_succ, List.foldl_cons, Nat.add_comm count 1, ← added]
      exact induction (first + 1) _

omit lawful4 lawful6 in
theorem emGroupedPort_eq (group : Nat) {i : Nat} (inside : i < emHashLookupCount) :
    emGroupedPort env tables mbufs pktsBurst portid (group * emHashLookupCount + i) =
      emGroupPorts env tables mbufs pktsBurst portid (group * emHashLookupCount) i := by
  have quotient : (group * emHashLookupCount + i) / emHashLookupCount = group := by
    simp only [emHashLookupCount] at *
    omega
  have remainder : (group * emHashLookupCount + i) % emHashLookupCount = i := by
    simp only [emHashLookupCount] at *
    omega
  rw [emGroupedPort, quotient, remainder]

omit lawful4 lawful6 in
/-- Without processing, a burst is looked up group by group, and then packet by
packet. -/
theorem l3fwdEmProcessPackets_ports (nbRx : Nat) (dstPort : Nat → BitVec 16) :
    let looked := l3fwdEmProcessPackets env tables mbufs nbRx pktsBurst dstPort portid false
    (∀ group, group < nbRx / emHashLookupCount → ∀ i, i < emHashLookupCount →
      looked.2 (group * emHashLookupCount + i) =
        emGroupPorts env tables mbufs pktsBurst portid (group * emHashLookupCount) i) ∧
    (∀ i, nbRx / emHashLookupCount * emHashLookupCount ≤ i → i < nbRx →
      looked.2 i = emGetDstPort env tables (mbufs (pktsBurst i)) portid) ∧
    looked.1 = mbufs := by
  let single := fun i => emGetDstPort env tables (mbufs (pktsBurst i)) portid
  let n := nbRx / emHashLookupCount * emHashLookupCount
  intro looked
  have isLooked : looked = (mbufs, assign single n (nbRx - n)
      (assign (emGroupedPort env tables mbufs pktsBurst portid) 0 n dstPort)) := by
    simp only [looked, l3fwdEmProcessPackets, emProcessGroups_lookup, emProcessTail_lookup, n,
      single]
  have total : n ≤ nbRx := Nat.div_mul_le_self nbRx emHashLookupCount
  rw [isLooked]
  refine ⟨?_, ?_, rfl⟩
  · intro group groupLt i inside
    have below : group * emHashLookupCount + i < n := by
      simp only [n, emHashLookupCount] at *
      omega
    have notTail : ¬ (n ≤ group * emHashLookupCount + i ∧
        group * emHashLookupCount + i < n + (nbRx - n)) :=
      fun late => absurd late.1 (Nat.not_le_of_lt below)
    have inGroups : 0 ≤ group * emHashLookupCount + i ∧
        group * emHashLookupCount + i < 0 + n :=
      ⟨Nat.zero_le _, by rw [Nat.zero_add]; exact below⟩
    simp only [assign, if_neg notTail, if_pos inGroups]
    exact emGroupedPort_eq env mbufs pktsBurst portid group inside
  · intro i after before
    have inTail : n ≤ i ∧ i < n + (nbRx - n) := by
      rw [Nat.add_sub_of_le total]
      exact ⟨after, before⟩
    simp only [assign, if_pos inTail, single]

/-- The lookup in groups gives every packet of a burst the port of its own lookup if
and only if every group keeps the ports of its packets. -/
theorem l3fwdEmProcessPackets_eq_iff (nbRx : Nat) (dstPort : Nat → BitVec 16) :
    (∀ i, i < nbRx →
      (l3fwdEmProcessPackets env tables mbufs nbRx pktsBurst dstPort portid false).2 i =
        emGetDstPort env tables (mbufs (pktsBurst i)) portid) ↔
    ∀ group, group < nbRx / emHashLookupCount →
      GroupKeeps env tables mbufs pktsBurst portid (group * emHashLookupCount) := by
  rcases l3fwdEmProcessPackets_ports env mbufs pktsBurst portid nbRx dstPort with
    ⟨groups, tail, _⟩
  constructor
  · intro all group groupLt
    rw [← emGroupPorts_eq_iff env lawful4 lawful6]
    intro i inside
    rw [← groups group groupLt i inside]
    apply all
    simp only [emHashLookupCount] at *
    omega
  · intro keeps i below
    rcases Nat.lt_or_ge i (nbRx / emHashLookupCount * emHashLookupCount) with inGroups | inTail
    · have groupLt : i / emHashLookupCount < nbRx / emHashLookupCount :=
        Nat.div_lt_of_lt_mul (by rw [Nat.mul_comm]; exact inGroups)
      have inside : i % emHashLookupCount < emHashLookupCount := Nat.mod_lt i (by decide)
      have split : i / emHashLookupCount * emHashLookupCount + i % emHashLookupCount = i :=
        Nat.div_add_mod' i emHashLookupCount
      have grouped := groups _ groupLt _ inside
      have own := (emGroupPorts_eq_iff env lawful4 lawful6 mbufs pktsBurst portid _).mpr
        (keeps _ groupLt) _ inside
      rw [split] at grouped own
      exact grouped.trans own
    · exact tail i inTail below

end

/-- Tables in which every key has an entry for one interface. -/
def oneInterfaceTables (interface : BitVec 8) : EmTables where
  ipv4 := ⟨fun _ => some 0, fun _ _ _ => some 0, fun _ => interface⟩
  ipv6 := ⟨fun _ => some 0, fun _ _ _ => some 0, fun _ => interface⟩
  mask0 := 0
  mask1 := 0
  mask2 := 0

/-- Eight plain IPv4 packets. -/
theorem l3fwdEmProcessPackets_eq_iff_plain :
    let env : Env := { (default : Env) with enabledPortMask := 0xffffffff#32 }
    let mbufs : MbufHeap := fun _ => { (default : RteMbuf) with packetType := 0x210#32 }
    ∀ i, i < 8 →
      (l3fwdEmProcessPackets env (oneInterfaceTables 5#8) mbufs 8 id (fun _ => 0#16) 3#16
        false).2 i = emGetDstPort env (oneInterfaceTables 5#8) (mbufs (id i)) 3#16 := by
  intro env mbufs
  refine (l3fwdEmProcessPackets_eq_iff env (fun _ _ _ _ => rfl) (fun _ _ _ _ => rfl) mbufs id
    3#16 8 fun _ => 0#16).mpr ?_
  intro group groupLt i inside pkt pktType isL4
  have plain : l3Type pkt.packetType = rtePtypeL3Ipv4 := by decide
  refine ⟨fun _ notPlain => absurd plain notPlain, fun isIpv6 _ => ?_⟩
  have isCommon := groupType_and mbufs (fun i => id (group * emHashLookupCount + i)) inside
  have groupBits : pktType &&& rtePtypeL3Ipv6 ≠ 0#32 :=
    l3Type_hasBits isIpv6 (by decide) (by decide)
  have ownBits := and_ne_zero_of_common isCommon groupBits
  have noBits : (0x210#32 : BitVec 32) &&& rtePtypeL3Ipv6 = 0#32 := by decide
  exact absurd noBits ownBits

/-- The last of eight packets has header options, the others do not. Its own lookup
leaves it at port 3, and in the group it is sent to port 5. -/
theorem l3fwdEmProcessPackets_misroutes :
    let env : Env := { (default : Env) with enabledPortMask := 0xffffffff#32 }
    let mbufs : MbufHeap := fun name => { (default : RteMbuf) with
      packetType := if name = 7 then 0x230#32 else 0x210#32 }
    (l3fwdEmProcessPackets env (oneInterfaceTables 5#8) mbufs 8 id (fun _ => 0#16) 3#16
        false).2 7 = 5#16 ∧
      emGetDstPort env (oneInterfaceTables 5#8) (mbufs 7) 3#16 = 3#16 := by
  decide +kernel

end PacketForwarding.L3fwd
