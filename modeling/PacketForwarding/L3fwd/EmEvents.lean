import PacketForwarding.L3fwd.EventSingle

/-! # Exact match for a burst of events

With lookups of several packets at once, groups of eight go through vector registers
and write their ports back into the packets. The sequential variant takes packets one
by one and, when a packet is bad, restores the port it came from.
-/

namespace PacketForwarding.L3fwd

open Lanes Cells

/-! ## Groups of eight -/

def emGetDstPortIpv4xNEvents (env : Env) (tables : EmTables) (mbufs : MbufHeap)
    (m : Nat → MbufPtr) : Nat → BitVec 16 :=
  tables.ipv4.getDstPortxN env (fun i => getIpv45tuple tables (mbufs (m i)))
    fun i => (mbufs (m i)).port

def emGetDstPortIpv6xNEvents (env : Env) (tables : EmTables) (mbufs : MbufHeap)
    (m : Nat → MbufPtr) : Nat → BitVec 16 :=
  tables.ipv6.getDstPortxN env (fun i => getIpv65tuple tables (mbufs (m i)))
    fun i => (mbufs (m i)).port

/-- Process packets `j, ..., j + 7` with the given ports and write the ports back. -/
def emWriteGroup (env : Env) (pktsBurst : Nat → MbufPtr) (ports : Nat → BitVec 16)
    (packets : MbufHeap × (Nat → BitVec 16)) (j : Nat) : MbufHeap × (Nat → BitVec 16) :=
  let packets := (packets.1, assign (fun i => ports (i - j)) j emHashLookupCount packets.2)
  let packets := forFours (processx4Step3 env pktsBurst) (emHashLookupCount / fwdStep) j packets
  visit pktsBurst (fun pkt dstPort => ({ pkt with port := dstPort }, dstPort))
    emHashLookupCount j packets

def emProcessEventGroup (env : Env) (tables : EmTables) (pktsBurst : Nat → MbufPtr)
    (packets : MbufHeap × (Nat → BitVec 16)) (j : Nat) : MbufHeap × (Nat → BitVec 16) :=
  let m := fun i => pktsBurst (j + i)
  let pktType := groupType packets.1 m
  if tcpOrUdp pktType ≠ 0#32 ∧ l3Type pktType = rtePtypeL3Ipv4 then
    emWriteGroup env pktsBurst (emGetDstPortIpv4xNEvents env tables packets.1 m) packets j
  else if tcpOrUdp pktType ≠ 0#32 ∧ l3Type pktType = rtePtypeL3Ipv6 then
    emWriteGroup env pktsBurst (emGetDstPortIpv6xNEvents env tables packets.1 m) packets j
  else
    visit pktsBurst (fun pkt dstPort => (emProcessEventPkt env tables pkt, dstPort))
      emHashLookupCount j packets

/-- Groups of eight first, then the remaining packets one by one. -/
def l3fwdEmProcessEvents (env : Env) (tables : EmTables) (mbufs : MbufHeap) (nbRx : Nat)
    (pktsBurst : Nat → MbufPtr) (dstPort : Nat → BitVec 16) : MbufHeap :=
  let n := nbRx / emHashLookupCount * emHashLookupCount
  let packets := (List.range (nbRx / emHashLookupCount)).foldl
    (fun packets group => emProcessEventGroup env tables pktsBurst packets
      (group * emHashLookupCount)) (mbufs, dstPort)
  (visit pktsBurst (fun pkt dstPort => (emProcessEventPkt env tables pkt, dstPort))
    (nbRx - n) n packets).1

/-! ## One by one -/

namespace Sequential

/-- The sequential `em_get_dst_port` keeps next hops in eight bits. -/
def emGetDstPort (env : Env) (tables : EmTables) (pkt : RteMbuf) (portid : BitVec 16) :
    BitVec 16 :=
  let byte := fun port : BitVec 16 => (port.setWidth 8).setWidth 16
  if tcpOrUdp pkt.packetType ≠ 0#32 ∧ l3Type pkt.packetType = rtePtypeL3Ipv4 then
    enabledPort env (byte (emGetIpv4DstPort tables pkt portid)) portid
  else if tcpOrUdp pkt.packetType ≠ 0#32 ∧ l3Type pkt.packetType = rtePtypeL3Ipv6 then
    enabledPort env (byte (emGetIpv6DstPort tables pkt portid)) portid
  else
    portid

/-- A bad packet gets the port back that it came from. -/
def processEventPkt (env : Env) (tables : EmTables) (mbuf : RteMbuf) : RteMbuf :=
  let port := mbuf.port
  let mbuf := processOwnPort env { mbuf with port := emGetDstPort env tables mbuf mbuf.port }
  if mbuf.port = badPort then { mbuf with port := port } else mbuf

def l3fwdEmProcessEvents (env : Env) (tables : EmTables) (mbufs : MbufHeap) (nbRx : Nat)
    (pktsBurst : Nat → MbufPtr) : MbufHeap :=
  (visit pktsBurst (fun pkt (_ : Unit) => (processEventPkt env tables pkt, ())) nbRx 0
    (mbufs, fun _ => ())).1

end Sequential

/-! ## The ports that are looked up -/

/-- The port of a packet in a group of the given type. -/
def emGroupPort (env : Env) (tables : EmTables) (pktType : BitVec 32) (pkt : RteMbuf)
    (portid : BitVec 16) : BitVec 16 :=
  if tcpOrUdp pktType ≠ 0#32 ∧ l3Type pktType = rtePtypeL3Ipv4 then
    enabledPort env (emGetIpv4DstPort tables pkt portid) portid
  else if tcpOrUdp pktType ≠ 0#32 ∧ l3Type pktType = rtePtypeL3Ipv6 then
    enabledPort env (emGetIpv6DstPort tables pkt portid) portid
  else
    emGetDstPort env tables pkt portid

/-- The port that is looked up for packet `i` of a burst, in its group or on its own. -/
def emEventPort (env : Env) (tables : EmTables) (mbufs : MbufHeap) (pktsBurst : Nat → MbufPtr)
    (nbRx i : Nat) : BitVec 16 :=
  let pkt := mbufs (pktsBurst i)
  if i < nbRx / emHashLookupCount * emHashLookupCount then
    let first := i / emHashLookupCount * emHashLookupCount
    emGroupPort env tables (groupType mbufs fun i => pktsBurst (first + i)) pkt pkt.port
  else
    emGetDstPort env tables pkt pkt.port

theorem emGetDstPort_lt (env : Env) (tables : EmTables) (pkt : RteMbuf) {portid : BitVec 16}
    (valid : portid.toNat < rteMaxEthports) :
    (emGetDstPort env tables pkt portid).toNat < rteMaxEthports := by
  unfold emGetDstPort
  split
  · exact enabledPort_lt env _ valid
  · split
    · exact enabledPort_lt env _ valid
    · exact valid

theorem Sequential.emGetDstPort_lt (env : Env) (tables : EmTables) (pkt : RteMbuf)
    {portid : BitVec 16} (valid : portid.toNat < rteMaxEthports) :
    (Sequential.emGetDstPort env tables pkt portid).toNat < rteMaxEthports := by
  unfold Sequential.emGetDstPort
  dsimp only
  split
  · exact enabledPort_lt env _ valid
  · split
    · exact enabledPort_lt env _ valid
    · exact valid

theorem emGroupPort_lt (env : Env) (tables : EmTables) (pktType : BitVec 32) (pkt : RteMbuf)
    {portid : BitVec 16} (valid : portid.toNat < rteMaxEthports) :
    (emGroupPort env tables pktType pkt portid).toNat < rteMaxEthports := by
  unfold emGroupPort
  split
  · exact enabledPort_lt env _ valid
  · split
    · exact enabledPort_lt env _ valid
    · exact emGetDstPort_lt env tables pkt valid

theorem emEventPort_lt (env : Env) (tables : EmTables) {mbufs : MbufHeap}
    {pktsBurst : Nat → MbufPtr} (nbRx : Nat) {i : Nat}
    (valid : (mbufs (pktsBurst i)).port.toNat < rteMaxEthports) :
    (emEventPort env tables mbufs pktsBurst nbRx i).toNat < rteMaxEthports := by
  unfold emEventPort
  dsimp only
  split
  · exact emGroupPort_lt env tables _ _ valid
  · exact emGetDstPort_lt env tables _ valid

/-! ## What happens to the packets -/

theorem processOwnPort_port (env : Env) (pkt : RteMbuf) :
    (processOwnPort env pkt).port = pkt.checkedPort pkt.port :=
  processPacket_port env pkt pkt.port

/-- Writing the checked port into a processed packet is processing it on the port. -/
theorem processOwnPort_eq (env : Env) (pkt : RteMbuf) (port : BitVec 16) :
    { (processPacket env pkt port).1 with port := (processPacket env pkt port).2 } =
      processOwnPort env { pkt with port := port } :=
  rfl

theorem emWriteGroup_spec (env : Env) {pktsBurst : Nat → MbufPtr} (ports : Nat → BitVec 16)
    (packets : MbufHeap × (Nat → BitVec 16)) {j : Nat}
    (distinct : Distinct pktsBurst j emHashLookupCount) :
    Written pktsBurst
      (fun i => processOwnPort env { packets.1 (pktsBurst i) with port := ports (i - j) })
      j emHashLookupCount packets.1 (emWriteGroup env pktsBurst ports packets j).1 := by
  let assigned := (packets.1, assign (fun i => ports (i - j)) j emHashLookupCount packets.2)
  have processed : forFours (processx4Step3 env pktsBurst) (emHashLookupCount / fwdStep) j
      assigned = visit pktsBurst (processPacket env) emHashLookupCount j assigned :=
    step3Fours_spec env pktsBurst (emHashLookupCount / fwdStep) j assigned distinct
  have isGroup : emWriteGroup env pktsBurst ports packets j =
      visit pktsBurst (fun pkt dstPort => ({ pkt with port := dstPort }, dstPort))
        emHashLookupCount j (visit pktsBurst (processPacket env) emHashLookupCount j assigned) := by
    rw [← processed]
    rfl
  rw [isGroup]
  constructor
  · intro i after before
    have covered : assigned.2 i = ports (i - j) := if_pos ⟨after, before⟩
    rcases visit_inside pktsBurst (processPacket env) emHashLookupCount j assigned distinct i
      after before with ⟨cell, slot⟩
    rw [(visit_inside pktsBurst _ emHashLookupCount j _ distinct i after before).1, cell, slot,
      covered]
    exact processOwnPort_eq env _ _
  · intro name elsewhere
    rw [cell_outside pktsBurst _ emHashLookupCount j _ elsewhere,
      cell_outside pktsBurst _ emHashLookupCount j _ elsewhere]

theorem groupType_congr {mbufs mbufs' : MbufHeap} (m : Nat → MbufPtr)
    (same : ∀ i, i < emHashLookupCount → mbufs' (m i) = mbufs (m i)) :
    groupType mbufs' m = groupType mbufs m := by
  unfold groupType
  apply List.foldl_ext
  intro pktType i member
  rw [same i (List.mem_range.mp member)]

section

variable (env : Env) {tables : EmTables} (lawful4 : tables.ipv4.Lawful)
  (lawful6 : tables.ipv6.Lawful)

include lawful4 lawful6

/-- Every packet of a group is processed on the port that its group has for it. -/
theorem emProcessEventGroup_spec {pktsBurst : Nat → MbufPtr}
    (packets : MbufHeap × (Nat → BitVec 16)) {j : Nat}
    (distinct : Distinct pktsBurst j emHashLookupCount) :
    Written pktsBurst
      (fun i =>
        let pkt := packets.1 (pktsBurst i)
        let pktType := groupType packets.1 fun i => pktsBurst (j + i)
        processOwnPort env { pkt with port := emGroupPort env tables pktType pkt pkt.port })
      j emHashLookupCount packets.1 (emProcessEventGroup env tables pktsBurst packets j).1 := by
  have position : ∀ i, j ≤ i → i < j + emHashLookupCount →
      i - j < emHashLookupCount ∧ j + (i - j) = i := by
    intro i after before
    exact ⟨Nat.sub_lt_left_of_lt_add after before, Nat.add_sub_of_le after⟩
  unfold emProcessEventGroup
  dsimp only
  split
  · rename_i isIpv4
    apply (emWriteGroup_spec env _ packets distinct).congr
    intro i after before
    rcases position i after before with ⟨inside, place⟩
    have looked := getDstPortxN_eq env lawful4
      (fun i => getIpv45tuple tables (packets.1 (pktsBurst (j + i))))
      (fun i => (packets.1 (pktsBurst (j + i))).port) inside
    rw [emGetDstPortIpv4xNEvents, looked, place, emGroupPort, if_pos isIpv4, emGetIpv4DstPort]
  · rename_i notIpv4
    split
    · rename_i isIpv6
      apply (emWriteGroup_spec env _ packets distinct).congr
      intro i after before
      rcases position i after before with ⟨inside, place⟩
      have looked := getDstPortxN_eq env lawful6
        (fun i => getIpv65tuple tables (packets.1 (pktsBurst (j + i))))
        (fun i => (packets.1 (pktsBurst (j + i))).port) inside
      rw [emGetDstPortIpv6xNEvents, looked, place, emGroupPort, if_neg notIpv4, if_pos isIpv6,
        emGetIpv6DstPort]
    · rename_i notIpv6
      apply Written.ofVisit packets distinct
      intro i _ _
      rw [emGroupPort, if_neg notIpv4, if_neg notIpv6]
      rfl

/-- What the whole burst writes: each packet gets the port that is looked up for it. -/
def emEventWritten (tables : EmTables) (mbufs : MbufHeap) (pktsBurst : Nat → MbufPtr)
    (nbRx i : Nat) : RteMbuf :=
  processOwnPort env { mbufs (pktsBurst i) with
    port := emEventPort env tables mbufs pktsBurst nbRx i }

/-- The first `count` groups write their part of the burst. -/
theorem emProcessEventGroups_spec (mbufs : MbufHeap) {nbRx : Nat} {pktsBurst : Nat → MbufPtr}
    (dstPort : Nat → BitVec 16) (distinct : Distinct pktsBurst 0 nbRx) :
    ∀ count, count ≤ nbRx / emHashLookupCount →
      Written pktsBurst (emEventWritten env tables mbufs pktsBurst nbRx) 0
        (count * emHashLookupCount) mbufs
        ((List.range count).foldl (fun packets group =>
          emProcessEventGroup env tables pktsBurst packets (group * emHashLookupCount))
          (mbufs, dstPort)).1 := by
  have total := Nat.div_mul_le_self nbRx emHashLookupCount
  intro count
  induction count with
  | zero =>
      intro _
      rw [Nat.zero_mul]
      exact Written.nil pktsBurst _ 0 mbufs
  | succ count induction =>
      intro inRange
      have before := induction (Nat.le_of_succ_le inRange)
      have ends := Nat.mul_le_mul_right emHashLookupCount inRange
      rw [Nat.succ_mul] at ends
      rw [List.range_succ, List.foldl_append, List.foldl_cons, List.foldl_nil, Nat.succ_mul]
      generalize (List.range count).foldl _ (mbufs, dstPort) = packets at before ⊢
      have fresh : ∀ i, count * emHashLookupCount ≤ i →
          i < count * emHashLookupCount + emHashLookupCount →
          packets.1 (pktsBurst i) = mbufs (pktsBurst i) :=
        fun i after inGroup => before.fresh distinct (by omega) (by omega)
      apply Written.append (Nat.zero_add _).symm rfl
        (distinct.sub (Nat.le_refl 0) (by omega)) before
      apply (emProcessEventGroup_spec env lawful4 lawful6 packets
        (distinct.sub (Nat.zero_le _) (by omega))).congr
      intro i after inGroup
      have quotient : i / emHashLookupCount = count := by
        simp only [emHashLookupCount] at *
        omega
      have inGroups : i < nbRx / emHashLookupCount * emHashLookupCount := by omega
      have sameType := groupType_congr (fun i => pktsBurst (count * emHashLookupCount + i))
        fun i inside => fresh _ (Nat.le_add_right _ _) (Nat.add_lt_add_left inside _)
      simp only [emEventWritten, emEventPort, if_pos inGroups, quotient, fresh i after inGroup,
        sameType]

/-- Every packet of a burst is processed on the port that is looked up for it. -/
theorem l3fwdEmProcessEvents_spec (mbufs : MbufHeap) {nbRx : Nat} {pktsBurst : Nat → MbufPtr}
    (dstPort : Nat → BitVec 16) (distinct : Distinct pktsBurst 0 nbRx) :
    Written pktsBurst
      (fun i => processOwnPort env { mbufs (pktsBurst i) with
        port := emEventPort env tables mbufs pktsBurst nbRx i })
      0 nbRx mbufs (l3fwdEmProcessEvents env tables mbufs nbRx pktsBurst dstPort) := by
  let n := nbRx / emHashLookupCount * emHashLookupCount
  have total : n ≤ nbRx := Nat.div_mul_le_self nbRx emHashLookupCount
  have left := emProcessEventGroups_spec env lawful4 lawful6 mbufs dstPort distinct
    (nbRx / emHashLookupCount) (Nat.le_refl _)
  unfold l3fwdEmProcessEvents
  dsimp only
  generalize (List.range (nbRx / emHashLookupCount)).foldl _ (mbufs, dstPort) = packets at left ⊢
  have right : Written pktsBurst (emEventWritten env tables mbufs pktsBurst nbRx) n (nbRx - n)
      packets.1 (visit pktsBurst
        (fun pkt dstPort => (emProcessEventPkt env tables pkt, dstPort)) (nbRx - n) n packets).1 := by
    apply Written.ofVisit packets (distinct.sub (Nat.zero_le n) (by omega))
    intro i after before
    have inBurst : i < 0 + nbRx := by omega
    have fresh := left.fresh distinct (by omega) inBurst
    have inTail : ¬ i < nbRx / emHashLookupCount * emHashLookupCount := Nat.not_lt_of_le after
    simp only [emEventWritten, emProcessEventPkt, fresh, emEventPort, if_neg inTail]
  exact Written.append (Nat.zero_add n).symm (Nat.add_sub_of_le total).symm distinct left right

end

end PacketForwarding.L3fwd
