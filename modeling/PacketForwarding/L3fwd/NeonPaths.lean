import PacketForwarding.L3fwd.EmLoop
import PacketForwarding.L3fwd.FibLoop
import PacketForwarding.L3fwd.LpmClock
import PacketForwarding.L3fwd.LpmReads
import PacketForwarding.L3fwd.NeonMulti

/-! # The paths on ARM

Here every four packets are looked up and processed before the next four are looked at. What
the processing changes in a packet is not what lookups read, so the two loops may as well be
run one after the other.
-/

namespace PacketForwarding.L3fwd.Neon

open Lanes Cells

/-! ## The code -/

/-- Read packet types and destination IPv4 addresses from 4 mbufs. -/
def processx4Step1 (mbufs : MbufHeap) (pkt : Nat → MbufPtr) (j : Nat) : Register × BitVec 32 :=
  let dst := fun i => (mbufs (pkt (j + i))).ipv4DstAddr
  let ptype := fun i => (mbufs (pkt (j + i))).packetType
  (ofLanes 32 4 dst, ptype 0 &&& rtePtypeL3Ipv4 &&& ptype 1 &&& ptype 2 &&& ptype 3)

/-- Look up four destination ports. If a lookup fails, use the incoming port. -/
def processx4Step2 (tables : LpmTables) (mbufs : MbufHeap) (dip : Register)
    (ipv4Flag : BitVec 32) (portid : BitVec 16) (pkt : Nat → MbufPtr) (j : Nat)
    (dprt : Nat → BitVec 16) : Nat → BitVec 16 :=
  let dip := vrev32qU8 dip
  -- if all 4 packets are IPv4
  if ipv4Flag ≠ 0 then
    let dst := tables.rteLpmLookupx4 dip (portid.setWidth 32)
    -- get rid of unused upper 16 bit for each dport
    writeFour dprt j fun i => lane 16 (vqmovnS32 dst) i
  else
    writeFour dprt j fun i =>
      lpmGetDstPortWithIpv4 tables (mbufs (pkt (j + i))) (lane 32 dip i) portid

/-- One round of the loop over the groups of four. -/
def processFour (env : Env) (tables : LpmTables) (pktsBurst : Nat → MbufPtr)
    (portid : BitVec 16) (doStep3 : Bool) (j : Nat) (packets : MbufHeap × (Nat → BitVec 16)) :
    MbufHeap × (Nat → BitVec 16) :=
  let (dip, ipv4Flag) := processx4Step1 packets.1 pktsBurst j
  let dstPort := processx4Step2 tables packets.1 dip ipv4Flag portid pktsBurst j packets.2
  if doStep3 then processx4Step3 env pktsBurst j (packets.1, dstPort) else (packets.1, dstPort)

/-- Classify last up to 3 packets one by one. -/
def lpmProcessTail (env : Env) (tables : LpmTables) (pktsBurst : Nat → MbufPtr)
    (portid : BitVec 16) (doStep3 : Bool) :
    Nat → Nat → MbufHeap × (Nat → BitVec 16) → MbufHeap × (Nat → BitVec 16)
  | 0, _, packets => packets
  | count + 1, j, packets =>
      let port := lpmGetDstPort tables (packets.1 (pktsBurst j)) portid
      let packets := (packets.1, Function.update packets.2 j port)
      let packets :=
        if doStep3 then visitOne pktsBurst (processPacket env) j packets else packets
      lpmProcessTail env tables pktsBurst portid doStep3 count (j + 1) packets

def l3fwdLpmProcessPackets (env : Env) (tables : LpmTables) (mbufs : MbufHeap) (nbRx : Nat)
    (pktsBurst : Nat → MbufPtr) (portid : BitVec 16) (dstPort : Nat → BitVec 16)
    (doStep3 : Bool) : MbufHeap × (Nat → BitVec 16) :=
  let k := nbRx / fwdStep * fwdStep
  let packets := forFours (processFour env tables pktsBurst portid doStep3) (nbRx / fwdStep) 0
    (mbufs, dstPort)
  lpmProcessTail env tables pktsBurst portid doStep3 (nbRx % fwdStep) k packets

def l3fwdLpmSendPackets (env : Env) (tables : LpmTables) (state : LcoreState) (nbRx : Nat)
    (pktsBurst : Nat → MbufPtr) (portid : BitVec 16) : Except Fault (LcoreState × TxStats) :=
  let packets := l3fwdLpmProcessPackets env tables state.mbufs nbRx pktsBurst portid
    env.stack false
  sendPacketsMulti env { state with mbufs := packets.1 } pktsBurst packets.2 nbRx

def fibSendPackets (env : Env) (tables : FibTables) (search : FibSearch) (state : LcoreState)
    (nbRx : Nat) (pktsBurst : Nat → MbufPtr) (portid : BitVec 16) : Except Fault LcoreState := do
  let hops := fibHops tables state.mbufs search nbRx pktsBurst portid env.stack
  let (state, _) ← sendPacketsMulti env state pktsBurst hops nbRx
  return state

/-- The port of a packet with `NO_HASH_LOOKUP_MULTI`. -/
def Sequential.emGetDstPort (env : Env) (tables : EmTables) (pkt : RteMbuf)
    (portid : BitVec 16) : BitVec 16 :=
  let byte := fun port : BitVec 16 => (port.setWidth 8).setWidth 16
  if tcpOrUdp pkt.packetType ≠ 0#32 ∧ l3Type pkt.packetType = rtePtypeL3Ipv4 then
    let ret := tables.ipv4.rteHashLookup (emIpv4Key tables pkt)
    enabledPort env (byte (tables.ipv4.dstPort portid ret)) portid
  else if tcpOrUdp pkt.packetType ≠ 0#32 ∧ l3Type pkt.packetType = rtePtypeL3Ipv6 then
    let ret := tables.ipv6.rteHashLookup (emIpv6Key tables pkt)
    enabledPort env (byte (tables.ipv6.dstPort portid ret)) portid
  else
    portid

def Sequential.l3fwdEmSendPackets (env : Env) (tables : EmTables) (state : LcoreState) (nbRx : Nat)
    (pktsBurst : Nat → MbufPtr) (portid : BitVec 16) : Except Fault LcoreState := do
  let dstPort := (List.range nbRx).foldl (fun dstPort j => Function.update dstPort j
    (emGetDstPort env tables (state.mbufs (pktsBurst j)) portid)) env.stack
  let (state, _) ← sendPacketsMulti env state pktsBurst dstPort nbRx
  .ok state

def lpmMainLoop (env : Env) (tables : LpmTables) (tscHz tsc : BitVec 64) (state : LcoreState)
    (rounds : List PollRound) : Except Fault MainLoop :=
  lpmMainLoopWith (l3fwdLpmSendPackets env tables) env state
    (timedInputs (drainTsc tscHz) tsc tsc rounds)

def fibMainLoop (env : Env) (tables : FibTables) (search : FibSearch) (tscHz tsc : BitVec 64)
    (state : LcoreState) (rounds : List PollRound) : Except Fault Poll :=
  pollMainLoop env (fibSendPackets env tables search) tscHz tsc state rounds

def emMainLoop (env : Env) (tables : EmTables) (tscHz tsc : BitVec 64) (state : LcoreState)
    (rounds : List PollRound) : Except Fault Poll :=
  pollMainLoop env (Sequential.l3fwdEmSendPackets env tables) tscHz tsc state rounds

def processEventVector (mbufs : MbufHeap) (vec : RteEventVector) (dstPort : Nat → BitVec 16) :
    VectorState :=
  let filter := filterBadPackets vec.mbufs dstPort vec.nbElem
  let vec := { vec with nbElem := vec.nbElem - filter.free, mbufs := filter.mbufs }
  -- verify destination array
  let port := processDstPort filter.dstPort vec.nbElem
  if port = badPort then
    { mbufs := (visit vec.mbufs
        (fun pkt dstPort => ({ pkt with port := dstPort, txq := 0 }, dstPort))
        vec.nbElem 0 (mbufs, filter.dstPort)).1
      vec := { vec with attrValid := false }
      freed := filter.freed }
  else
    { mbufs := mbufs
      vec := { vec with attrValid := true, port := port, queue := 0 }
      freed := filter.freed }

def lpmVectorPacket (env : Env) (tables : LpmTables) (vec : RteEventVector)
    (packets : MbufHeap × (Nat → BitVec 16)) (i : Nat) : MbufHeap × (Nat → BitVec 16) :=
  let (mbufs, ports) := l3fwdLpmProcessPackets env tables packets.1 1 (fun j => vec.mbufs (i + j))
    (packets.1 (vec.mbufs i)).port (portsFrom packets.2 i) true
  (mbufs, writePortsFrom packets.2 i ports)

def lpmProcessEventVector (env : Env) (tables : LpmTables) (mbufs : MbufHeap)
    (vec : RteEventVector) (dstPort : Nat → BitVec 16) : VectorState :=
  let packets :=
    if vec.attrValid then
      l3fwdLpmProcessPackets env tables mbufs vec.nbElem vec.mbufs vec.port dstPort true
    else
      (List.range vec.nbElem).foldl (lpmVectorPacket env tables vec) (mbufs, dstPort)
  processEventVector packets.1 vec packets.2

/-! ## What lookups read -/

/-- Two states of an mbuf that are looked up alike. -/
structure SameDestination (before after : RteMbuf) : Prop where
  packetType : after.packetType = before.packetType
  behind : ∀ address, Ipv4Hdr.hdrChecksum + 2 ≤ address → after.data address = before.data address

namespace SameDestination

theorem refl (mbuf : RteMbuf) : SameDestination mbuf mbuf := ⟨rfl, fun _ _ => rfl⟩

theorem trans (before middle after : RteMbuf) (first : SameDestination before middle)
    (second : SameDestination middle after) : SameDestination before after where
  packetType := second.packetType.trans first.packetType
  behind := fun address later => (second.behind address later).trans (first.behind address later)

variable {before after : RteMbuf} (same : SameDestination before after)

include same

theorem ipv4DstAddr : after.ipv4DstAddr = before.ipv4DstAddr := by
  apply load_congr 4
  intro index _
  apply same.behind
  simp only [Ipv4Hdr.hdrChecksum, Ipv4Hdr.dstAddr]
  omega

theorem ipv6DstAddr : load 16 after.data ipv6DstAddr = load 16 before.data ipv6DstAddr := by
  apply load_congr 16
  intro index _
  apply same.behind
  simp only [Ipv4Hdr.hdrChecksum, L3fwd.ipv6DstAddr]
  omega

theorem withIpv4 (tables : LpmTables) (dstIpv4 : BitVec 32) (portid : BitVec 16) :
    lpmGetDstPortWithIpv4 tables after dstIpv4 portid =
      lpmGetDstPortWithIpv4 tables before dstIpv4 portid := by
  rw [lpmGetDstPortWithIpv4, lpmGetDstPortWithIpv4, same.packetType, same.ipv6DstAddr]

end SameDestination

theorem sameDestination_storeEth (mbuf : RteMbuf) (te : Register) :
    SameDestination mbuf (mbuf.storeEth te) where
  packetType := rfl
  behind := by
    intro address later
    apply store_of_outside 16
    simp only [Ipv4Hdr.hdrChecksum, rteEtherHdrLen] at later
    omega

theorem sameDestination_rfc1812 (mbuf : RteMbuf) (dp : BitVec 16) :
    SameDestination mbuf { mbuf with data := (rfc1812Process mbuf.data dp mbuf.packetType).1 } where
  packetType := rfl
  behind := by
    intro address later
    have notTtl : address ≠ Ipv4Hdr.timeToLive := by
      simp only [Ipv4Hdr.hdrChecksum, Ipv4Hdr.timeToLive] at later ⊢
      omega
    dsimp only
    rw [rfc1812Process_data]
    split
    · exact countHop_of_ne mbuf.data notTtl (Or.inr later)
    · rfl

/-! ## Processing a group -/

/-- What is done to a group of four after its lookup. -/
def finishFour (env : Env) (pktsBurst : Nat → MbufPtr) (doStep3 : Bool) (j : Nat)
    (packets : MbufHeap × (Nat → BitVec 16)) : MbufHeap × (Nat → BitVec 16) :=
  if doStep3 then L3fwd.processx4Step3 env pktsBurst j packets else packets

theorem finishFour_sameDestination (env : Env) (pktsBurst : Nat → MbufPtr) (doStep3 : Bool)
    (j : Nat) (packets : MbufHeap × (Nat → BitVec 16)) (m : MbufPtr) :
    SameDestination (packets.1 m) ((finishFour env pktsBurst doStep3 j packets).1 m) := by
  cases doStep3 with
  | false => exact SameDestination.refl _
  | true =>
      let te := fun i => blendEpi16 (load 16 (packets.1 (pktsBurst i)).data 0)
        (env.valEth (packets.2 i).toNat) maskEth
      let stored := visit pktsBurst (fun mbuf te => (mbuf.storeEth te, te)) fwdStep j
        (packets.1, te)
      have rewritten : SameDestination (packets.1 m) (stored.1 m) :=
        (visit_keeps pktsBurst (fun mbuf te => (mbuf.storeEth te, te)) SameDestination.refl
          SameDestination.trans fwdStep j (packets.1, te)
          fun i _ _ current _ => sameDestination_storeEth current _).1 m
      let step := fun (mbuf : RteMbuf) (dp : BitVec 16) =>
        let checked := rfc1812Process mbuf.data dp mbuf.packetType
        (({ mbuf with data := checked.1 } : RteMbuf), checked.2)
      have checked : SameDestination (stored.1 m)
          ((visit pktsBurst step fwdStep j (stored.1, packets.2)).1 m) :=
        (visit_keeps pktsBurst step SameDestination.refl SameDestination.trans fwdStep j
          (stored.1, packets.2) fun i _ _ current _ => sameDestination_rfc1812 current _).1 m
      exact rewritten.trans _ _ _ checked

/-- Visits have nothing to do with ports behind them. -/
theorem visit_assign_behind (pktsBurst : Nat → MbufPtr)
    (step : RteMbuf → BitVec 16 → RteMbuf × BitVec 16) (ports : Nat → BitVec 16)
    (count more j : Nat) (mbufs : MbufHeap) (dst : Nat → BitVec 16) :
    visit pktsBurst step count j (mbufs, assign ports (j + count) more dst) =
      ((visit pktsBurst step count j (mbufs, dst)).1,
        assign ports (j + count) more (visit pktsBurst step count j (mbufs, dst)).2) := by
  rcases visit_congr_slots pktsBurst step count j mbufs dst (assign ports (j + count) more dst)
    (fun i _ below => if_neg (by omega)) with ⟨sameCells, sameSlots⟩
  apply Prod.ext
  · exact sameCells
  · funext i
    dsimp only
    by_cases inside : j ≤ i ∧ i < j + count
    · rw [sameSlots i inside.1 inside.2]
      exact (if_neg (by omega)).symm
    · rw [slot_outside pktsBurst step count j _ (by omega)]
      exact if_congr Iff.rfl rfl
        (slot_outside pktsBurst step count j (mbufs, dst) (by omega)).symm

theorem finishFour_assign (env : Env) (pktsBurst : Nat → MbufPtr) (doStep3 : Bool)
    (ports : Nat → BitVec 16) (more j : Nat) (mbufs : MbufHeap) (dst : Nat → BitVec 16) :
    finishFour env pktsBurst doStep3 j (mbufs, assign ports (j + fwdStep) more dst) =
      ((finishFour env pktsBurst doStep3 j (mbufs, dst)).1,
        assign ports (j + fwdStep) more (finishFour env pktsBurst doStep3 j (mbufs, dst)).2) := by
  cases doStep3 with
  | false => rfl
  | true =>
      let te := fun (dst : Nat → BitVec 16) i =>
        blendEpi16 (load 16 (mbufs (pktsBurst i)).data 0) (env.valEth (dst i).toNat) maskEth
      have stored := (visit_congr_slots pktsBurst (fun mbuf te => (RteMbuf.storeEth mbuf te, te))
        fwdStep j mbufs (te dst) (te (assign ports (j + fwdStep) more dst)) (by
          intro i _ below
          have kept : assign ports (j + fwdStep) more dst i = dst i := if_neg (by omega)
          simp only [te, kept])).1
      change visit pktsBurst _ fwdStep j ((visit pktsBurst _ fwdStep j
        (mbufs, te (assign ports (j + fwdStep) more dst))).1, _) = _
      rw [stored]
      exact visit_assign_behind pktsBurst _ ports fwdStep more j _ dst

/-! ## Looking up a group -/

/-- The ports found for the packets of a burst, as they are found in groups of four. -/
def groupedPort (tables : LpmTables) (mbufs : MbufHeap) (pktsBurst : Nat → MbufPtr)
    (portid : BitVec 16) (i : Nat) : BitVec 16 :=
  let (dip, ipv4Flag) := L3fwd.processx4Step1 mbufs pktsBurst (4 * (i / 4))
  let dip := shuffleEpi8 dip bswapMask
  if ipv4Flag ≠ 0 then
    saturate16 (lane 32 (tables.rteLpmLookupx4 dip (portid.setWidth 32)) (i % 4))
  else
    lpmGetDstPortWithIpv4 tables (mbufs (pktsBurst i)) (lane 32 dip (i % 4)) portid

section

variable (tables : LpmTables) (mbufs : MbufHeap) (pktsBurst : Nat → MbufPtr) (portid : BitVec 16)

/-- Four values that are written are the next ports of the burst. -/
theorem writeFour_grouped {values : Nat → BitVec 16} {block : Nat}
    (same : ∀ i, i < 4 → values i = groupedPort tables mbufs pktsBurst portid (4 * block + i))
    (dst : Nat → BitVec 16) :
    writeFour dst (4 * block) values =
      assign (groupedPort tables mbufs pktsBurst portid) (4 * block) fwdStep dst := by
  rw [← writeFour_eq]
  funext i
  rw [writeFour, writeFour]
  split
  · rename_i covered
    apply same
    simp only [fwdStep] at covered
    omega
  · rfl

theorem groupedPort_eq {block i : Nat} (inside : i < 4) :
    groupedPort tables mbufs pktsBurst portid (4 * block + i) =
      let step := L3fwd.processx4Step1 mbufs pktsBurst (4 * block)
      let dip := shuffleEpi8 step.1 bswapMask
      if step.2 ≠ 0 then
        saturate16 (lane 32 (tables.rteLpmLookupx4 dip (portid.setWidth 32)) i)
      else
        lpmGetDstPortWithIpv4 tables (mbufs (pktsBurst (4 * block + i))) (lane 32 dip i)
          portid := by
  have isBlock : (4 * block + i) / 4 = block := by omega
  have place : (4 * block + i) % 4 = i := by omega
  rw [groupedPort, isBlock, place]

theorem step2_grouped (block : Nat) (dst : Nat → BitVec 16) :
    L3fwd.processx4Step2 tables mbufs (L3fwd.processx4Step1 mbufs pktsBurst (4 * block)).1
        (L3fwd.processx4Step1 mbufs pktsBurst (4 * block)).2 portid pktsBurst (4 * block) dst =
      assign (groupedPort tables mbufs pktsBurst portid) (4 * block) fwdStep dst := by
  rw [L3fwd.processx4Step2]
  dsimp only
  split
  · rename_i flag
    apply writeFour_grouped
    intro i inside
    rw [groupedPort_eq tables mbufs pktsBurst portid inside]
    exact (lane_packsEpi32 _ _ i inside).trans (if_pos flag).symm
  · rename_i flag
    apply writeFour_grouped
    intro i inside
    rw [groupedPort_eq tables mbufs pktsBurst portid inside]
    exact (if_neg flag).symm

/-- The addresses are reversed as with the other instructions. -/
theorem vrev32qU8_step1 (j : Nat) :
    vrev32qU8 (processx4Step1 mbufs pktsBurst j).1 =
      shuffleEpi8 (L3fwd.processx4Step1 mbufs pktsBurst j).1 bswapMask := by
  apply ext_lanes 32 4
  intro index inside
  have word : lane 32 (processx4Step1 mbufs pktsBurst j).1 index =
      (mbufs (pktsBurst (j + index))).ipv4DstAddr :=
    lane_ofLanes 32 4 (fun i => (mbufs (pktsBurst (j + i))).ipv4DstAddr) index inside
  rw [lane_swapped mbufs pktsBurst j index inside, lane_vrev32qU8 _ inside, word]

theorem neonStep2_grouped (block : Nat) (dst : Nat → BitVec 16) :
    processx4Step2 tables mbufs (processx4Step1 mbufs pktsBurst (4 * block)).1
        (processx4Step1 mbufs pktsBurst (4 * block)).2 portid pktsBurst (4 * block) dst =
      assign (groupedPort tables mbufs pktsBurst portid) (4 * block) fwdStep dst := by
  have flags : (processx4Step1 mbufs pktsBurst (4 * block)).2 =
      (L3fwd.processx4Step1 mbufs pktsBurst (4 * block)).2 := rfl
  rw [processx4Step2, vrev32qU8_step1, flags]
  dsimp only
  split
  · rename_i flag
    apply writeFour_grouped
    intro i inside
    rw [groupedPort_eq tables mbufs pktsBurst portid inside]
    exact (lane_vqmovnS32 _ inside).trans (if_pos flag).symm
  · rename_i flag
    apply writeFour_grouped
    intro i inside
    rw [groupedPort_eq tables mbufs pktsBurst portid inside]
    exact (if_neg flag).symm

variable {mbufs}

/-- Packets that are processed are still looked up as they were. -/
theorem groupedPort_congr {mbufs' : MbufHeap}
    (same : ∀ m, SameDestination (mbufs m) (mbufs' m)) :
    groupedPort tables mbufs' pktsBurst portid = groupedPort tables mbufs pktsBurst portid := by
  have step1 : L3fwd.processx4Step1 mbufs' pktsBurst = L3fwd.processx4Step1 mbufs pktsBurst := by
    funext j
    simp only [L3fwd.processx4Step1, (same _).ipv4DstAddr, (same _).packetType]
  funext i
  rw [groupedPort, groupedPort, step1]
  simp only [(same _).withIpv4]

end

/-! ## One loop or two -/

section

variable (env : Env) (tables : LpmTables) (pktsBurst : Nat → MbufPtr) (portid : BitVec 16)
  (doStep3 : Bool)

theorem processFour_eq (block : Nat) (mbufs : MbufHeap) (dst : Nat → BitVec 16) :
    processFour env tables pktsBurst portid doStep3 (4 * block) (mbufs, dst) =
      finishFour env pktsBurst doStep3 (4 * block)
        (mbufs, assign (groupedPort tables mbufs pktsBurst portid) (4 * block) fwdStep dst) := by
  rw [processFour]
  dsimp only
  rw [neonStep2_grouped, processx4Step3_eq, finishFour]

/-- The groups are finished one after the other, and it does not matter when the ports of the
later ones were found. -/
theorem processFours_eq :
    ∀ rounds block mbufs dst,
      forFours (processFour env tables pktsBurst portid doStep3) rounds (4 * block) (mbufs, dst) =
        forFours (finishFour env pktsBurst doStep3) rounds (4 * block)
          (mbufs, assign (groupedPort tables mbufs pktsBurst portid) (4 * block) (4 * rounds) dst)
  | 0, block, mbufs, dst => by rw [forFours, forFours, Nat.mul_zero, assign_zero]
  | rounds + 1, block, mbufs, dst => by
      have next : 4 * block + fwdStep = 4 * (block + 1) := by
        simp only [fwdStep]
        omega
      have total : 4 * (rounds + 1) = fwdStep + 4 * rounds := by
        simp only [fwdStep]
        omega
      let ports := groupedPort tables mbufs pktsBurst portid
      let first := finishFour env pktsBurst doStep3 (4 * block)
        (mbufs, assign ports (4 * block) fwdStep dst)
      have later : groupedPort tables first.1 pktsBurst portid = ports :=
        groupedPort_congr tables pktsBurst portid fun m =>
          finishFour_sameDestination env pktsBurst doStep3 _ (mbufs, _) m
      have behind := finishFour_assign env pktsBurst doStep3 ports (4 * rounds) (4 * block) mbufs
        (assign ports (4 * block) fwdStep dst)
      rw [forFours, forFours, processFour_eq, total, ← assign_add, behind, next]
      have rest := processFours_eq rounds (block + 1) first.1 first.2
      rw [later] at rest
      exact rest

theorem lookups_grouped (mbufs : MbufHeap) {dip : Nat → Register} {ipv4Flag : Nat → BitVec 32} :
    ∀ rounds block dst,
      (∀ g, block ≤ g → g < block + rounds →
        dip g = (L3fwd.processx4Step1 mbufs pktsBurst (4 * g)).1 ∧
          ipv4Flag g = (L3fwd.processx4Step1 mbufs pktsBurst (4 * g)).2) →
      forFours (fun j dstPort => L3fwd.processx4Step2 tables mbufs (dip (j / fwdStep))
          (ipv4Flag (j / fwdStep)) portid pktsBurst j dstPort) rounds (4 * block) dst =
        assign (groupedPort tables mbufs pktsBurst portid) (4 * block) (4 * rounds) dst
  | 0, block, dst, _ => (assign_zero _ _ _).symm
  | rounds + 1, block, dst, gathered => by
      have entry : 4 * block / fwdStep = block := Nat.mul_div_cancel_left block (by decide)
      rcases gathered block (Nat.le_refl block) (by omega) with ⟨isDip, isFlag⟩
      have next : 4 * block + fwdStep = 4 * (block + 1) := by
        simp only [fwdStep]
        omega
      have total : fwdStep + 4 * rounds = 4 * (rounds + 1) := by
        simp only [fwdStep]
        omega
      rw [forFours, entry, isDip, isFlag, step2_grouped, next,
        lookups_grouped mbufs rounds (block + 1) _ fun g after before =>
          gathered g (by omega) (by omega),
        ← next, assign_add, total]

theorem lpmProcessTail_eq :
    ∀ count j packets, lpmProcessTail env tables pktsBurst portid doStep3 count j packets =
      L3fwd.lpmProcessTail env tables pktsBurst portid doStep3 count j packets
  | 0, _, _ => rfl
  | count + 1, j, packets => by
      rw [lpmProcessTail, L3fwd.lpmProcessTail, processPacket_eq]
      exact lpmProcessTail_eq count (j + 1) _

theorem l3fwdLpmProcessPackets_asSse (mbufs : MbufHeap) (nbRx : Nat) (dstPort : Nat → BitVec 16) :
    l3fwdLpmProcessPackets env tables mbufs nbRx pktsBurst portid dstPort doStep3 =
      L3fwd.l3fwdLpmProcessPackets env tables mbufs nbRx pktsBurst portid dstPort doStep3 := by
  have unchanged : ∀ rounds j packets,
      forFours (finishFour env pktsBurst false) rounds j packets = packets := by
    intro rounds
    induction rounds with
    | zero => exact fun _ _ => rfl
    | succ rounds induction => exact fun j packets => induction (j + fwdStep) packets
  have gathered := (gatherFours_spec mbufs pktsBurst (nbRx / fwdStep) 0 (default, default)).1
  have looked := lookups_grouped tables pktsBurst portid mbufs (nbRx / fwdStep) 0 dstPort gathered
  have processed := processFours_eq env tables pktsBurst portid doStep3 (nbRx / fwdStep) 0 mbufs
    dstPort
  rw [l3fwdLpmProcessPackets, L3fwd.l3fwdLpmProcessPackets]
  dsimp only
  rw [lpmProcessTail_eq]
  apply congrArg
  refine processed.trans ?_
  rw [← looked]
  cases doStep3 with
  | true => rfl
  | false => exact unchanged _ _ _

end

/-! ## The same as with the other instructions -/

section

variable (env : Env)

theorem l3fwdLpmSendPackets_eq (tables : LpmTables) :
    l3fwdLpmSendPackets env tables = lpmSendPackets .simd env tables := by
  funext state nbRx pktsBurst portid
  rw [l3fwdLpmSendPackets, l3fwdLpmProcessPackets_asSse, sendPacketsMulti_eq]
  rfl

theorem fibSendPackets_eq (tables : FibTables) (search : FibSearch) :
    fibSendPackets env tables search = L3fwd.fibSendPackets .simd env tables search := by
  funext state nbRx pktsBurst portid
  rw [fibSendPackets, L3fwd.fibSendPackets, sendPacketsMulti_eq]

theorem Sequential.emGetDstPort_eq (tables : EmTables) :
    emGetDstPort env tables = L3fwd.Sequential.emGetDstPort env tables := by
  funext pkt portid
  rw [emGetDstPort, L3fwd.Sequential.emGetDstPort, emIpv4Key_eq, emIpv6Key_eq]
  rfl

theorem Sequential.l3fwdEmSendPackets_eq (tables : EmTables) :
    l3fwdEmSendPackets env tables = L3fwd.Sequential.l3fwdEmSendPackets env tables := by
  funext state nbRx pktsBurst portid
  rw [l3fwdEmSendPackets, L3fwd.Sequential.l3fwdEmSendPackets, emGetDstPort_eq,
    sendPacketsMulti_eq]

theorem processEventVector_eq : processEventVector = L3fwd.processEventVector := by
  funext mbufs vec dstPort
  rw [processEventVector, L3fwd.processEventVector, processDstPort_eq]

theorem lpmVectorPacket_eq (tables : LpmTables) :
    lpmVectorPacket env tables = L3fwd.lpmVectorPacket env tables := by
  funext vec packets i
  rw [lpmVectorPacket, L3fwd.lpmVectorPacket, l3fwdLpmProcessPackets_asSse]

/-- In a vector every four packets are processed before the next four are looked up. The
outcome is that of looking up all of them first. -/
theorem lpmProcessEventVector_eq (tables : LpmTables) (mbufs : MbufHeap) (vec : RteEventVector)
    (dstPort : Nat → BitVec 16) :
    lpmProcessEventVector env tables mbufs vec dstPort =
      L3fwd.lpmProcessEventVector env tables mbufs vec dstPort := by
  rw [lpmProcessEventVector, L3fwd.lpmProcessEventVector, lpmVectorPacket_eq,
    processEventVector_eq, l3fwdLpmProcessPackets_asSse]

end

end PacketForwarding.L3fwd.Neon
