import PacketForwarding.L3fwd.Forwarders
import PacketForwarding.L3fwd.SendFrames
import PacketForwarding.L3fwd.Validity

/-! # The two LPM paths

The generic path sends the packets of a burst one by one, the vector path in groups. In
both, each packet meets a fate that depends on nothing but the packet, and the fates are
compared.
-/

namespace PacketForwarding.L3fwd

open Lanes Runs Cells

/-! ## Sending leaves the packets alone -/

theorem sendBurst_mbufs (env : Env) (state : LcoreState) (n : Nat) (port : BitVec 16) :
    Outcome (fun result => result.1.mbufs = state.mbufs) True (sendBurst env state n port) := by
  unfold sendBurst
  apply (Outcome.any _).bind
  intro table _
  apply (Outcome.any _).bind
  intro mbufs _
  rfl

theorem sendSinglePacket_mbufs (env : Env) (state : LcoreState) (m : MbufPtr)
    (port : BitVec 16) :
    Outcome (fun result => result.1.mbufs = state.mbufs) True
      (sendSinglePacket env state m port) := by
  unfold sendSinglePacket
  apply (Outcome.any _).bind
  intro table _
  apply (Outcome.any _).bind
  intro filled _
  dsimp only
  split
  · apply (sendBurst_mbufs env (state.setTable port filled) env.rxBurstSize port).bind
    rintro ⟨flushed, sent⟩ same
    exact same
  · rfl

theorem sendCounted_mbufs (env : Env) (state : LcoreState) (m : MbufPtr) (port : BitVec 16) :
    Outcome (fun result => result.1.mbufs = state.mbufs) True (sendCounted env state m port) := by
  unfold sendCounted
  apply (Outcome.any _).bind
  intro table _
  apply (sendSinglePacket_mbufs env state m port).bind
  rintro ⟨next, sent⟩ same
  exact same

/-! ## The generic path, packet by packet -/

/-- Enqueue a packet as it is sent, or free it. -/
def disposeOf (env : Env) (state : LcoreState) (m : MbufPtr) (left : RteMbuf) :
    Fate → Except Fault (LcoreState × TxStats)
  | some sent => sendCounted env (state.setMbuf m sent.1) m sent.2
  | none => .ok ((state.setMbuf m left).rtePktmbufFree m, ⟨0, 1⟩)

/-- Dispose of packet `i` of a burst, which was received as `mbufs` says. -/
def lpmDispose (env : Env) (tables : LpmTables) (mbufs : MbufHeap) (pktsBurst : Nat → MbufPtr)
    (portid : BitVec 16) (result : LcoreState × TxStats) (i : Nat) :
    Except Fault (LcoreState × TxStats) := do
  let pkt := mbufs (pktsBurst i)
  let (state, ret) ← disposeOf env result.1 (pktsBurst i) (lpmLeft env pkt)
    (lpmSimpleFate env tables pkt portid)
  .ok (state, result.2.add ret)

theorem l3fwdLpmSimpleForward_eq (env : Env) (tables : LpmTables) (state : LcoreState)
    (m : MbufPtr) (portid : BitVec 16) :
    l3fwdLpmSimpleForward env tables state m portid =
      disposeOf env state m (lpmLeft env (state.mbufs m))
        (lpmSimpleFate env tables (state.mbufs m) portid) := by
  cases fate : lpmSimpleFate env tables (state.mbufs m) portid with
  | some sent => exact l3fwdLpmSimpleForward_sends fate
  | none => exact l3fwdLpmSimpleForward_drops fate

theorem disposeOf_mbufs (env : Env) (state : LcoreState) (m : MbufPtr) (left : RteMbuf)
    (fate : Fate) :
    Outcome (fun result => ∀ other, other ≠ m → result.1.mbufs other = state.mbufs other) True
      (disposeOf env state m left fate) := by
  cases fate with
  | some sent =>
      apply (sendCounted_mbufs env (state.setMbuf m sent.1) m sent.2).imp
      · intro result same other different
        rw [same]
        exact Function.update_of_ne different _ _
      · exact id
  | none =>
      intro other different
      exact Function.update_of_ne different _ _

theorem forwardLoop_eq (env : Env) (tables : LpmTables) (pktsBurst : Nat → MbufPtr)
    (portid : BitVec 16) :
    ∀ count j result, forwardLoop env tables pktsBurst portid count j result =
      (List.range' j count).foldlM (fun result i =>
        lpmDispose env tables result.1.mbufs pktsBurst portid result i) result
  | 0, _, _ => rfl
  | count + 1, j, (state, stats) => by
      rw [forwardLoop, List.range'_succ, List.foldlM_cons, l3fwdLpmSimpleForward_eq, lpmDispose,
        bind_assoc]
      apply bind_congr
      rintro ⟨next, ret⟩
      exact forwardLoop_eq env tables pktsBurst portid count (j + 1) (next, stats.add ret)

/-- The packets ahead are different, and still as they were received. -/
def Ahead (pktsBurst : Nat → MbufPtr) (mbufs : MbufHeap) (ahead : List Nat)
    (result : LcoreState × TxStats) : Prop :=
  (ahead.map pktsBurst).Nodup ∧
    ∀ i ∈ ahead, result.1.mbufs (pktsBurst i) = mbufs (pktsBurst i)

theorem Ahead.start {pktsBurst : Nat → MbufPtr} {nbRx : Nat} (distinct : Distinct pktsBurst 0 nbRx)
    (state : LcoreState) (stats : TxStats) :
    Ahead pktsBurst state.mbufs (List.range nbRx) (state, stats) := by
  refine ⟨?_, fun _ _ => rfl⟩
  apply List.nodup_range.map_on
  intro left leftIn right rightIn same
  have leftLt := List.mem_range.mp leftIn
  have rightLt := List.mem_range.mp rightIn
  exact distinct left right (Nat.zero_le _) (by omega) (Nat.zero_le _) (by omega) same

theorem lpmDispose_ahead (env : Env) (tables : LpmTables) {mbufs : MbufHeap}
    {pktsBurst : Nat → MbufPtr} (portid : BitVec 16) {i : Nat} {rest : List Nat}
    {result : LcoreState × TxStats} (ahead : Ahead pktsBurst mbufs (i :: rest) result) :
    Outcome (Ahead pktsBurst mbufs rest) True
      (lpmDispose env tables result.1.mbufs pktsBurst portid result i) := by
  rcases ahead with ⟨nodup, fresh⟩
  rw [List.map_cons, List.nodup_cons] at nodup
  apply (disposeOf_mbufs env result.1 (pktsBurst i) _ _).bind
  rintro ⟨next, ret⟩ others
  refine ⟨nodup.2, ?_⟩
  intro other member
  have different : pktsBurst other ≠ pktsBurst i := by
    intro same
    exact nodup.1 (same ▸ List.mem_map_of_mem member)
  exact (others _ different).trans (fresh other (List.mem_cons_of_mem i member))

/-- The generic path gives every packet of a burst the fate that it has by itself. -/
theorem l3fwdLpmNoOptSendPackets_eq (env : Env) (tables : LpmTables) (state : LcoreState)
    {nbRx : Nat} {pktsBurst : Nat → MbufPtr} (portid : BitVec 16)
    (distinct : Distinct pktsBurst 0 nbRx) :
    l3fwdLpmNoOptSendPackets env tables state nbRx pktsBurst portid =
      (List.range nbRx).foldlM (lpmDispose env tables state.mbufs pktsBurst portid)
        (state, ⟨0, 0⟩) := by
  have loops : l3fwdLpmNoOptSendPackets env tables state nbRx pktsBurst portid =
      (List.range nbRx).foldlM (fun result i =>
        lpmDispose env tables result.1.mbufs pktsBurst portid result i) (state, ⟨0, 0⟩) := by
    rw [range_prefetched, List.foldlM_append, l3fwdLpmNoOptSendPackets, forwardLoop_eq]
    apply bind_congr
    intro result
    exact forwardLoop_eq env tables pktsBurst portid _ _ result
  rw [loops]
  apply Outcome.foldlM_congr (Ahead pktsBurst state.mbufs)
  · intro i rest result ahead
    have fresh := ahead.2 i List.mem_cons_self
    rw [lpmDispose, lpmDispose, fresh]
  · intro i rest result ahead
    exact lpmDispose_ahead env tables portid ahead
  · exact Ahead.start distinct state ⟨0, 0⟩

/-! ## The vector path, packet by packet -/

/-- The vector path gives every packet of a burst the fate that it has by itself. -/
theorem l3fwdLpmSendPackets_eq (env : Env) {tables : LpmTables} (lawful : tables.Lawful)
    (state : LcoreState) {nbRx : Nat} {pktsBurst : Nat → MbufPtr} {portid : BitVec 16}
    (incoming : portid.toNat < rteMaxEthports) (positive : 0 < nbRx)
    (inside : nbRx ≤ maxPktBurst) (distinct : Distinct pktsBurst 0 nbRx) :
    ∃ (mbufs : MbufHeap) (port : Nat → BitVec 16) (groups : List Dispatch),
      l3fwdLpmSendPackets env tables state nbRx pktsBurst portid =
        groups.foldlM (Dispatch.exec env pktsBurst) ({ state with mbufs := mbufs }, ⟨0, 0⟩) ∧
      groups.flatMap Dispatch.packets = (List.range nbRx).map (fun i => (i, port i)) ∧
      ∀ i, i < nbRx → Fate.ofPort (mbufs (pktsBurst i), port i) =
        vectorFate env (state.mbufs (pktsBurst i))
          (lpmGetDstPort tables (state.mbufs (pktsBurst i)) portid) := by
  let looked := assign (lpmPort tables state.mbufs pktsBurst portid) 0 nbRx env.stack
  have isLooked : ∀ i, i < nbRx →
      looked i = lpmGetDstPort tables (state.mbufs (pktsBurst i)) portid :=
    fun i below => if_pos (by omega)
  have ports : ∀ i, i < nbRx → looked i ≠ badPort - 1 := by
    intro i below
    have small := lpmGetDstPort_lt lawful.nextHop lawful.nextHop6 (state.mbufs (pktsBurst i))
      (incoming.trans (by decide))
    rw [← isLooked i below] at small
    intro same
    rw [same] at small
    exact absurd small (by decide)
  rcases sendPacketsMulti_frames env state looked positive inside ports distinct with
    ⟨mbufs, port, groups, sent, visited, frames⟩
  refine ⟨mbufs, port, groups, ?_, visited, ?_⟩
  · have lookups := l3fwdLpmProcessPackets_lookup env lawful state.mbufs nbRx pktsBurst env.stack
      (incoming.trans (by decide))
    rw [l3fwdLpmSendPackets, lookups]
    exact sent
  · intro i below
    rw [frames i below, isLooked i below]
    rfl

/-! ## The fates compared -/

theorem setEthAddrs_congr_port (env : Env) {data data' : Nat → BitVec 8} {port : BitVec 16}
    {address : Nat} (front : address < 12) :
    setEthAddrs env data port address = setEthAddrs env data' port address := by
  rw [setEthAddrs_apply, setEthAddrs_apply]
  split
  · rfl
  · rfl

/-- Where two packets differ only in the checksum field, so do they behind a hop. -/
theorem countHop_congr {data data' : Nat → BitVec 8}
    (same : ∀ address, address < Ipv4Hdr.hdrChecksum ∨ Ipv4Hdr.hdrChecksum + 2 ≤ address →
      data' address = data address)
    {address : Nat}
    (outside : address < Ipv4Hdr.hdrChecksum ∨ Ipv4Hdr.hdrChecksum + 2 ≤ address) :
    countHop data' address = countHop data address := by
  by_cases isTtl : address = Ipv4Hdr.timeToLive
  · rw [isTtl, countHop_timeToLive, countHop_timeToLive, same _ (isTtl ▸ outside)]
  · rw [countHop_of_ne data' isTtl outside, countHop_of_ne data isTtl outside,
      same address outside]

/-- A byte that the checks of the generic path cannot have changed. -/
def KeptByte (pkt : RteMbuf) (address : Nat) : Prop :=
  ¬ (rteEthIsIpv4Hdr pkt.packetType = true ∧ Unchecked pkt.olFlags) ∨
    (address < Ipv4Hdr.hdrChecksum ∨ Ipv4Hdr.hdrChecksum + 2 ≤ address)

/-- The checks of the generic path do not change where a packet goes. -/
theorem lpmGetIpv4DstPort_valid (env : Env) (tables : LpmTables) (pkt : RteMbuf)
    (portid : BitVec 16) :
    lpmGetIpv4DstPort tables
        { pkt with data := (isValidIpv4Pkt env pkt.data pkt.pktLen pkt.olFlags).1 } portid =
      lpmGetIpv4DstPort tables pkt portid := by
  have sameAddr : RteMbuf.ipv4DstAddr
      { pkt with data := (isValidIpv4Pkt env pkt.data pkt.pktLen pkt.olFlags).1 } =
        pkt.ipv4DstAddr := by
    apply load_congr 4
    intro index _
    apply isValidIpv4Pkt_outside
    right
    simp only [Ipv4Hdr.hdrChecksum, Ipv4Hdr.dstAddr]
    omega
  rw [lpmGetIpv4DstPort, lpmGetIpv4DstPort, sameAddr]

theorem countHop_valid (env : Env) {pkt : RteMbuf} {address : Nat}
    (isIpv4 : rteEthIsIpv4Hdr pkt.packetType = true) (kept : KeptByte pkt address) :
    countHop (isValidIpv4Pkt env pkt.data pkt.pktLen pkt.olFlags).1 address =
      countHop pkt.data address := by
  rcases kept with checked | outside
  · have notUnchecked : ¬ (¬ pkt.pktLen.toNat < rteIpv4HdrLen ∧
        pkt.olFlags &&& rxIpCksumMask = rxIpCksumNone) :=
      fun both => checked ⟨isIpv4, both.2⟩
    rw [isValidIpv4Pkt_data, if_neg notUnchecked]
  · exact countHop_congr (fun other => isValidIpv4Pkt_outside env pkt.data pkt.pktLen pkt.olFlags)
      outside

/-- What the generic path sends, it sends to the port found or its fallback, with the
addresses of that port and otherwise as the vector path. -/
theorem lpmSimpleFate_some {env : Env} {tables : LpmTables} {pkt : RteMbuf}
    {portid : BitVec 16} {sent : RteMbuf × BitVec 16}
    (fate : lpmSimpleFate env tables pkt portid = some sent) :
    sent.2 = enabledPort env (lpmGetDstPort tables pkt portid) portid ∧
      ∃ data, sent.1.data = setEthAddrs env data sent.2 ∧
        ∀ address dp, KeptByte pkt address →
          data address = (rfc1812Process pkt.data dp pkt.packetType).1 address := by
  unfold lpmSimpleFate at fate
  by_cases isIpv4 : rteEthIsIpv4Hdr pkt.packetType = true
  · simp only [if_pos isIpv4, lpmGetIpv4DstPort_valid] at fate
    split at fate
    · cases fate
    · cases fate
      refine ⟨?_, _, rfl, ?_⟩
      · rw [lpmGetDstPort, if_pos isIpv4]
      · intro address dp kept
        rw [rfc1812Process_data, if_pos isIpv4]
        exact countHop_valid env isIpv4 kept
  · simp only [if_neg isIpv4] at fate
    split at fate
    · rename_i isIpv6
      cases fate
      refine ⟨?_, _, rfl, ?_⟩
      · rw [lpmGetDstPort, if_neg isIpv4, if_pos isIpv6]
      · intro address dp _
        rw [rfc1812Process_data, if_neg isIpv4]
    · cases fate

/-- The generic path drops what is neither IPv4 nor IPv6, and IPv4 packets that its
validator refuses. -/
theorem lpmSimpleFate_none_iff (env : Env) (tables : LpmTables) (pkt : RteMbuf)
    (portid : BitVec 16) :
    lpmSimpleFate env tables pkt portid = none ↔
      (rteEthIsIpv4Hdr pkt.packetType = true ∧
        (Malformed pkt.data ∨ pkt.pktLen.toNat < rteIpv4HdrLen ∨
          (Unchecked pkt.olFlags ∧ WrongChecksum env pkt.data))) ∨
      (rteEthIsIpv4Hdr pkt.packetType = false ∧ rteEthIsIpv6Hdr pkt.packetType = false) := by
  have refused := isValidIpv4Pkt_refused_iff env pkt.data pkt.pktLen pkt.olFlags
  unfold lpmSimpleFate
  by_cases isIpv4 : rteEthIsIpv4Hdr pkt.packetType = true
  · rw [← refused]
    simp [isIpv4]
  · by_cases isIpv6 : rteEthIsIpv6Hdr pkt.packetType = true
    · simp [isIpv4, isIpv6]
    · simp [isIpv4, isIpv6]

/-- The vector path drops IPv4 packets with a malformed header. -/
theorem vectorFate_none_iff (env : Env) (pkt : RteMbuf) {port : BitVec 16}
    (notBad : port ≠ badPort) :
    vectorFate env pkt port = none ↔
      rteEthIsIpv4Hdr pkt.packetType = true ∧ Malformed pkt.data := by
  rw [← rfc1812Bad_iff, vectorFate, Fate.ofPort, processPacket_port, RteMbuf.checkedPort]
  by_cases bad : pkt.Bad
  · simp only [if_pos bad, if_true, true_iff]
    exact bad
  · simp only [if_neg bad, if_neg notBad, reduceCtorEq, false_iff]
    exact bad

theorem vectorFate_some {env : Env} {pkt : RteMbuf} {port : BitVec 16}
    {sent : RteMbuf × BitVec 16} (fate : vectorFate env pkt port = some sent) :
    sent.2 = port ∧ sent.1 = (processPacket env pkt port).1 := by
  have notBad := Fate.ofPort_notBad fate
  have isSent := Fate.ofPort_eq_some fate
  rw [processPacket_port, RteMbuf.checkedPort] at notBad
  have passed : ¬ pkt.Bad := by
    intro bad
    exact notBad (if_pos bad)
  rw [← isSent]
  refine ⟨?_, rfl⟩
  rw [processPacket_port, RteMbuf.checkedPort, if_neg passed]

/-- The fates of one packet on the two paths: who drops it, and if neither does, to which
port and with which bytes it is sent. -/
structure FatesCompare (env : Env) (tables : LpmTables) (portid : BitVec 16) (pkt : RteMbuf) :
    Prop where
  vectorDrops : vectorFate env pkt (lpmGetDstPort tables pkt portid) = none ↔
    rteEthIsIpv4Hdr pkt.packetType = true ∧ Malformed pkt.data
  simpleDrops : lpmSimpleFate env tables pkt portid = none ↔
    (rteEthIsIpv4Hdr pkt.packetType = true ∧
      (Malformed pkt.data ∨ pkt.pktLen.toNat < rteIpv4HdrLen ∨
        (Unchecked pkt.olFlags ∧ WrongChecksum env pkt.data))) ∨
    (rteEthIsIpv4Hdr pkt.packetType = false ∧ rteEthIsIpv6Hdr pkt.packetType = false)
  port : ∀ simple vector, lpmSimpleFate env tables pkt portid = some simple →
    vectorFate env pkt (lpmGetDstPort tables pkt portid) = some vector →
    simple.2 = enabledPort env vector.2 portid
  bytes : ∀ simple vector, lpmSimpleFate env tables pkt portid = some simple →
    vectorFate env pkt (lpmGetDstPort tables pkt portid) = some vector →
    ∀ address, (address < 12 → simple.2 = vector.2) → KeptByte pkt address →
      simple.1.data address = vector.1.data address

theorem fatesCompare (env : Env) {addrs : EthAddrs} (agree : ∀ port, addrs.Agree port)
    {tables : LpmTables} (lawful : tables.Lawful) {portid : BitVec 16}
    (incoming : portid.toNat < rteMaxEthports) (pkt : RteMbuf) :
    FatesCompare (env.withAddrs addrs) tables portid pkt where
  vectorDrops := by
    apply vectorFate_none_iff
    have small := lpmGetDstPort_lt lawful.nextHop lawful.nextHop6 pkt (incoming.trans (by decide))
    intro bad
    rw [bad] at small
    exact absurd small (by decide)
  simpleDrops := lpmSimpleFate_none_iff _ tables pkt portid
  port := by
    intro simple vector simpleFate vectorFate
    rw [(lpmSimpleFate_some simpleFate).1, (vectorFate_some vectorFate).1]
  bytes := by
    intro simple vector simpleFate vectorFate address samePort kept
    rcases lpmSimpleFate_some simpleFate with ⟨_, data, simpleData, sameBytes⟩
    rcases vectorFate_some vectorFate with ⟨vectorPort, vectorPkt⟩
    have vectorAgree := agree (lpmGetDstPort tables pkt portid).toNat
    rw [simpleData, vectorPkt, processPacket_eq_setEthAddrs pkt vectorAgree]
    rcases Nat.lt_or_ge address 12 with front | behind
    · rw [samePort front, vectorPort]
      exact setEthAddrs_congr_port _ front
    · rw [setEthAddrs_outside _ _ _ behind, setEthAddrs_outside _ _ _ behind]
      exact sameBytes address _ kept

/-- Both paths give every packet of a burst the fate that it has by itself, and the fates
compare: the vector path drops malformed IPv4 packets, the generic path besides these
what is not IP, what is too short and what has a wrong checksum. What both send goes to
the same port, if that is enabled, and with the same bytes, except for a checksum that the
device did not check. -/
theorem lpmPaths_compare (eal : Eal) (params : List LcoreParams) (mask : BitVec 32)
    (options : List EthDest) (addrs : EthAddrs) (setup : SetupState)
    (parsed : parseEthDests options = some addrs)
    (setUp : l3fwdPollResourceSetup eal params mask addrs = some setup)
    (env₀ : Env) (tables : LpmTables) (lawful : tables.Lawful) (state : LcoreState) (nbRx : Nat)
    (pktsBurst : Nat → MbufPtr) (portid : BitVec 16) (incoming : portid.toNat < rteMaxEthports)
    (positive : 0 < nbRx) (inside : nbRx ≤ maxPktBurst) (distinct : Distinct pktsBurst 0 nbRx) :
    let env := env₀.withAddrs setup.addrs
    l3fwdLpmNoOptSendPackets env tables state nbRx pktsBurst portid =
      (List.range nbRx).foldlM (lpmDispose env tables state.mbufs pktsBurst portid)
        (state, ⟨0, 0⟩) ∧
    (∃ (mbufs : MbufHeap) (port : Nat → BitVec 16) (groups : List Dispatch),
      l3fwdLpmSendPackets env tables state nbRx pktsBurst portid =
        groups.foldlM (Dispatch.exec env pktsBurst) ({ state with mbufs := mbufs }, ⟨0, 0⟩) ∧
      groups.flatMap Dispatch.packets = (List.range nbRx).map (fun i => (i, port i)) ∧
      ∀ i, i < nbRx → Fate.ofPort (mbufs (pktsBurst i), port i) =
        vectorFate env (state.mbufs (pktsBurst i))
          (lpmGetDstPort tables (state.mbufs (pktsBurst i)) portid)) ∧
    ∀ i, i < nbRx → FatesCompare env tables portid (state.mbufs (pktsBurst i)) := by
  intro env
  refine ⟨?_, ?_, ?_⟩
  · exact l3fwdLpmNoOptSendPackets_eq env tables state portid distinct
  · exact l3fwdLpmSendPackets_eq env lawful state incoming positive inside distinct
  · intro i _
    exact fatesCompare env₀ (EthAddrs.setup_agree parsed setUp) lawful incoming _

theorem lpmPaths_compare_one :
    ∃ addrs setup, parseEthDests [⟨1#16, 0x010203040506#48⟩, ⟨1#16, 0x0a0b0c0d0e0f#48⟩] =
        some addrs ∧
      l3fwdPollResourceSetup twoPortEal threeQueues 0x3#32 addrs = some setup ∧
      let env := { (default : Env) with enabledPortMask := 0x83#32 }.withAddrs setup.addrs
      let tables := singleRouteTables 0x0a010000#32
      (∃ simple vector, lpmSimpleFate env tables routedPacket 1#16 = some simple ∧
        vectorFate env routedPacket (lpmGetDstPort tables routedPacket 1#16) = some vector ∧
        simple.2 = 7#16 ∧ vector.2 = 7#16) ∧
      FatesCompare env tables 1#16 routedPacket := by
  rcases setUp_twoDests with ⟨addrs, setup, parsed, setUp⟩
  refine ⟨addrs, setup, parsed, setUp, ?_⟩
  intro env tables
  have compared : FatesCompare env tables 1#16 routedPacket :=
    (lpmPaths_compare twoPortEal threeQueues 0x3#32 _ addrs setup parsed setUp
      { (default : Env) with enabledPortMask := 0x83#32 } tables (singleRouteTables_lawful _)
      { (default : LcoreState) with mbufs := fun _ => routedPacket } 2 id 1#16
      (by decide) (by decide) (by decide) (fun _ _ _ _ _ _ same => same)).2.2 0 (by decide)
  have isIpv4 : rteEthIsIpv4Hdr routedPacket.packetType = true := by decide
  have wellFormed : ¬ Malformed routedPacket.data := by decide
  have long : ¬ routedPacket.pktLen.toNat < rteIpv4HdrLen := by decide
  have checked : ¬ Unchecked routedPacket.olFlags := by decide
  have bySimple : lpmSimpleFate env tables routedPacket 1#16 ≠ none := by
    intro dropped
    rcases compared.simpleDrops.mp dropped with ⟨_, malformed | short | wrong⟩ | ⟨notIpv4, _⟩
    · exact wellFormed malformed
    · exact long short
    · exact checked wrong.1
    · rw [isIpv4] at notIpv4
      cases notIpv4
  have byVector : vectorFate env routedPacket (lpmGetDstPort tables routedPacket 1#16) ≠ none :=
    fun dropped => wellFormed (compared.vectorDrops.mp dropped).2
  rcases Option.ne_none_iff_exists'.mp bySimple with ⟨simple, isSimple⟩
  rcases Option.ne_none_iff_exists'.mp byVector with ⟨vector, isVector⟩
  have toSeven : vector.2 = 7#16 :=
    (vectorFate_some isVector).1.trans (by decide +kernel)
  refine ⟨⟨simple, vector, isSimple, isVector, ?_, toSeven⟩, compared⟩
  have enabled : ¬ (rteMaxEthports ≤ (7#16).toNat ∨ (0x83#32).getLsbD (7#16).toNat = false) := by
    decide
  rw [compared.port _ _ isSimple isVector, toSeven]
  exact if_neg enabled

/-- A packet that is neither IPv4 nor IPv6 is freed on the generic path, and waits to be
sent back on the vector path. -/
theorem lpmPaths_differ :
    let env := { (default : Env) with rxBurstSize := 4, txBurstSize := 4 }
    (l3fwdLpmNoOptSendPackets env (singleRouteTables 0#32) default 1 id 1#16).map
        (fun result => (result.1.freed, result.1.txLen 1)) = .ok ([0], 0) ∧
      (l3fwdLpmSendPackets env (singleRouteTables 0#32) default 1 id 1#16).map
        (fun result => (result.1.freed, result.1.txLen 1)) = .ok ([], 1) := by
  decide +kernel

end PacketForwarding.L3fwd
