import PacketForwarding.L3fwd.AclSend
import PacketForwarding.L3fwd.Checksum
import PacketForwarding.L3fwd.EthRewrite
import PacketForwarding.L3fwd.EventBurst

/-! # What becomes of one packet

Every path either drops a packet or sends it to a port. The paths differ in how they
check a packet, but all of those that send an IPv4 packet count the hop, and none of them
looks at the time to live before it does so.
-/

namespace PacketForwarding.L3fwd

open Lanes Cells

/-! ## Sent or dropped -/

/-- The packet as it is sent and its port, if it is not dropped. -/
abbrev Fate := Option (RteMbuf × BitVec 16)

/-- A packet with a bad port is dropped. -/
def Fate.ofPort (result : RteMbuf × BitVec 16) : Fate :=
  if result.2 = badPort then none else some result

/-- `process_packet`, when the looked-up port is known. -/
def vectorFate (env : Env) (pkt : RteMbuf) (dstPort : BitVec 16) : Fate :=
  .ofPort (processPacket env pkt dstPort)

/-- One round of `fib_send_single`, up to the sending, or what the vector code does to one
of its packets. -/
def fibFate (build : Build) (env : Env) (pkt : RteMbuf) (hop : BitVec 16) : Fate :=
  .ofPort (fibProcessPacket build env pkt hop)

/-- One round of `send_packets_single`, up to the sending. -/
def aclFate (env : Env) (pkt : RteMbuf) (hop : BitVec 16) : Fate :=
  let (data, hop) := rfc1812Process pkt.data hop pkt.packetType
  .ofPort ({ pkt with data := setEthAddrs env data hop }, hop)

/-- `l3fwd_lpm_simple_forward`, up to the sending. -/
def lpmSimpleFate (env : Env) (tables : LpmTables) (pkt : RteMbuf) (portid : BitVec 16) : Fate :=
  if rteEthIsIpv4Hdr pkt.packetType then
    let (data, valid) := isValidIpv4Pkt env pkt.data pkt.pktLen pkt.olFlags
    let pkt := { pkt with data := data }
    if valid < 0 then
      none
    else
      let dstPort := enabledPort env (lpmGetIpv4DstPort tables pkt portid) portid
      some ({ pkt with data := setEthAddrs env (countHop pkt.data) dstPort }, dstPort)
  else if rteEthIsIpv6Hdr pkt.packetType then
    let dstPort := enabledPort env (lpmGetIpv6DstPort tables pkt portid) portid
    some ({ pkt with data := setEthAddrs env pkt.data dstPort }, dstPort)
  else
    none

/-- What a worker does to the packet of an event, up to the enqueueing. -/
def eventFate (process : RteMbuf → RteMbuf) (pkt : RteMbuf) : Fate :=
  .ofPort (process pkt, (process pkt).port)

/-- `l3fwd_em_simple_forward`, up to the sending. -/
def emSimpleFate (env : Env) (tables : EmTables) (pkt : RteMbuf) (portid : BitVec 16) : Fate :=
  let sent (result : Handled) : Fate :=
    if result.freed then none else some (result.pkt, result.dstPort)
  if IsEmIpv4 pkt then sent (l3fwdEmHandleIpv4 env tables pkt portid)
  else if IsEmIpv6 pkt then sent (l3fwdEmHandleIpv6 env tables pkt portid)
  else none

/-! ## The functions that send -/

/-- One round of `fib_send_single`. -/
def fibSendSingle (env : Env) (pkts : Nat → MbufPtr)
    (result : LcoreState × (Nat → BitVec 16)) (j : Nat) :
    Except Fault (LcoreState × (Nat → BitVec 16)) := do
  let (state, hops) := result
  let (pkt, hop) := fibProcessPacket .generic env (state.mbufs (pkts j)) (hops j)
  let state := state.setMbuf (pkts j) pkt
  let hops := Function.update hops j hop
  if hop = badPort then
    .ok (state.rtePktmbufFree (pkts j), hops)
  else
    let (state, _) ← sendSinglePacket env state (pkts j) hop
    .ok (state, hops)

/-- The packet is sent as its fate says. -/
theorem fibSendSingle_sends {env : Env} {pkts : Nat → MbufPtr} {state : LcoreState}
    {hops : Nat → BitVec 16} {j : Nat} {sent : RteMbuf × BitVec 16}
    (fate : fibFate .generic env (state.mbufs (pkts j)) (hops j) = some sent) :
    fibSendSingle env pkts (state, hops) j =
      (sendSinglePacket env (state.setMbuf (pkts j) sent.1) (pkts j) sent.2).map
        fun result => (result.1, Function.update hops j sent.2) := by
  unfold fibFate Fate.ofPort at fate
  split at fate
  · cases fate
  · rename_i notBad
    cases fate
    simp only [fibSendSingle, if_neg notBad]
    rfl

theorem sendPacketSingle_sends {env : Env} {pkts : Nat → MbufPtr} {state : LcoreState}
    {hops : Nat → BitVec 16} {j : Nat} {sent : RteMbuf × BitVec 16}
    (fate : aclFate env (state.mbufs (pkts j)) (hops j) = some sent) :
    sendPacketSingle env pkts (state, hops) j =
      (sendSinglePacket env (state.setMbuf (pkts j) sent.1) (pkts j) sent.2).map
        fun result => (result.1, Function.update hops j sent.2) := by
  unfold aclFate Fate.ofPort at fate
  dsimp only at fate
  split at fate
  · cases fate
  · rename_i notBad
    cases fate
    simp only [sendPacketSingle, ne_eq, notBad, not_false_eq_true, if_true]
    rfl

/-- The worker hands the packet over as its fate says. -/
theorem take_sends {worker : EventWorker} (loop : EventLoop) (ev : RteEvent) {pkt : RteMbuf}
    {sent : RteMbuf × BitVec 16} (fate : eventFate worker.process pkt = some sent) :
    (loop.take worker ev pkt).pc = .enqueue ∧
      ((loop.take worker ev pkt).mbufs ev.mbuf).data = sent.1.data := by
  unfold eventFate Fate.ofPort at fate
  split at fate
  · cases fate
  · rename_i notBad
    cases fate
    cases mode : worker.txMode with
    | enq txQId => simp [EventLoop.take, notBad, mode]
    | direct => simp [EventLoop.take, notBad, mode]

/-- Enqueue a packet and count what a flush sends and drops. -/
def sendCounted (env : Env) (state : LcoreState) (m : MbufPtr) (dstPort : BitVec 16) :
    Except Fault (LcoreState × TxStats) := do
  let table ← state.txTable dstPort
  let (state, sent) ← sendSinglePacket env state m dstPort
  .ok (state, ⟨sent, if table.len + 1 = env.rxBurstSize then env.rxBurstSize - sent else 0⟩)

theorem setMbuf_setMbuf (state : LcoreState) (m : MbufPtr) (first second : RteMbuf) :
    (state.setMbuf m first).setMbuf m second = state.setMbuf m second := by
  simp [LcoreState.setMbuf]

theorem setMbuf_mbufs (state : LcoreState) (m : MbufPtr) (pkt : RteMbuf) :
    (state.setMbuf m pkt).mbufs m = pkt := by
  simp [LcoreState.setMbuf]

theorem l3fwdLpmSimpleForward_sends {env : Env} {tables : LpmTables} {state : LcoreState}
    {m : MbufPtr} {portid : BitVec 16} {sent : RteMbuf × BitVec 16}
    (fate : lpmSimpleFate env tables (state.mbufs m) portid = some sent) :
    l3fwdLpmSimpleForward env tables state m portid =
      sendCounted env (state.setMbuf m sent.1) m sent.2 := by
  unfold lpmSimpleFate at fate
  unfold l3fwdLpmSimpleForward
  dsimp only at fate ⊢
  split
  · rename_i isIpv4
    rw [if_pos isIpv4] at fate
    split at fate
    · cases fate
    · rename_i valid
      cases fate
      rw [if_neg valid]
      simp only [forwardTo, setMbuf_mbufs, setMbuf_setMbuf]
      rfl
  · rename_i notIpv4
    rw [if_neg notIpv4] at fate
    split
    · rename_i isIpv6
      rw [if_pos isIpv6] at fate
      cases fate
      rfl
    · rename_i notIpv6
      rw [if_neg notIpv6] at fate
      cases fate

/-- What the generic path leaves in an mbuf that it frees. -/
def lpmLeft (env : Env) (pkt : RteMbuf) : RteMbuf :=
  if rteEthIsIpv4Hdr pkt.packetType then
    { pkt with data := (isValidIpv4Pkt env pkt.data pkt.pktLen pkt.olFlags).1 }
  else
    pkt

theorem l3fwdLpmSimpleForward_drops {env : Env} {tables : LpmTables} {state : LcoreState}
    {m : MbufPtr} {portid : BitVec 16}
    (fate : lpmSimpleFate env tables (state.mbufs m) portid = none) :
    l3fwdLpmSimpleForward env tables state m portid =
      .ok ((state.setMbuf m (lpmLeft env (state.mbufs m))).rtePktmbufFree m, ⟨0, 1⟩) := by
  unfold lpmSimpleFate at fate
  unfold l3fwdLpmSimpleForward lpmLeft
  dsimp only at fate ⊢
  split
  · rename_i isIpv4
    rw [if_pos isIpv4] at fate
    split at fate
    · rename_i refused
      rw [if_pos refused]
    · cases fate
  · rename_i notIpv4
    rw [if_neg notIpv4] at fate
    split
    · rename_i isIpv6
      rw [if_pos isIpv6] at fate
      cases fate
    · simp [LcoreState.setMbuf]

theorem l3fwdEmSimpleForward_sends {env : Env} {tables : EmTables} {state : LcoreState}
    {m : MbufPtr} {portid : BitVec 16} {sent : RteMbuf × BitVec 16}
    (fate : emSimpleFate env tables (state.mbufs m) portid = some sent) :
    l3fwdEmSimpleForward env tables state m portid =
      (sendSinglePacket env (state.setMbuf m sent.1) m sent.2).map Prod.fst := by
  have handled : ∀ {result : Handled},
      (if result.freed then none else some (result.pkt, result.dstPort)) = some sent →
        (do
          let (state, _) ← sendSinglePacket env (state.handled m result) m result.dstPort
          .ok state : Except Fault LcoreState) =
          (sendSinglePacket env (state.setMbuf m sent.1) m sent.2).map Prod.fst := by
    intro result kept
    cases freed : result.freed with
    | true => simp [freed] at kept
    | false =>
        simp only [freed] at kept
        cases kept
        simp only [LcoreState.handled, freed]
        rfl
  unfold emSimpleFate at fate
  unfold l3fwdEmSimpleForward
  dsimp only at fate ⊢
  split
  · rename_i isIpv4
    rw [if_pos isIpv4] at fate
    exact handled fate
  · rename_i notIpv4
    rw [if_neg notIpv4] at fate
    split
    · rename_i isIpv6
      rw [if_pos isIpv6] at fate
      exact handled fate
    · rename_i notIpv6
      rw [if_neg notIpv6] at fate
      cases fate

/-! ## The time to live -/

/-- The paths on which packets are forwarded. -/
inductive Forwarder
  | vector
  | fib (build : Build)
  | acl
  | lpmEvent (build : Build) (tables : LpmTables) (txMode : TxMode)
  | emEvent (build : Build) (tables : EmTables) (txMode : TxMode)
  | lpm (tables : LpmTables)
  | em (tables : EmTables)

/-- What becomes of a packet, given the looked-up port or, on the paths that look it up
themselves, the incoming port. The packet of an event comes with its port. -/
def Forwarder.fate (env : Env) (pkt : RteMbuf) (port : BitVec 16) : Forwarder → Fate
  | vector => vectorFate env pkt port
  | fib build => fibFate build env pkt port
  | acl => aclFate env pkt port
  | lpmEvent build tables txMode => eventFate (lpmEventWorker build env tables txMode).process pkt
  | emEvent build tables txMode => eventFate (emEventWorker build env tables txMode).process pkt
  | lpm tables => lpmSimpleFate env tables pkt port
  | em tables => emSimpleFate env tables pkt port

/-- The time to live of the packet that is sent. -/
abbrev RteMbuf.timeToLive (pkt : RteMbuf) : BitVec 8 :=
  pkt.data Ipv4Hdr.timeToLive

theorem Fate.ofPort_eq_some {result sent : RteMbuf × BitVec 16}
    (fate : Fate.ofPort result = some sent) : result = sent := by
  unfold Fate.ofPort at fate
  split at fate
  · cases fate
  · exact Option.some.inj fate

theorem Fate.ofPort_notBad {result sent : RteMbuf × BitVec 16}
    (fate : Fate.ofPort result = some sent) : result.2 ≠ badPort := by
  intro bad
  rw [Fate.ofPort, if_pos bad] at fate
  cases fate

theorem rfc1812Process_timeToLive (pkt : RteMbuf) (isIpv4 : rteEthIsIpv4Hdr pkt.packetType = true)
    (dp : BitVec 16) :
    (rfc1812Process pkt.data dp pkt.packetType).1 Ipv4Hdr.timeToLive = pkt.timeToLive - 1 := by
  rw [rfc1812Process_data, if_pos isIpv4, countHop_timeToLive]

theorem setEthAddrs_timeToLive (env : Env) (data : Nat → BitVec 8) (port : BitVec 16) :
    setEthAddrs env data port Ipv4Hdr.timeToLive = data Ipv4Hdr.timeToLive :=
  setEthAddrs_outside env data port (by decide)

/-- The checksum is computed for packets that the device did not check, and then the field
is left at zero. -/
theorem isValidIpv4Pkt_data (env : Env) (data : Nat → BitVec 8) (linkLen : BitVec 32)
    (olFlags : BitVec 64) :
    (isValidIpv4Pkt env data linkLen olFlags).1 =
      if ¬ linkLen.toNat < rteIpv4HdrLen ∧ olFlags &&& rxIpCksumMask = rxIpCksumNone then
        store16 data Ipv4Hdr.hdrChecksum 0
      else data := by
  by_cases short : linkLen.toNat < rteIpv4HdrLen
  · simp [isValidIpv4Pkt, short]
  · by_cases unchecked : olFlags &&& rxIpCksumMask = rxIpCksumNone
    · simp only [isValidIpv4Pkt, short, unchecked, if_false, if_true, not_false_eq_true, and_self]
      split_ifs <;> rfl
    · simp only [isValidIpv4Pkt, short, unchecked, if_false, and_false, false_and]
      split_ifs <;> rfl

/-- The checks of the generic paths change nothing but the checksum field. -/
theorem isValidIpv4Pkt_outside (env : Env) (data : Nat → BitVec 8) (linkLen : BitVec 32)
    (olFlags : BitVec 64) {address : Nat}
    (outside : address < Ipv4Hdr.hdrChecksum ∨ Ipv4Hdr.hdrChecksum + 2 ≤ address) :
    (isValidIpv4Pkt env data linkLen olFlags).1 address = data address := by
  rw [isValidIpv4Pkt_data]
  split
  · exact store_of_outside 2 data _ _ _ outside
  · rfl

theorem not_isEmIpv6 {pkt : RteMbuf} (isIpv4 : rteEthIsIpv4Hdr pkt.packetType = true) :
    ¬ IsEmIpv6 pkt := by
  intro isIpv6
  have bit : pkt.packetType &&& rtePtypeL3Ipv4 = l3Type pkt.packetType &&& rtePtypeL3Ipv4 := by
    rw [l3Type, BitVec.and_assoc]
    rfl
  rw [rteEthIsIpv4Hdr, bit, isIpv6.2] at isIpv4
  exact absurd isIpv4 (by decide)

theorem countHop_valid_timeToLive (env : Env) (pkt : RteMbuf) (port : BitVec 16) :
    setEthAddrs env (countHop (isValidIpv4Pkt env pkt.data pkt.pktLen pkt.olFlags).1) port
      Ipv4Hdr.timeToLive = pkt.timeToLive - 1 := by
  have outside : Ipv4Hdr.timeToLive < Ipv4Hdr.hdrChecksum := by decide
  rw [setEthAddrs_timeToLive, countHop_timeToLive, isValidIpv4Pkt_outside _ _ _ _ (Or.inl outside)]

theorem processPacket_timeToLive (env : Env) (pkt : RteMbuf)
    (isIpv4 : rteEthIsIpv4Hdr pkt.packetType = true) (port : BitVec 16) :
    (processPacket env pkt port).1.timeToLive = pkt.timeToLive - 1 := by
  rw [RteMbuf.timeToLive, processPacket_data, if_neg (by decide)]
  exact rfc1812Process_timeToLive pkt isIpv4 port

theorem fibFate_timeToLive {build : Build} {env : Env} {pkt : RteMbuf} {hop : BitVec 16}
    {sent : RteMbuf × BitVec 16} (isIpv4 : rteEthIsIpv4Hdr pkt.packetType = true)
    (fate : fibFate build env pkt hop = some sent) : sent.1.timeToLive = pkt.timeToLive - 1 := by
  rw [← Fate.ofPort_eq_some fate]
  cases build with
  | simd => exact processPacket_timeToLive env pkt isIpv4 hop
  | generic =>
      rw [← rfc1812Process_timeToLive pkt isIpv4 hop]
      exact setEthAddrs_timeToLive env _ (rfc1812Process pkt.data hop pkt.packetType).2

theorem lpmProcessEventPkt_timeToLive (build : Build) (env : Env) (tables : LpmTables)
    {pkt : RteMbuf} (isIpv4 : rteEthIsIpv4Hdr pkt.packetType = true) :
    (lpmProcessEventPkt build env tables pkt).timeToLive = pkt.timeToLive - 1 := by
  let port := lpmGetDstPort tables pkt pkt.port
  cases build with
  | simd => exact processPacket_timeToLive env { pkt with port := port } isIpv4 port
  | generic =>
      let addressed := { pkt with data := setEthAddrs env pkt.data port }
      have sameTtl : addressed.timeToLive = pkt.timeToLive :=
        setEthAddrs_timeToLive env pkt.data port
      rw [← sameTtl]
      exact rfc1812Process_timeToLive addressed isIpv4 port

theorem l3fwdEmHandleIpv4_timeToLive (env : Env) (tables : EmTables) (pkt : RteMbuf)
    (portid : BitVec 16) (kept : (l3fwdEmHandleIpv4 env tables pkt portid).freed = false) :
    (l3fwdEmHandleIpv4 env tables pkt portid).pkt.timeToLive = pkt.timeToLive - 1 := by
  unfold l3fwdEmHandleIpv4 at kept ⊢
  dsimp only at kept ⊢
  by_cases refused : (isValidIpv4Pkt env pkt.data pkt.pktLen pkt.olFlags).2 < 0
  · simp [refused] at kept
  · simp only [refused, if_false]
    dsimp only [RteMbuf.timeToLive]
    exact countHop_valid_timeToLive env pkt _

theorem l3fwdEmHandleIpv4_kept {env : Env} {tables : EmTables} {pkt : RteMbuf}
    {portid : BitVec 16} (notBad : (l3fwdEmHandleIpv4 env tables pkt portid).dstPort ≠ badPort) :
    (l3fwdEmHandleIpv4 env tables pkt portid).freed = false := by
  unfold l3fwdEmHandleIpv4 at notBad ⊢
  dsimp only at notBad ⊢
  split
  · rename_i refused
    exact absurd (by rw [if_pos refused]) notBad
  · rfl

theorem l3fwdEmSimpleProcess_timeToLive (env : Env) (tables : EmTables) {pkt : RteMbuf}
    (isIpv4 : rteEthIsIpv4Hdr pkt.packetType = true)
    (notBad : (l3fwdEmSimpleProcess env tables pkt).pkt.port ≠ badPort) :
    (l3fwdEmSimpleProcess env tables pkt).pkt.timeToLive = pkt.timeToLive - 1 := by
  unfold l3fwdEmSimpleProcess at notBad ⊢
  rw [if_neg (not_isEmIpv6 isIpv4)] at notBad ⊢
  split
  · rename_i isEmIpv4
    rw [if_pos isEmIpv4] at notBad
    have kept := l3fwdEmHandleIpv4_kept notBad
    exact l3fwdEmHandleIpv4_timeToLive env tables pkt pkt.port kept
  · rename_i notEmIpv4
    rw [if_neg notEmIpv4] at notBad
    exact absurd rfl notBad

/-- Every path that sends an IPv4 packet has subtracted one from its time to live. -/
theorem Forwarder.fate_timeToLive {forwarder : Forwarder} {env : Env} {pkt : RteMbuf}
    {port : BitVec 16} {sent : RteMbuf × BitVec 16}
    (isIpv4 : rteEthIsIpv4Hdr pkt.packetType = true)
    (fate : forwarder.fate env pkt port = some sent) :
    sent.1.timeToLive = pkt.timeToLive - 1 := by
  unfold Forwarder.fate at fate
  cases forwarder with
  | vector =>
      rw [← Fate.ofPort_eq_some fate]
      exact processPacket_timeToLive env pkt isIpv4 port
  | fib build => exact fibFate_timeToLive isIpv4 fate
  | acl => exact @fibFate_timeToLive .generic env pkt port sent isIpv4 fate
  | lpmEvent build tables txMode =>
      rw [← Fate.ofPort_eq_some fate]
      exact lpmProcessEventPkt_timeToLive build env tables isIpv4
  | emEvent build tables txMode =>
      have sentOn := Fate.ofPort_eq_some fate
      cases build with
      | simd =>
          rw [← sentOn]
          exact processPacket_timeToLive env { pkt with port := _ } isIpv4 _
      | generic =>
          have notBad : (l3fwdEmSimpleProcess env tables pkt).pkt.port ≠ badPort :=
            Fate.ofPort_notBad fate
          rw [← sentOn]
          exact l3fwdEmSimpleProcess_timeToLive env tables isIpv4 notBad
  | lpm tables =>
      simp only [lpmSimpleFate, if_pos isIpv4] at fate
      split at fate
      · cases fate
      · cases fate
        dsimp only [RteMbuf.timeToLive]
        exact countHop_valid_timeToLive env pkt _
  | em tables =>
      simp only [emSimpleFate, if_neg (not_isEmIpv6 isIpv4)] at fate
      split at fate
      · cases freed : (l3fwdEmHandleIpv4 env tables pkt port).freed with
        | true => simp [freed] at fate
        | false =>
            simp only [freed] at fate
            cases fate
            exact l3fwdEmHandleIpv4_timeToLive env tables pkt port freed
      · cases fate

/-! ## Runs through forwarders -/

/-- An IPv4 packet passes a forwarder: how it is received and how it is sent. -/
structure Pass where
  forwarder : Forwarder
  env : Env
  port : BitVec 16
  received : RteMbuf
  sent : RteMbuf × BitVec 16
  isIpv4 : rteEthIsIpv4Hdr received.packetType = true
  forwards : forwarder.fate env received port = some sent

namespace Pass

/-- The packet comes back with the IP header with which it was sent, by any device and
with any Ethernet header. -/
def Follows (first second : Pass) : Prop :=
  ∀ address, rteEtherHdrLen ≤ address → second.received.data address = first.sent.1.data address

/-- The time to live has become smaller by one. -/
def Counts (pass : Pass) : Prop :=
  pass.sent.1.timeToLive.toNat + 1 = pass.received.timeToLive.toNat

theorem counts_iff (pass : Pass) : pass.Counts ↔ pass.received.timeToLive ≠ 0#8 := by
  have sent := Forwarder.fate_timeToLive pass.isIpv4 pass.forwards
  rw [Counts, sent]
  constructor
  · intro counts isZero
    rw [isZero] at counts
    exact absurd counts (by decide)
  · intro alive
    have positive : 1 ≤ pass.received.timeToLive.toNat := by
      refine Nat.one_le_iff_ne_zero.mpr fun isZero => alive ?_
      exact BitVec.eq_of_toNat_eq isZero
    have decremented : (pass.received.timeToLive - 1).toNat =
        pass.received.timeToLive.toNat - 1 := BitVec.toNat_sub_of_le positive
    rw [decremented]
    exact Nat.sub_add_cancel positive

theorem Follows.timeToLive {first second : Pass} (follows : first.Follows second) :
    second.received.timeToLive = first.sent.1.timeToLive :=
  follows Ipv4Hdr.timeToLive (by decide)

/-- What the first pass receives is enough for all of them. -/
theorem length_le : ∀ (pass : Pass) (rest : List Pass), (pass :: rest).IsChain Follows →
    (∀ other ∈ pass :: rest, other.Counts) →
    (pass :: rest).length ≤ pass.received.timeToLive.toNat := by
  intro pass rest
  induction rest generalizing pass with
  | nil =>
      intro _ counts
      have counted := counts pass List.mem_cons_self
      exact Nat.le.intro ((Nat.add_comm _ _).trans counted)
  | cons next rest induction =>
      intro chain counts
      rcases List.isChain_cons_cons.mp chain with ⟨follows, restChain⟩
      have counted : pass.Counts := counts pass List.mem_cons_self
      have restLe := induction next restChain fun other member =>
        counts other (List.mem_cons_of_mem pass member)
      rw [follows.timeToLive] at restLe
      rw [List.length_cons, ← counted]
      exact Nat.succ_le_succ restLe

end Pass

/-- In a run through forwarders the time to live becomes smaller at every pass, and the
run has at most 255 passes, if and only if it is never zero at the entrance. -/
theorem passes_count_iff (passes : List Pass) (run : passes.IsChain Pass.Follows) :
    ((∀ pass ∈ passes, pass.sent.1.timeToLive.toNat + 1 = pass.received.timeToLive.toNat) ∧
      passes.length ≤ 255) ↔
      ∀ pass ∈ passes, pass.received.timeToLive ≠ 0#8 := by
  constructor
  · intro counts pass member
    exact pass.counts_iff.mp (counts.1 pass member)
  · intro alive
    have counts : ∀ pass ∈ passes, pass.Counts := fun pass member =>
      pass.counts_iff.mpr (alive pass member)
    refine ⟨counts, ?_⟩
    cases passes with
    | nil => exact Nat.zero_le _
    | cons pass rest =>
        have bound := Pass.length_le pass rest run counts
        exact bound.trans (Nat.le_of_lt_succ pass.received.timeToLive.isLt)

/-- A packet with a header of the right form, type and time to live. -/
def plainIpv4 (ttl : BitVec 8) : RteMbuf :=
  { (default : RteMbuf) with
    packetType := 0x10#32
    data := fun address =>
      if address = Ipv4Hdr.versionIhl then 0x45#8
      else if address = Ipv4Hdr.totalLength + 1 then 20#8
      else if address = Ipv4Hdr.timeToLive then ttl
      else 0#8 }

theorem vectorFate_plainIpv4 (ttl : BitVec 8) :
    vectorFate default (plainIpv4 ttl) 1#16 =
      some (processPacket default (plainIpv4 ttl) 1#16) := by
  have passed : ¬ (plainIpv4 ttl).Bad := by
    have sample : ¬ (plainIpv4 0#8).Bad := by decide +kernel
    exact sample
  have notBad : (processPacket default (plainIpv4 ttl) 1#16).2 ≠ badPort := by
    rw [processPacket_port, RteMbuf.checkedPort, if_neg passed]
    decide
  exact if_neg notBad

/-- One pass through the vector code. -/
def vectorPass (ttl : BitVec 8) : Pass where
  forwarder := .vector
  env := default
  port := 1#16
  received := plainIpv4 ttl
  sent := processPacket default (plainIpv4 ttl) 1#16
  isIpv4 := by
    have isIpv4 : rteEthIsIpv4Hdr 0x10#32 = true := by decide
    exact isIpv4
  forwards := vectorFate_plainIpv4 ttl

theorem passes_count_iff_once : [vectorPass 64#8].length ≤ 255 :=
  ((passes_count_iff [vectorPass 64#8] (List.isChain_singleton _)).mpr fun pass member => by
    rw [List.mem_singleton.mp member]
    decide).2

/-- A packet without time to live is sent with the longest there is. -/
theorem passes_wrap :
    (vectorPass 0#8).received.timeToLive = 0#8 ∧ (vectorPass 0#8).sent.1.timeToLive = 255#8 := by
  decide +kernel

end PacketForwarding.L3fwd
