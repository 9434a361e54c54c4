import PacketForwarding.L3fwd.AclPrecedence
import PacketForwarding.L3fwd.LpmLoop
import PacketForwarding.L3fwd.PollLoop

/-! # The polling loop of a lcore with access control lists

The loop reads the clock at the beginning of an iteration, and its first drain is due as soon
as the clock has counted for long enough. With vector instructions it sends in groups or one by
one, depending on whether packets are denied, and the two ways to send go together only if
both flush a buffer when it is full.
-/

namespace PacketForwarding.L3fwd

/-- Classify the packets of a burst and send those that are not dropped. -/
def aclSendBurst (build : Build) (env : Env) (tables : AclTables) (aclSearch : AclSearch) :
    BurstSender :=
  fun state nbRx pktsBurst _ =>
    let (hops, nbDrop) := aclProcessPkts tables state.mbufs pktsBurst env.stack nbRx aclSearch
    match build with
    | .simd => aclSendPackets env state pktsBurst hops nbRx nbDrop
    | .generic => sendPacketsSingle env state pktsBurst hops nbRx

/-- `acl_main_loop`, with the clock as each iteration reads it and what it then receives. -/
def aclMainLoop (build : Build) (env : Env) (tables : AclTables) (aclSearch : AclSearch)
    (tscHz : BitVec 64) (state : LcoreState) (heads : List PollHead) : Except Fault Poll :=
  let poll : Poll := ⟨state, 0⟩
  if state.qconf.rxQueueList = [] then
    .ok poll
  else
    pollAll env (aclSendBurst build env tables aclSearch) (drainTsc tscHz) heads poll

/-- A packet is sent to the port of the route that it meets first, if it meets no denial
before. -/
def aclDstPort (env : Env) (tables : AclTables) : BurstPorts :=
  fun burst _ i => (aclFate env (burst.packet i) (aclHop tables (burst.packet i))).port

/-- Bursts that go together: with vector instructions and a receive burst that is shorter than
a buffer, none of the packets may be denied. What is sent one by one is in different mbufs. -/
def AclFine (build : Build) (env : Env) (tables : AclTables) (burst : RxBurst) : Prop :=
  match build with
  | .simd => (env.rxBurstSize = maxPktBurst ∧ burst.Distinct) ∨
      ∀ mbufs, AclStep.AllForwarded tables (burst.fill mbufs) burst
  | .generic => burst.Distinct

section

variable {allowed : BitVec 16 → Prop} (exist : ∀ port, allowed port → port.toNat < rteMaxEthports)

include exist

theorem sendPacketSingle_relayed {env : Env}
    (burst : 0 < env.rxBurstSize ∧ env.rxBurstSize ≤ maxPktBurst) (pkts : Nat → MbufPtr)
    (result : LcoreState × (Nat → BitVec 16)) (j : Nat) (below : result.1.Below env.rxBurstSize)
    (toPort : result.2 j = badPort ∨ allowed (result.2 j)) :
    Outcome (fun next => Relayed allowed env.rxBurstSize result.1
          [(pkts j, (result.1.mbufs (pkts j)).checkedPort (result.2 j))] next.1 ∧
        (∀ i, i ≠ j → next.2 i = result.2 i) ∧
        ∀ m, m ≠ pkts j → next.1.mbufs m = result.1.mbufs m) False
      (sendPacketSingle env pkts result j) := by
  rcases result with ⟨state, hops⟩
  have port := rfc1812Process_port (state.mbufs (pkts j)).data (hops j)
    (state.mbufs (pkts j)).packetType
  change _ = (state.mbufs (pkts j)).checkedPort (hops j) at port
  have others : ∀ port i, i ≠ j → Function.update hops j port i = hops i :=
    fun port i different => Function.update_of_ne different port hops
  unfold sendPacketSingle
  dsimp only
  rw [port]
  by_cases bad : (state.mbufs (pkts j)).checkedPort (hops j) = badPort
  · rw [if_neg (not_not_intro bad)]
    refine ⟨?_, others _, fun m apart => Function.update_of_ne apart _ state.mbufs⟩
    exact (Relayed.free below [(pkts j, _)]).rewritten _
  · have isAllowed := RteMbuf.checkedPort_of_ne bad toPort
    rw [if_pos bad]
    apply (sendRewritten_relayed exist burst below (pkts j) _ isAllowed).bind
    rintro ⟨last, sent⟩ ⟨relayed, packets⟩
    exact ⟨relayed, others _, packets⟩

theorem sendPacketsSingle_relayed {env : Env}
    (burst : 0 < env.rxBurstSize ∧ env.rxBurstSize ≤ maxPktBurst) {state : LcoreState}
    (below : state.Below env.rxBurstSize) (pkts : Nat → MbufPtr) {hops : Nat → BitVec 16}
    {nbTx : Nat} (distinct : Cells.Distinct pkts 0 nbTx)
    (toPorts : ∀ i, i < nbTx → hops i = badPort ∨ allowed (hops i)) :
    Outcome (Relayed allowed env.rxBurstSize state ((List.range nbTx).map fun i =>
        (pkts i, (state.mbufs (pkts i)).checkedPort (hops i)))) False
      (sendPacketsSingle env state pkts hops nbTx) := by
  apply (singles_relayed below pkts distinct toPorts (fun result j below toPort =>
    sendPacketSingle_relayed exist burst pkts result j below toPort)).bind
  rintro ⟨last, hops⟩ relayed
  exact relayed

theorem aclSendBurst_relays (build : Build) {env : Env}
    (burst : 0 < env.rxBurstSize ∧ env.rxBurstSize ≤ maxPktBurst) {tables : AclTables}
    (toPorts : ∀ pkt, Forwards (aclResult tables pkt) → allowed (aclHop tables pkt))
    (aclSearch : AclSearch) :
    Relays env allowed (build.bound env) (AclFine build env tables) (aclDstPort env tables)
      (aclSendBurst build env tables aclSearch) where
  exist := exist
  positive := build.bound_pos burst
  small := build.bound_le burst
  relays := by
    intro state rx portid below positive inside fine _
    let received : LcoreState := { state with mbufs := rx.fill state.mbufs }
    rcases aclProcessPkts_spec tables received.mbufs rx.pktsBurst env.stack rx.nbRx aclSearch with
      ⟨hops, _, drops⟩
    have isHanded : (List.range rx.nbRx).map (fun i => (rx.pktsBurst i,
        (received.mbufs (rx.pktsBurst i)).checkedPort ((aclProcessPkts tables received.mbufs
          rx.pktsBurst env.stack rx.nbRx aclSearch).1 i))) =
        rx.handed (aclDstPort env tables rx portid) := by
      apply rx.handed_congr
      intro i inBurst
      rw [hops i inBurst, aclDstPort, aclFate_port]
      have packet := rx.fill_pktsBurst state.mbufs inBurst
      exact congrArg (fun pkt => pkt.checkedPort (aclHop tables pkt)) packet
    have toHops : ∀ i, i < rx.nbRx →
        (aclProcessPkts tables received.mbufs rx.pktsBurst env.stack rx.nbRx aclSearch).1 i =
            badPort ∨
          allowed ((aclProcessPkts tables received.mbufs rx.pktsBurst env.stack rx.nbRx
            aclSearch).1 i) := by
      intro i inBurst
      rw [hops i inBurst]
      by_cases forwards : Forwards (aclResult tables (received.mbufs (rx.pktsBurst i)))
      · exact Or.inr (toPorts _ forwards)
      · exact Or.inl (if_neg forwards)
    have single := fun (room : received.Below env.rxBurstSize) (distinct : rx.Distinct) =>
      (sendPacketsSingle_relayed exist burst room rx.pktsBurst distinct.pktsBurst toHops).imp
        (fun _ relayed => Relayed.of_rewritten relayed) id
    rw [isHanded] at single
    cases build with
    | generic => exact single below fine
    | simd =>
        unfold aclSendBurst
        dsimp only
        unfold aclSendPackets
        rw [drops]
        by_cases forwarded : AclStep.AllForwarded tables received.mbufs rx
        · rw [if_pos ((AclStep.noDrop_iff tables received.mbufs rx).mpr forwarded)]
          have toAllowed : ∀ i, i < rx.nbRx → allowed ((aclProcessPkts tables received.mbufs
              rx.pktsBurst env.stack rx.nbRx aclSearch).1 i) := by
            intro i inBurst
            rw [hops i inBurst]
            exact toPorts _ (forwarded i inBurst)
          have room : received.HasRoom := below
          apply (sendPacketsMulti_relayed exist env rx.pktsBurst _ room positive
            (Nat.le_trans inside burst.2) toAllowed).bind
          rintro ⟨last, stats⟩ relayed
          rw [isHanded] at relayed
          exact Relayed.of_rewritten relayed
        · rw [if_neg fun none => forwarded ((AclStep.noDrop_iff tables received.mbufs rx).mp none)]
          rcases fine.resolve_right fun all => forwarded (all state.mbufs) with ⟨full, distinct⟩
          have same : Build.simd.bound env = env.rxBurstSize := full.symm
          rw [same] at below ⊢
          exact single below distinct

end

/-! ## The main loop -/

section

variable {φ ψ : Type} [Inhabited φ] [Inhabited ψ]

/-- What is forwarded goes to an enabled port. -/
theorem aclHop_enabled {env : Env} {ipv4 : AclContext φ env.enabledPortMask}
    {ipv6 : AclContext ψ env.enabledPortMask} (below4 : ipv4.ForwardsBelow 32)
    (below6 : ipv6.ForwardsBelow 32) {pkt : RteMbuf}
    (forwards : Forwards (aclResult (aclTables ipv4 ipv6) pkt)) :
    PortEnabled env (aclHop (aclTables ipv4 ipv6) pkt) := by
  have valid := aclHop_lt (aclTables_portsExist below4 below6) pkt forwards
  have notBad : aclHop (aclTables ipv4 ipv6) pkt ≠ badPort := by
    intro bad
    rw [bad] at valid
    exact absurd valid (by decide)
  have enabled := targetHop_enabled below4 below6 pkt
  rw [← aclHop_first] at enabled
  exact ⟨valid, enabled.resolve_left notBad⟩

/-- An lcore that is set up conveys its packets, if its path relays them. -/
theorem LcoreState.SetUp.aclConveyed {build : Build} {env : Env} {allowed : BitVec 16 → Prop}
    {bound : Nat} {fine : RxBurst → Prop} {tables : AclTables} {aclSearch : AclSearch}
    {dstPort : BurstPorts} {start : LcoreState} {ports : List (BitVec 16)}
    (setUp : start.SetUp ports)
    (relays : Relays env allowed bound fine dstPort (aclSendBurst build env tables aclSearch))
    (all : ∀ port ∈ ports, allowed port) (tscHz : BitVec 64) {heads : List PollHead}
    (bursts : ∀ head ∈ heads, ∀ i, (head.2 i).nbRx ≤ env.rxBurstSize ∧ fine (head.2 i)) :
    ∃ poll, aclMainLoop build env tables aclSearch tscHz start heads = .ok poll ∧
      Conveyed allowed dstPort start (drainTsc tscHz) 0#64 heads poll.state := by
  unfold aclMainLoop
  by_cases idle : start.qconf.rxQueueList = []
  · simp only [if_pos idle]
    exact ⟨_, rfl, idle_conveyed relays setUp.emptyBuffers setUp.nothingSent setUp.nothingFreed
      idle _ _ _⟩
  · simp only [if_neg idle]
    apply pollAll_conveyed relays setUp.emptyBuffers setUp.nothingSent setUp.nothingFreed _ _
      _ _ bursts
    · intro port drained
      exact all port (setUp.txPorts port drained)
    · intro queue polled
      exact all queue.portId (setUp.rxPorts queue polled)

/-- With ports and lcores as they are set up, and contexts built from rule files whose forward
numbers are ports, every lcore conveys its packets to enabled ports, each to that of its
route. -/
theorem aclMainLoop_conveyed (build : Build) (env : Env)
    (sizes : 0 < env.rxBurstSize ∧ env.rxBurstSize ≤ maxPktBurst)
    {ipv4 : AclContext φ env.enabledPortMask} {ipv6 : AclContext ψ env.enabledPortMask}
    (below4 : ipv4.ForwardsBelow 32) (below6 : ipv6.ForwardsBelow 32) {eal : Eal}
    {params : List LcoreParams} {addrs : EthAddrs} {setup : SetupState}
    (setUp : l3fwdPollResourceSetup eal params env.enabledPortMask addrs = some setup)
    (aclSearch : AclSearch) (lcore : Nat) (mbufs : MbufHeap) (tscHz : BitVec 64)
    {heads : List PollHead}
    (bursts : ∀ head ∈ heads, ∀ i, (head.2 i).nbRx ≤ env.rxBurstSize ∧
      AclFine build env (aclTables ipv4 ipv6) (head.2 i)) :
    let start := LcoreState.launched mbufs (setup.lcoreConf lcore)
    ∃ poll, aclMainLoop build env (aclTables ipv4 ipv6) aclSearch tscHz start heads = .ok poll ∧
      Conveyed (PortEnabled env) (aclDstPort env (aclTables ipv4 ipv6)) start (drainTsc tscHz) 0#64
        heads poll.state :=
  (launched_setUp setUp lcore mbufs).aclConveyed
    (aclSendBurst_relays PortEnabled.exist build sizes
      (fun _ forwards => aclHop_enabled below4 below6 forwards) aclSearch)
    (fun _ => enabledPorts_enabled) tscHz bursts

end

theorem aclMainLoop_conveyed_route :
    ∃ setup, l3fwdPollResourceSetup twoPortEal [⟨1#16, 0#16, 2#32⟩] 0x2#32
        ⟨fun _ => 0, fun _ => 0, fun _ => 0⟩ = some setup ∧
      let env : Env := { (default : Env) with
        rxBurstSize := 32, txBurstSize := 32, enabledPortMask := 0x2#32 }
      let start := LcoreState.launched default (setup.lcoreConf 2)
      let heads : List PollHead := [(1000#64, fun _ => ⟨[(7, routedPacket)]⟩),
        (9000000000#64, fun _ => ⟨[]⟩)]
      aclDstPort env (aclTables routeFirst routeIpv6) ⟨[(7, routedPacket)]⟩ 1#16 0 = 1#16 ∧
      ∃ poll, aclMainLoop .generic env (aclTables routeFirst routeIpv6) default 3000000000#64
          start heads = .ok poll ∧
        Conveyed (PortEnabled env) (aclDstPort env (aclTables routeFirst routeIpv6)) start
          (drainTsc 3000000000#64) 0#64 heads poll.state := by
  have succeeds : (l3fwdPollResourceSetup twoPortEal [⟨1#16, 0#16, 2#32⟩] 0x2#32
      ⟨fun _ => 0, fun _ => 0, fun _ => 0⟩).isSome = true := by
    decide +kernel
  rcases Option.isSome_iff_exists.mp succeeds with ⟨setup, setUp⟩
  refine ⟨setup, setUp, ?_⟩
  intro env start heads
  have first : firstTarget routeFirst routeIpv6 routedPacket = some (.forward 1#32) :=
    AclContext.firstTarget_everything rfl routeFirst_lines _
  have isPort : (aclFate env routedPacket (aclHop (aclTables routeFirst routeIpv6)
      routedPacket)).port = 1#16 := by
    rw [aclHop_first, first]
    decide +kernel
  refine ⟨isPort, ?_⟩
  have below4 : routeFirst.ForwardsBelow 32 := by
    rw [AclFile.ForwardsBelow, routeFirst_lines]
    simp
  have below6 : routeIpv6.ForwardsBelow 32 := by
    rw [AclFile.ForwardsBelow, routeIpv6_lines]
    simp
  apply aclMainLoop_conveyed .generic env ⟨by decide, by decide⟩ below4 below6 setUp
  intro head member i
  rcases List.mem_pair.mp member with rfl | rfl
  · exact ⟨Nat.le_of_ble_eq_true rfl, List.nodup_singleton 7⟩
  · exact ⟨Nat.zero_le _, List.nodup_nil⟩

end PacketForwarding.L3fwd
