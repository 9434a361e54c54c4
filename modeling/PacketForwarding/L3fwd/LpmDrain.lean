import PacketForwarding.L3fwd.LpmSetup

/-! # No packet is left behind

The loop of an lcore puts packets only into buffers that its next drain empties: every
port that the tables yield is one that the lcore was told to drain.
-/

namespace PacketForwarding.L3fwd

open Lanes Cells

/-- Only buffers of the given ports have changed, and every buffer is below a bound. -/
structure Confined (ports : List (BitVec 16)) (bound : Nat) (state state' : LcoreState) :
    Prop where
  below : state'.Below bound
  conf : { state'.qconf with txMbufs := state.qconf.txMbufs } = state.qconf
  tables : ∀ other, (∀ port ∈ ports, port.toNat ≠ other) →
    state'.qconf.txMbufs other = state.qconf.txMbufs other

namespace Confined

variable {ports : List (BitVec 16)} {bound : Nat}

theorem refl {state : LcoreState} (below : state.Below bound) : Confined ports bound state state :=
  ⟨below, rfl, fun _ _ => rfl⟩

theorem extend {start state state' : LcoreState} {port : BitVec 16}
    (confined : Confined ports bound start state)
    (effect : TxEffect state state' port handed stats) (member : port ∈ ports)
    (len : state'.txLen port.toNat < bound) : Confined ports bound start state' where
  below := effect.below confined.below len
  conf := by
    have same := congrArg (fun conf : LcoreConf => { conf with txMbufs := start.qconf.txMbufs })
      effect.conf
    exact same.trans confined.conf
  tables := by
    intro other outside
    have apart : other ≠ port.toNat := fun same => outside port member same.symm
    exact (effect.tables other apart).trans (confined.tables other outside)

end Confined

section

variable {ports : List (BitVec 16)} (exist : ∀ port ∈ ports, port.toNat < rteMaxEthports)

include exist

/-! ## The vector path -/

theorem Dispatch.exec_confined (env : Env) (pktsBurst : Nat → MbufPtr) {start : LcoreState}
    {result : LcoreState × TxStats} {group : Dispatch}
    (confined : Confined ports maxPktBurst start result.1) (positive : 0 < group.count)
    (inside : group.count ≤ maxPktBurst) (toPort : group.port = badPort ∨ group.port ∈ ports) :
    Outcome (fun next => Confined ports maxPktBurst start next.1) False
      (group.exec env pktsBurst result) := by
  by_cases bad : group.port = badPort
  · rw [Dispatch.exec, if_neg (not_not_intro bad)]
    exact ⟨confined.below, confined.conf, confined.tables⟩
  · have member := toPort.resolve_left bad
    have valid := exist _ member
    rcases sendPacketsx4_spec env result.1 (fun i => pktsBurst (group.first + i)) valid
      (confined.below _ valid) positive inside with ⟨state', stats, sent, effect, len⟩
    have within := x4Len_lt env (confined.below _ valid) inside
    rw [← len] at within
    simp only [Dispatch.exec, if_pos bad, sent, bind, Except.bind]
    exact confined.extend effect member within

theorem sendPacketsMulti_confined (env : Env) {state : LcoreState} (pktsBurst : Nat → MbufPtr)
    (dstPort : Nat → BitVec 16) {nbRx : Nat} (room : state.HasRoom) (positive : 0 < nbRx)
    (inside : nbRx ≤ maxPktBurst) (toPorts : ∀ i, i < nbRx → dstPort i ∈ ports) :
    Outcome (fun result => Confined ports maxPktBurst state result.1) False
      (sendPacketsMulti env state pktsBurst dstPort nbRx) := by
  rcases sendPacketsMulti_eq env state pktsBurst dstPort positive inside
    (fun i below => ne_badPort_pred (exist _ (toPorts i below))) with
    ⟨grouping, runs, _, checked, _, tiled, sent⟩
  rw [sent]
  apply Outcome.foldlM (fun (_ : List Dispatch) (result : LcoreState × TxStats) =>
    Confined ports maxPktBurst state result.1)
  · intro _ group result member confined
    rcases List.mem_map.mp member with ⟨run, inRuns, rfl⟩
    have maximal := tiled.maximalRun_of_mem inRuns
    have runInside := maximal.inside
    have runPositive := maximal.positive
    refine Dispatch.exec_confined exist env pktsBurst confined runPositive
      (Nat.le_trans (Nat.le_of_add_left_le runInside) inside) ?_
    change grouping.packets.2 run.1 = badPort ∨ grouping.packets.2 run.1 ∈ ports
    rw [checked.inside run.1 (Nat.zero_le _) (by omega), RteMbuf.checkedPort]
    split
    · exact Or.inl rfl
    · exact Or.inr (toPorts run.1 (by omega))
  · exact ⟨room, rfl, fun _ _ => rfl⟩

/-- What a lookup yields for a packet from one of the ports is one of the ports. -/
def LookupsWithin (tables : LpmTables) (ports : List (BitVec 16)) : Prop :=
  ∀ pkt, ∀ portid ∈ ports, lpmGetDstPort tables pkt portid ∈ ports

variable {tables : LpmTables} (within : LookupsWithin tables ports)

include within

theorem l3fwdLpmSendPackets_confined (env : Env) (lawful : tables.Lawful) {state : LcoreState}
    {nbRx : Nat} (pktsBurst : Nat → MbufPtr) {portid : BitVec 16} (incoming : portid ∈ ports)
    (room : state.HasRoom) (positive : 0 < nbRx) (inside : nbRx ≤ maxPktBurst) :
    Outcome (fun result => Confined ports maxPktBurst state result.1) False
      (l3fwdLpmSendPackets env tables state nbRx pktsBurst portid) := by
  have small : portid.toNat < 2 ^ 15 := Nat.lt_trans (exist portid incoming) (by decide)
  have looked := l3fwdLpmProcessPackets_lookup env lawful state.mbufs nbRx pktsBurst
    env.stack small
  simp only [l3fwdLpmSendPackets, looked]
  apply sendPacketsMulti_confined exist env pktsBurst _ room positive inside
  intro i below
  have port : assign (lpmPort tables state.mbufs pktsBurst portid) 0 nbRx env.stack i =
      lpmPort tables state.mbufs pktsBurst portid i := if_pos (by omega)
  rw [port]
  exact within _ portid incoming

/-! ## The generic path -/

omit within in
theorem forwardTo_confined {env : Env} (burst : 0 < env.rxBurstSize ∧ env.rxBurstSize ≤ maxPktBurst)
    {start state : LcoreState} (confined : Confined ports env.rxBurstSize start state)
    (m : MbufPtr) {dstPort : BitVec 16} (toPort : dstPort ∈ ports) :
    Outcome (fun result => Confined ports env.rxBurstSize start result.1) False
      (forwardTo env state m dstPort) := by
  let rewritten := state.setMbuf m
    { state.mbufs m with data := setEthAddrs env (state.mbufs m).data dstPort }
  have rewrittenConfined : Confined ports env.rxBurstSize start rewritten :=
    ⟨confined.below, confined.conf, confined.tables⟩
  have valid := exist dstPort toPort
  have lenBelow := rewrittenConfined.below _ valid
  rcases sendSinglePacket_spec env rewritten m valid (Nat.lt_of_lt_of_le lenBelow burst.2) with
    ⟨state', sent, run, effect, len⟩
  have stillBelow : state'.txLen dstPort.toNat < env.rxBurstSize := by
    rw [len, singleLen]
    split
    · exact burst.1
    · omega
  change Outcome _ False (rewritten.txTable dstPort >>= fun table =>
    sendSinglePacket env rewritten m dstPort >>= fun result => _)
  simp only [rewritten.txTable_ok valid, run, bind, Except.bind]
  exact rewrittenConfined.extend effect toPort stillBelow

theorem l3fwdLpmSimpleForward_confined {env : Env}
    (burst : 0 < env.rxBurstSize ∧ env.rxBurstSize ≤ maxPktBurst) {start state : LcoreState}
    (confined : Confined ports env.rxBurstSize start state) (m : MbufPtr) {portid : BitVec 16}
    (incoming : portid ∈ ports) :
    Outcome (fun result => Confined ports env.rxBurstSize start result.1) False
      (l3fwdLpmSimpleForward env tables state m portid) := by
  have enabled : ∀ dstPort ∈ ports, enabledPort env dstPort portid ∈ ports := by
    intro dstPort member
    unfold enabledPort
    split
    · exact incoming
    · exact member
  have rewritten : ∀ pkt, Confined ports env.rxBurstSize start (state.setMbuf m pkt) :=
    fun _ => ⟨confined.below, confined.conf, confined.tables⟩
  unfold l3fwdLpmSimpleForward
  dsimp only
  by_cases isIpv4 : rteEthIsIpv4Hdr (state.mbufs m).packetType = true
  · have found : ∀ data, lpmGetIpv4DstPort tables { state.mbufs m with data := data } portid ∈
        ports := by
      intro data
      have port := within { state.mbufs m with data := data } portid incoming
      rw [lpmGetDstPort, if_pos isIpv4] at port
      exact port
    rw [if_pos isIpv4]
    split
    · exact ⟨confined.below, confined.conf, confined.tables⟩
    · exact forwardTo_confined exist burst (rewritten _) m (enabled _ (found _))
  · rw [if_neg isIpv4]
    split
    · rename_i isIpv6
      have port := within (state.mbufs m) portid incoming
      rw [lpmGetDstPort, if_neg isIpv4, if_pos isIpv6] at port
      exact forwardTo_confined exist burst confined m (enabled _ port)
    · exact ⟨confined.below, confined.conf, confined.tables⟩

theorem forwardLoop_confined {env : Env}
    (burst : 0 < env.rxBurstSize ∧ env.rxBurstSize ≤ maxPktBurst) (pktsBurst : Nat → MbufPtr)
    {portid : BitVec 16} (incoming : portid ∈ ports) {start : LcoreState} (count : Nat) :
    ∀ j result, Confined ports env.rxBurstSize start result.1 →
      Outcome (fun next => Confined ports env.rxBurstSize start next.1) False
        (forwardLoop env tables pktsBurst portid count j result) := by
  induction count with
  | zero =>
      intro j result confined
      exact confined
  | succ count induction =>
      intro j result confined
      apply (l3fwdLpmSimpleForward_confined exist within burst confined (pktsBurst j)
        incoming).bind
      intro next forwarded
      exact induction (j + 1) _ forwarded

/-! ## The loop -/

theorem lpmSendPackets_confined (build : Build) {env : Env}
    (burst : 0 < env.rxBurstSize ∧ env.rxBurstSize ≤ maxPktBurst) (lawful : tables.Lawful)
    {state : LcoreState} {nbRx : Nat} (pktsBurst : Nat → MbufPtr) {portid : BitVec 16}
    (incoming : portid ∈ ports) (below : state.Below (build.bound env)) (positive : 0 < nbRx)
    (inside : nbRx ≤ env.rxBurstSize) :
    Outcome (fun result => Confined ports (build.bound env) state result.1) False
      (lpmSendPackets build env tables state nbRx pktsBurst portid) := by
  cases build with
  | simd =>
      exact l3fwdLpmSendPackets_confined exist within env lawful pktsBurst incoming below positive
        (Nat.le_trans inside burst.2)
  | generic =>
      apply (forwardLoop_confined exist within burst pktsBurst incoming _ 0 (state, ⟨0, 0⟩)
        (Confined.refl below)).bind
      intro result confined
      exact forwardLoop_confined exist within burst pktsBurst incoming _ _ result confined

theorem lpmPollQueue_confined (build : Build) {env : Env}
    (burst : 0 < env.rxBurstSize ∧ env.rxBurstSize ≤ maxPktBurst) (lawful : tables.Lawful)
    {rx : Nat → RxBurst} (bursts : ∀ i, (rx i).nbRx ≤ env.rxBurstSize) {start : LcoreState}
    {loop : MainLoop} {queue : LcoreRxQueue × Nat} (incoming : queue.1.portId ∈ ports)
    (confined : Confined ports (build.bound env) start loop.state) :
    Outcome (fun next => Confined ports (build.bound env) start next.state) False
      (lpmPollQueue (lpmSendPackets build env tables) rx loop queue) := by
  unfold lpmPollQueue
  by_cases empty : (rx queue.2).nbRx = 0
  · rw [if_pos empty]
    exact confined
  · simp only [if_neg empty]
    let received := { loop.state with mbufs := (rx queue.2).fill loop.state.mbufs }
    have below : received.Below (build.bound env) := confined.below
    apply (lpmSendPackets_confined exist within build burst lawful (rx queue.2).pktsBurst incoming
      below (Nat.pos_of_ne_zero empty) (bursts queue.2)).bind
    intro result sent
    refine ⟨sent.below, ?_, ?_⟩
    · have same := congrArg (fun conf : LcoreConf => { conf with
        txMbufs := start.qconf.txMbufs }) sent.conf
      exact same.trans confined.conf
    · intro other outside
      exact (sent.tables other outside).trans (confined.tables other outside)

omit within in
theorem drainTxPorts_confined (build : Build) {env : Env}
    (burst : 0 < env.rxBurstSize ∧ env.rxBurstSize ≤ maxPktBurst) {start : LcoreState}
    {loop : MainLoop} (txPorts : start.qconf.txPortId = ports)
    (confined : Confined ports (build.bound env) start loop.state) :
    Outcome (fun next => Confined ports (build.bound env) start next.state ∧
        ∀ port ∈ ports, next.state.txLen port.toNat = 0)
      False (drainTxPorts env loop) := by
  have sameList : loop.state.qconf.txPortId = ports := by
    have same := congrArg LcoreConf.txPortId confined.conf
    exact same.trans txPorts
  unfold drainTxPorts
  rw [sameList]
  apply Outcome.foldlM (fun (done : List (BitVec 16)) (next : MainLoop) =>
    Confined ports (build.bound env) start next.state ∧
      ∀ port ∈ done, next.state.txLen port.toNat = 0)
  · rintro done port next member ⟨confined, emptied⟩
    have valid := exist port member
    have lenBelow := confined.below _ valid
    rcases drainTxPort_spec env next.state valid
      (Nat.le_of_lt (Nat.lt_of_lt_of_le lenBelow (build.bound_le burst))) with
      ⟨state', stats, run, effect, len⟩
    have short : state'.txLen port.toNat < build.bound env := by
      rw [len]
      exact build.bound_pos burst
    simp only [run, bind, Except.bind]
    refine ⟨confined.extend effect member short, ?_⟩
    intro other drained
    by_cases same : other.toNat = port.toNat
    · rw [same]
      exact len
    · rcases List.mem_append.mp drained with earlier | isPort
      · have kept := effect.tables other.toNat same
        have before := emptied other earlier
        rw [LcoreState.txLen] at before ⊢
        rw [kept]
        exact before
      · exact absurd (congrArg BitVec.toNat (List.mem_singleton.mp isPort)) same
  · exact ⟨confined, fun _ impossible => absurd impossible List.not_mem_nil⟩

theorem lpmMainLoop_confined (build : Build) {env : Env}
    (burst : 0 < env.rxBurstSize ∧ env.rxBurstSize ≤ maxPktBurst) (lawful : tables.Lawful)
    {state : LcoreState} {inputs : List PollInput} (below : state.Below (build.bound env))
    (txPorts : state.qconf.txPortId = ports)
    (rxPorts : ∀ queue ∈ state.qconf.rxQueueList, queue.portId ∈ ports)
    (bursts : ∀ input ∈ inputs, ∀ i, (input.rx i).nbRx ≤ env.rxBurstSize) :
    Outcome (fun loop => Confined ports (build.bound env) state loop.state) False
      (lpmMainLoop build env tables state inputs) := by
  unfold lpmMainLoop lpmMainLoopWith
  dsimp only
  split
  · exact Confined.refl below
  · apply Outcome.foldlM (fun (_ : List PollInput) (loop : MainLoop) =>
      Confined ports (build.bound env) state loop.state)
    · intro _ input loop member confined
      have drained : Outcome (fun next : MainLoop =>
          Confined ports (build.bound env) state next.state) False
          (drainIfDue env input.drain loop) := by
        unfold drainIfDue
        split
        · exact (drainTxPorts_confined exist build burst txPorts confined).imp
            (fun _ both => both.1) id
        · exact confined
      apply drained.bind
      intro next confined
      have sameList : next.state.qconf.rxQueueList = state.qconf.rxQueueList := by
        have same := congrArg LcoreConf.rxQueueList confined.conf
        exact same
      rw [sameList]
      apply Outcome.foldlM (fun (_ : List (LcoreRxQueue × Nat)) (loop : MainLoop) =>
        Confined ports (build.bound env) state loop.state)
      · intro _ queue next isQueue confined
        exact lpmPollQueue_confined exist within build burst lawful (bursts input member)
          (rxPorts queue.1 (List.fst_mem_of_mem_zipIdx isQueue)) confined
      · exact confined
    · exact Confined.refl below

end

/-! ## What the set-up guarantees -/

/-- The set-up only leaves routes to enabled ports. Every packet of a configured queue gets
an enabled port that its lcore drains, so at whatever boundary of its loop a drain begins, it
leaves nothing in any buffer. -/
theorem setupLpm_drained {eal : Eal} {params : List LcoreParams} {mask : BitVec 32}
    {addrs : EthAddrs} {state : SetupState} {lib : RteLpm} {routes rules : LpmRoutes}
    (lawful : lib.Lawful) (setUp : l3fwdPollResourceSetup eal params mask addrs = some state)
    (routed : setupLpm eal mask lib routes = some rules) :
    rules.Enabled eal mask ∧
    (∀ lcore, ∀ queue ∈ (state.lcoreConf lcore).rxQueueList, ∀ pkt,
      let port := lpmGetDstPort (lib.tables rules) pkt queue.portId
      port ∈ enabledPorts eal mask ∧ port.toNat < rteMaxEthports ∧
        port ∈ (state.lcoreConf lcore).txPortId) ∧
    ∀ lcore ∈ enabledLcores eal, ∀ start : LcoreState, start.qconf = state.lcoreConf lcore →
      ∀ (build : Build) (env : Env) (inputs : List PollInput),
        0 < env.rxBurstSize ∧ env.rxBurstSize ≤ maxPktBurst →
        (∀ input ∈ inputs, ∀ i, (input.rx i).nbRx ≤ env.rxBurstSize) →
        ∃ loop drained, lpmMainLoop build env (lib.tables rules) start inputs = .ok loop ∧
          drainTxPorts env loop = .ok drained ∧ ∀ port, drained.state.txLen port = 0 := by
  have enabled := setupLpm_enabled routed
  have exist : ∀ port ∈ enabledPorts eal mask, port.toNat < rteMaxEthports :=
    fun port member => eal.devices port (mem_enabledPorts.mp member).1
  have within : LookupsWithin (lib.tables rules) (enabledPorts eal mask) :=
    fun pkt _ incoming => enabled.lpmGetDstPort lawful pkt incoming
  rcases l3fwdPollResourceSetup_lcores setUp with ⟨txPorts, _, rxPorts, noPackets⟩
  refine ⟨enabled, ?_, ?_⟩
  · intro lcore queue polled pkt port
    rcases rxPorts lcore queue polled with ⟨runs, incoming⟩
    have member : port ∈ enabledPorts eal mask := within pkt queue.portId incoming
    refine ⟨member, exist port member, ?_⟩
    rw [(txPorts lcore runs).1]
    exact member
  · intro lcore runs start isConf build env inputs burst bursts
    have empty : ∀ port, start.txLen port = 0 := by
      intro port
      rw [LcoreState.txLen, isConf]
      exact noPackets lcore port
    have below : start.Below (build.bound env) := by
      intro port _
      rw [empty port]
      exact build.bound_pos burst
    have txList : start.qconf.txPortId = enabledPorts eal mask := by
      rw [isConf]
      exact (txPorts lcore runs).1
    have rxList : ∀ queue ∈ start.qconf.rxQueueList, queue.portId ∈ enabledPorts eal mask := by
      rw [isConf]
      exact fun queue polled => (rxPorts lcore queue polled).2
    rcases (lpmMainLoop_confined exist within build burst
      (LpmRoutes.Enabled.tables_lawful lawful) below txList rxList bursts).exists_ok id with
      ⟨loop, ran, confined⟩
    rcases (drainTxPorts_confined exist build burst txList confined).exists_ok id with
      ⟨drained, ended, confined', emptied⟩
    refine ⟨loop, drained, ran, ended, ?_⟩
    intro port
    by_cases visited : ∃ member ∈ enabledPorts eal mask, member.toNat = port
    · rcases visited with ⟨member, isMember, rfl⟩
      exact emptied member isMember
    · have outside : ∀ member ∈ enabledPorts eal mask, member.toNat ≠ port :=
        fun member isMember same => visited ⟨member, isMember, same⟩
      rw [LcoreState.txLen, confined'.tables port outside]
      exact empty port

def LpmRouteRule.covers (rule : LpmRouteRule (BitVec 32)) (ip : BitVec 32) : Bool :=
  decide (rule.ip >>> (32 - rule.depth.toNat) = ip >>> (32 - rule.depth.toNat))

/-- The next hop of the longest route that covers an address. -/
def longestMatch (rules : List (LpmRouteRule (BitVec 32))) (ip : BitVec 32) :
    Option (BitVec 32) :=
  let longest := (rules.filter fun rule => rule.covers ip).argmax fun rule => rule.depth.toNat
  longest.map fun rule => rule.ifOut.setWidth 32

/-- Longest prefix match for IPv4, and IPv6 tables without routes. -/
def prefixLpm : RteLpm where
  rteLpmCreate := true
  rteLpm6Create := true
  rteLpmAdd := fun _ _ => true
  rteLpm6Add := fun _ _ => false
  rteLpmLookup := longestMatch
  rteLpm6Lookup := fun _ _ => none
  rteLpmLookupx4 := fun rules ip defv => ofLanes 32 4 fun index =>
    (longestMatch rules (lane 32 ip index)).getD defv

theorem prefixLpm_lawful : prefixLpm.Lawful where
  lookup := by
    intro rules ip hop found
    rcases Option.map_eq_some_iff.mp found with ⟨rule, best, rfl⟩
    exact ⟨rule, (List.mem_filter.mp (List.argmax_mem best)).1, rfl⟩
  lookup6 := by
    intro rules ip hop found
    cases found
  lookupx4 := by
    intro rules ip defv index inside
    exact lane_ofLanes 32 4 (fun index => (longestMatch rules (lane 32 ip index)).getD defv) index
      inside

/-- One route is skipped, two are added. -/
theorem setupLpm_drained_two :
    ∃ state rules, l3fwdPollResourceSetup twoPortEal threeQueues 0x3#32
        ⟨fun _ => 0, fun _ => 0, fun _ => 0⟩ = some state ∧
      setupLpm twoPortEal 0x3#32 prefixLpm
        ⟨[⟨0x0a000000#32, 8#8, 0#8⟩, ⟨0x0b000000#32, 8#8, 5#8⟩, ⟨0x0a010000#32, 16#8, 1#8⟩], []⟩ =
          some rules ∧
      rules.ipv4.length = 2 ∧ rules.Enabled twoPortEal 0x3#32 ∧
      ∀ queue ∈ (state.lcoreConf 2).rxQueueList, ∀ pkt,
        lpmGetDstPort (prefixLpm.tables rules) pkt queue.portId ∈ (state.lcoreConf 2).txPortId := by
  have succeeds : (l3fwdPollResourceSetup twoPortEal threeQueues 0x3#32
      ⟨fun _ => 0, fun _ => 0, fun _ => 0⟩).isSome = true := by
    decide +kernel
  rcases Option.isSome_iff_exists.mp succeeds with ⟨state, setUp⟩
  have routed : ∃ rules, setupLpm twoPortEal 0x3#32 prefixLpm
      ⟨[⟨0x0a000000#32, 8#8, 0#8⟩, ⟨0x0b000000#32, 8#8, 5#8⟩, ⟨0x0a010000#32, 16#8, 1#8⟩], []⟩ =
        some rules ∧ rules.ipv4.length = 2 := ⟨_, rfl, rfl⟩
  rcases routed with ⟨rules, routed, two⟩
  rcases setupLpm_drained prefixLpm_lawful setUp routed with ⟨enabled, ports, _⟩
  exact ⟨state, rules, setUp, routed, two, enabled,
    fun queue polled pkt => (ports 2 queue polled pkt).2.2⟩

end PacketForwarding.L3fwd
