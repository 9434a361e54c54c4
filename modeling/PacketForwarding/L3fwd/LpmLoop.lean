import PacketForwarding.L3fwd.Lpm

/-! # The polling loop of an LPM lcore

The loop drains transmit buffers and forwards received bursts, through the vector
code or through the generic code. It keeps statistics, and they are shown to agree
with what is still waiting in the buffers.
-/

namespace PacketForwarding.L3fwd

open Cells

/-! ## The generic path -/

/-- Write the Ethernet addresses of a packet and enqueue it. A flush is noticed by
the length that the buffer had before. -/
def forwardTo (env : Env) (state : LcoreState) (m : MbufPtr) (dstPort : BitVec 16) :
    Except Fault (LcoreState × TxStats) := do
  let pkt := state.mbufs m
  let state := state.setMbuf m { pkt with data := setEthAddrs env pkt.data dstPort }
  let table ← state.txTable dstPort
  let txLen := table.len
  let (state, sent) ← sendSinglePacket env state m dstPort
  .ok (state, ⟨sent, if txLen + 1 = env.rxBurstSize then env.rxBurstSize - sent else 0⟩)

def l3fwdLpmSimpleForward (env : Env) (tables : LpmTables) (state : LcoreState)
    (m : MbufPtr) (portid : BitVec 16) : Except Fault (LcoreState × TxStats) :=
  let pkt := state.mbufs m
  if rteEthIsIpv4Hdr pkt.packetType then
    -- check to make sure the packet is valid (RFC1812)
    let (data, valid) := isValidIpv4Pkt env pkt.data pkt.pktLen pkt.olFlags
    let pkt := { pkt with data := data }
    if valid < 0 then
      .ok ((state.setMbuf m pkt).rtePktmbufFree m, ⟨0, 1⟩)
    else
      let dstPort := enabledPort env (lpmGetIpv4DstPort tables pkt portid) portid
      forwardTo env (state.setMbuf m { pkt with data := countHop pkt.data }) m dstPort
  else if rteEthIsIpv6Hdr pkt.packetType then
    let dstPort := enabledPort env (lpmGetIpv6DstPort tables pkt portid) portid
    forwardTo env state m dstPort
  else
    -- free the mbuf that contains non-IPv4/IPv6 packet
    .ok (state.rtePktmbufFree m, ⟨0, 1⟩)

/-- Forward `count` packets from position `j` on. -/
def forwardLoop (env : Env) (tables : LpmTables) (pktsBurst : Nat → MbufPtr)
    (portid : BitVec 16) :
    Nat → Nat → LcoreState × TxStats → Except Fault (LcoreState × TxStats)
  | 0, _, result => .ok result
  | count + 1, j, (state, stats) => do
      let (state, ret) ← l3fwdLpmSimpleForward env tables state (pktsBurst j) portid
      forwardLoop env tables pktsBurst portid count (j + 1) (state, stats.add ret)

def l3fwdLpmNoOptSendPackets (env : Env) (tables : LpmTables) (state : LcoreState)
    (nbRx : Nat) (pktsBurst : Nat → MbufPtr) (portid : BitVec 16) :
    Except Fault (LcoreState × TxStats) := do
  -- prefetch and forward already prefetched packets
  let j := nbRx - prefetchOffset
  let result ← forwardLoop env tables pktsBurst portid j 0 (state, ⟨0, 0⟩)
  -- forward remaining prefetched packets
  forwardLoop env tables pktsBurst portid (nbRx - j) j result

/-! ## The loop -/

/-- Which of the two paths the program was built with. -/
inductive Build
  | simd
  | generic

/-- `struct lcore_stat` -/
structure LcoreStat where
  rx : BitVec 64
  tx : BitVec 64
  dropped : BitVec 64

def LcoreStat.count (stat : LcoreStat) (stats : TxStats) : LcoreStat :=
  { stat with
    tx := stat.tx + BitVec.ofNat 64 stats.sent
    dropped := stat.dropped + BitVec.ofNat 64 stats.dropped }

/-- What an lcore running a main loop can change. -/
structure MainLoop where
  state : LcoreState
  stat : LcoreStat

/-- What one iteration of a main loop meets: whether it is time to drain, and what
the receive queues hold, by position in the list of queues. -/
structure PollInput where
  drain : Bool
  rx : Nat → RxBurst

def lpmSendPackets (build : Build) (env : Env) (tables : LpmTables) (state : LcoreState)
    (nbRx : Nat) (pktsBurst : Nat → MbufPtr) (portid : BitVec 16) :
    Except Fault (LcoreState × TxStats) :=
  match build with
  | .simd => l3fwdLpmSendPackets env tables state nbRx pktsBurst portid
  | .generic => l3fwdLpmNoOptSendPackets env tables state nbRx pktsBurst portid

/-- How a path sends the packets of a burst that came from a port. -/
abbrev CountingSender :=
  LcoreState → Nat → (Nat → MbufPtr) → BitVec 16 → Except Fault (LcoreState × TxStats)

/-- TX burst queue drain. -/
def drainTxPorts (env : Env) (loop : MainLoop) : Except Fault MainLoop :=
  loop.state.qconf.txPortId.foldlM (fun loop portid => do
    let (state, stats) ← drainTxPort env loop.state portid
    .ok ⟨state, loop.stat.count stats⟩) loop

/-- `if (diff_tsc > drain_tsc)` -/
def drainIfDue (env : Env) (due : Bool) (loop : MainLoop) : Except Fault MainLoop :=
  if due then drainTxPorts env loop else .ok loop

/-- Read packets from one RX queue and forward them. -/
def lpmPollQueue (send : CountingSender) (rx : Nat → RxBurst) (loop : MainLoop)
    (queue : LcoreRxQueue × Nat) : Except Fault MainLoop := do
  let burst := rx queue.2
  if burst.nbRx = 0 then
    .ok loop
  else
    let state := { loop.state with mbufs := burst.fill loop.state.mbufs }
    let stat := { loop.stat with rx := loop.stat.rx + BitVec.ofNat 64 burst.nbRx }
    let (state, txStats) ← send state burst.nbRx burst.pktsBurst queue.1.portId
    .ok ⟨state, stat.count txStats⟩

def lpmPoll (send : CountingSender) (env : Env) (loop : MainLoop) (input : PollInput) :
    Except Fault MainLoop := do
  let loop ← drainIfDue env input.drain loop
  loop.state.qconf.rxQueueList.zipIdx.foldlM (lpmPollQueue send input.rx) loop

/-- The main processing loop, once for each input. An lcore without receive queues
has nothing to do. -/
def lpmMainLoopWith (send : CountingSender) (env : Env) (state : LcoreState)
    (inputs : List PollInput) : Except Fault MainLoop :=
  let loop : MainLoop := ⟨state, ⟨0, 0, 0⟩⟩
  if state.qconf.rxQueueList = [] then
    .ok loop
  else
    inputs.foldlM (lpmPoll send env) loop

/-- `lpm_main_loop` -/
def lpmMainLoop (build : Build) (env : Env) (tables : LpmTables) (state : LcoreState)
    (inputs : List PollInput) : Except Fault MainLoop :=
  lpmMainLoopWith (lpmSendPackets build env tables) env state inputs

/-! ## Forwarding accounts for every packet -/

/-- The two loops of the generic path go through the whole burst. -/
theorem range_prefetched (nbRx : Nat) :
    List.range nbRx = List.range' 0 (nbRx - prefetchOffset) ++
      List.range' (nbRx - prefetchOffset) (nbRx - (nbRx - prefetchOffset)) := by
  have joined := @List.range'_append_1 0 (nbRx - prefetchOffset)
    (nbRx - (nbRx - prefetchOffset))
  rw [Nat.zero_add, Nat.add_sub_of_le (Nat.sub_le nbRx prefetchOffset)] at joined
  rw [joined, List.range_eq_range']

theorem txTable_invalidPort (state : LcoreState) {port : BitVec 16}
    (invalid : ¬ port.toNat < rteMaxEthports) :
    state.txTable port = .error (.txMbufsIndex port) :=
  if_neg invalid

section

variable {env : Env} (burst : 0 < env.rxBurstSize ∧ env.rxBurstSize ≤ maxPktBurst)

include burst

theorem forwardTo_outcome {state : LcoreState} (m : MbufPtr) (dstPort : BitVec 16)
    (below : state.Below env.rxBurstSize) :
    Outcome (Accounted env.rxBurstSize state [m]) (¬ dstPort.toNat < rteMaxEthports)
      (forwardTo env state m dstPort) := by
  have rewrittenBelow : (state.setMbuf m
      { state.mbufs m with data := setEthAddrs env (state.mbufs m).data dstPort }).Below
        env.rxBurstSize := below
  have undone : ∀ result, Accounted env.rxBurstSize (state.setMbuf m
      { state.mbufs m with data := setEthAddrs env (state.mbufs m).data dstPort }) [m] result →
      Accounted env.rxBurstSize state [m] result := fun _ rest => rest.after_rewrite
  simp only [forwardTo]
  generalize state.setMbuf m
    { state.mbufs m with data := setEthAddrs env (state.mbufs m).data dstPort } = rewritten at *
  by_cases valid : dstPort.toNat < rteMaxEthports
  · have lenBelow := rewrittenBelow _ valid
    rcases sendSinglePacket_spec env rewritten m valid (by omega) with
      ⟨state', sent, run, effect, len⟩
    have stillBelow : state'.Below env.rxBurstSize := by
      refine effect.below rewrittenBelow ?_
      rw [len, singleLen]
      split
      · exact burst.1
      · omega
    simp only [rewritten.txTable_ok valid, bind, Except.bind, run]
    exact undone _ ⟨stillBelow, effect.account valid⟩
  · simp only [txTable_invalidPort _ valid, bind, Except.bind]
    exact valid

/-- One packet is enqueued or dropped, unless its fallback port does not exist. -/
theorem l3fwdLpmSimpleForward_outcome (tables : LpmTables) {state : LcoreState} (m : MbufPtr)
    (portid : BitVec 16) (below : state.Below env.rxBurstSize) :
    Outcome (Accounted env.rxBurstSize state [m]) (¬ portid.toNat < rteMaxEthports)
      (l3fwdLpmSimpleForward env tables state m portid) := by
  have fallback : ∀ dstPort, ¬ (enabledPort env dstPort portid).toNat < rteMaxEthports →
      ¬ portid.toNat < rteMaxEthports := by
    intro dstPort
    unfold enabledPort
    split
    · exact id
    · rename_i inRange
      intro outOfRange
      exact absurd (Or.inl (Nat.le_of_not_lt outOfRange)) inRange
  have dropped : ∀ heap, Accounted env.rxBurstSize state [m]
      (LcoreState.rtePktmbufFree { state with mbufs := heap } m, ⟨0, 1⟩) := by
    intro heap
    exact Accounted.after_rewrite ⟨below, TxAccount.free { state with mbufs := heap } [m]⟩
  unfold l3fwdLpmSimpleForward
  dsimp only
  split
  · split
    · exact dropped _
    · refine (forwardTo_outcome burst m _ ?_).imp
        (fun _ accounted => accounted.after_rewrite) (fallback _)
      exact below
  · split
    · exact (forwardTo_outcome burst m _ below).imp (fun _ accounted => accounted) (fallback _)
    · exact dropped state.mbufs

theorem forwardLoop_outcome (tables : LpmTables) (pktsBurst : Nat → MbufPtr)
    (portid : BitVec 16) {start : LcoreState} (count : Nat) :
    ∀ j handed result, Accounted env.rxBurstSize start handed result →
      Outcome (Accounted env.rxBurstSize start
          (handed ++ (List.range' j count).map pktsBurst))
        (¬ portid.toNat < rteMaxEthports)
        (forwardLoop env tables pktsBurst portid count j result) := by
  induction count with
  | zero =>
      intro j handed result accounted
      simpa [forwardLoop] using accounted
  | succ count induction =>
      intro j handed result accounted
      rw [List.range'_succ, List.map_cons, List.append_cons]
      refine (l3fwdLpmSimpleForward_outcome burst tables (pktsBurst j) portid
        accounted.below).bind ?_
      intro next forwarded
      exact induction (j + 1) _ _ (accounted.extend forwarded.below forwarded.account)

theorem l3fwdLpmNoOptSendPackets_outcome (tables : LpmTables) {state : LcoreState} (nbRx : Nat)
    (pktsBurst : Nat → MbufPtr) (portid : BitVec 16) (below : state.Below env.rxBurstSize) :
    Outcome (Accounted env.rxBurstSize state ((List.range nbRx).map pktsBurst))
      (¬ portid.toNat < rteMaxEthports)
      (l3fwdLpmNoOptSendPackets env tables state nbRx pktsBurst portid) := by
  refine (forwardLoop_outcome burst tables pktsBurst portid _ 0 [] _
    (Accounted.refl below)).bind ?_
  intro result accounted
  rw [range_prefetched, List.map_append]
  exact forwardLoop_outcome burst tables pktsBurst portid _ _ _ _ accounted

end

/-- The vector path accounts for every packet, unless a lookup yields a port that
does not exist. -/
theorem l3fwdLpmSendPackets_outcome (env : Env) {tables : LpmTables}
    (lawful : tables.Lawful) {state : LcoreState} {nbRx : Nat} (pktsBurst : Nat → MbufPtr)
    {portid : BitVec 16} (small : portid.toNat < 2 ^ 15) (room : state.HasRoom)
    (positive : 0 < nbRx) (inside : nbRx ≤ maxPktBurst) :
    Outcome (Accounted maxPktBurst state ((List.range nbRx).map pktsBurst))
      (∃ i, i < nbRx ∧
        ¬ (lpmPort tables state.mbufs pktsBurst portid i).toNat < rteMaxEthports)
      (l3fwdLpmSendPackets env tables state nbRx pktsBurst portid) := by
  have looked := l3fwdLpmProcessPackets_lookup env lawful state.mbufs nbRx pktsBurst
    env.stack small
  have port : ∀ i, i < nbRx →
      assign (lpmPort tables state.mbufs pktsBurst portid) 0 nbRx env.stack i =
        lpmPort tables state.mbufs pktsBurst portid i := by
    intro i below
    exact if_pos (by omega)
  simp only [l3fwdLpmSendPackets, looked]
  refine (sendPacketsMulti_outcome env state pktsBurst _ room positive inside ?_).imp
    (fun _ accounted => accounted) ?_
  · intro i below
    rw [port i below]
    have portSmall : (lpmPort tables state.mbufs pktsBurst portid i).toNat < 2 ^ 15 :=
      lpmGetDstPort_lt
        (fun ip hop found => Nat.lt_trans (lawful.nextHop ip hop found) (by decide))
        (fun ip hop found => Nat.lt_trans (lawful.nextHop6 ip hop found) (by decide)) _ small
    intro same
    rw [same] at portSmall
    exact absurd portSmall (by decide)
  · rintro ⟨i, below, invalid⟩
    rw [port i below] at invalid
    exact ⟨i, below, invalid⟩

/-! ## The statistics of the loop -/

/-- Every port the lcore can be told to send to exists. -/
structure PortsExist (tables : LpmTables) (conf : LcoreConf) : Prop where
  txPort : ∀ port ∈ conf.txPortId, port.toNat < rteMaxEthports
  rxPort : ∀ queue ∈ conf.rxQueueList, queue.portId.toNat < rteMaxEthports
  nextHop : ∀ ip hop, tables.rteLpmLookup ip = some hop → hop.toNat < rteMaxEthports
  nextHop6 : ∀ ip hop, tables.rteLpm6Lookup ip = some hop → hop.toNat < rteMaxEthports

/-- The packets in the buffers are those received and neither sent nor dropped. The
counters are the numbers of packets, as far as 64 bits go. -/
structure MainLoop.Balanced (bound : Nat) (conf : LcoreConf) (received : Nat)
    (loop : MainLoop) : Prop where
  below : loop.state.Below bound
  conf : { loop.state.qconf with txMbufs := conf.txMbufs } = conf
  counters : ∃ tx dropped, received = tx + dropped + loop.state.waiting ∧
    loop.stat = ⟨BitVec.ofNat 64 received, BitVec.ofNat 64 tx, BitVec.ofNat 64 dropped⟩

namespace MainLoop.Balanced

theorem step {bound : Nat} {conf : LcoreConf} {loop : MainLoop} {state' : LcoreState}
    (balanced : loop.Balanced bound conf received) (below : state'.Below bound)
    (account : TxAccount loop.state state' handed stats) :
    MainLoop.Balanced bound conf (received + handed.length)
      ⟨state', LcoreStat.count
        { loop.stat with rx := loop.stat.rx + BitVec.ofNat 64 handed.length } stats⟩ where
  below := below
  conf := by
    have same := congrArg (fun qconf : LcoreConf => { qconf with txMbufs := conf.txMbufs })
      account.conf
    exact same.trans balanced.conf
  counters := by
    rcases balanced.counters with ⟨tx, dropped, sum, stat⟩
    have moved := account.waiting
    refine ⟨tx + stats.sent, dropped + stats.dropped, by dsimp only; omega, ?_⟩
    rw [stat, LcoreStat.count]
    simp only [BitVec.ofNat_add]

/-- Without packets, nothing is received. -/
theorem step_nil {bound : Nat} {conf : LcoreConf} {loop : MainLoop} {state' : LcoreState}
    (balanced : loop.Balanced bound conf received) (below : state'.Below bound)
    (account : TxAccount loop.state state' [] stats) :
    MainLoop.Balanced bound conf received ⟨state', loop.stat.count stats⟩ := by
  have stepped := balanced.step below account
  simpa using stepped

end MainLoop.Balanced

/-- How long buffers get on the two paths. -/
def Build.bound (build : Build) (env : Env) : Nat :=
  match build with
  | .simd => maxPktBurst
  | .generic => env.rxBurstSize

section

variable {env : Env} (burst : 0 < env.rxBurstSize ∧ env.rxBurstSize ≤ maxPktBurst)

include burst

theorem Build.bound_pos (build : Build) : 0 < build.bound env := by
  cases build with
  | simd => exact Nat.lt_of_lt_of_le burst.1 burst.2
  | generic => exact burst.1

theorem Build.bound_le (build : Build) : build.bound env ≤ maxPktBurst := by
  cases build with
  | simd => exact Nat.le_refl maxPktBurst
  | generic => exact burst.2

/-- A received burst is accounted for, unless some port does not exist. -/
theorem lpmSendPackets_outcome (build : Build) {tables : LpmTables} (lawful : tables.Lawful)
    {conf : LcoreConf} {state : LcoreState} {nbRx : Nat} (pktsBurst : Nat → MbufPtr)
    {portid : BitVec 16} (valid : portid.toNat < rteMaxEthports)
    (below : state.Below (build.bound env)) (positive : 0 < nbRx)
    (inside : nbRx ≤ env.rxBurstSize) :
    Outcome (Accounted (build.bound env) state ((List.range nbRx).map pktsBurst))
      (¬ PortsExist tables conf)
      (lpmSendPackets build env tables state nbRx pktsBurst portid) := by
  cases build with
  | simd =>
      have small : portid.toNat < 2 ^ 15 := Nat.lt_trans valid (by decide)
      refine (l3fwdLpmSendPackets_outcome env lawful pktsBurst small below positive
        (Nat.le_trans inside burst.2)).imp (fun _ accounted => accounted) ?_
      rintro ⟨i, _, invalid⟩ exist
      exact invalid (lpmGetDstPort_lt exist.nextHop exist.nextHop6 _ valid)
  | generic =>
      refine (l3fwdLpmNoOptSendPackets_outcome burst tables nbRx pktsBurst portid below).imp
        (fun _ accounted => accounted) ?_
      intro invalid
      exact absurd valid invalid

theorem drainTxPorts_outcome (build : Build) {tables : LpmTables} {conf : LcoreConf}
    {loop : MainLoop} (balanced : loop.Balanced (build.bound env) conf received) :
    Outcome (MainLoop.Balanced (build.bound env) conf received) (¬ PortsExist tables conf)
      (drainTxPorts env loop) := by
  have sameList : loop.state.qconf.txPortId = conf.txPortId := by
    have same := congrArg LcoreConf.txPortId balanced.conf
    exact same
  refine Outcome.foldlM (fun _ => MainLoop.Balanced (build.bound env) conf received) ?_ balanced
  intro _ portid loop member balanced
  rw [sameList] at member
  by_cases valid : portid.toNat < rteMaxEthports
  · have lenBelow := balanced.below _ valid
    have boundLe := build.bound_le burst
    rcases drainTxPort_spec env loop.state valid (by omega) with
      ⟨state', stats, run, effect, len⟩
    have below := effect.below balanced.below (by
      rw [len]
      exact build.bound_pos burst)
    simp only [run, bind, Except.bind]
    exact balanced.step_nil below (effect.account valid)
  · simp only [drainTxPort_invalidPort env loop.state valid, bind, Except.bind]
    intro exist
    exact valid (exist.txPort portid member)

theorem lpmPollQueue_outcome (build : Build) {tables : LpmTables} (lawful : tables.Lawful)
    {conf : LcoreConf} {rx : Nat → RxBurst} (bursts : ∀ i, (rx i).nbRx ≤ env.rxBurstSize)
    {loop : MainLoop} {queue : LcoreRxQueue × Nat}
    (valid : queue.1.portId.toNat < rteMaxEthports)
    (balanced : loop.Balanced (build.bound env) conf received) :
    Outcome (MainLoop.Balanced (build.bound env) conf (received + (rx queue.2).nbRx))
      (¬ PortsExist tables conf)
      (lpmPollQueue (lpmSendPackets build env tables) rx loop queue) := by
  unfold lpmPollQueue
  by_cases empty : (rx queue.2).nbRx = 0
  · rw [if_pos empty, empty, Nat.add_zero]
    exact balanced
  · simp only [if_neg empty]
    let received := { loop.state with mbufs := (rx queue.2).fill loop.state.mbufs }
    have below : received.Below (build.bound env) := balanced.below
    apply (lpmSendPackets_outcome burst build lawful (rx queue.2).pktsBurst valid below
      (Nat.pos_of_ne_zero empty) (bursts queue.2)).bind
    intro result accounted
    have sent := accounted.after_rewrite
    have stepped := balanced.step sent.below sent.account
    rw [List.length_map, List.length_range] at stepped
    exact stepped

/-- How many packets an iteration receives. -/
def PollInput.received (input : PollInput) (queues : List LcoreRxQueue) : Nat :=
  (queues.zipIdx.map fun queue => (input.rx queue.2).nbRx).sum

theorem lpmPoll_outcome (build : Build) {tables : LpmTables} (lawful : tables.Lawful)
    {conf : LcoreConf} (rxPorts : ∀ queue ∈ conf.rxQueueList, queue.portId.toNat < rteMaxEthports)
    {input : PollInput} (bursts : ∀ i, (input.rx i).nbRx ≤ env.rxBurstSize) {loop : MainLoop}
    (balanced : loop.Balanced (build.bound env) conf received) :
    Outcome (MainLoop.Balanced (build.bound env) conf
        (received + input.received conf.rxQueueList))
      (¬ PortsExist tables conf) (lpmPoll (lpmSendPackets build env tables) env loop input) := by
  have drained : Outcome (MainLoop.Balanced (build.bound env) conf received)
      (¬ PortsExist tables conf) (drainIfDue env input.drain loop) := by
    unfold drainIfDue
    split
    · exact drainTxPorts_outcome burst build balanced
    · exact balanced
  refine drained.bind ?_
  intro loop balanced
  have sameList : loop.state.qconf.rxQueueList = conf.rxQueueList := by
    have same := congrArg LcoreConf.rxQueueList balanced.conf
    exact same
  rw [sameList]
  refine Outcome.foldlM (fun done : List (LcoreRxQueue × Nat) =>
    MainLoop.Balanced (build.bound env) conf
      (received + (done.map fun queue => (input.rx queue.2).nbRx).sum)) ?_ balanced
  intro done queue loop member balanced
  have valid := rxPorts queue.1 (List.fst_mem_of_mem_zipIdx member)
  rw [List.map_append, List.sum_append, List.map_singleton, List.sum_singleton,
    ← Nat.add_assoc]
  exact lpmPollQueue_outcome burst build lawful bursts valid balanced

/-- How many packets a run receives. -/
def receivedBy (queues : List LcoreRxQueue) (inputs : List PollInput) : Nat :=
  (inputs.map fun input => input.received queues).sum

theorem lpmMainLoop_outcome (build : Build) {tables : LpmTables} (lawful : tables.Lawful)
    {state : LcoreState} {inputs : List PollInput}
    (emptyBuffers : ∀ port, port < rteMaxEthports → state.txLen port = 0)
    (rxPorts : ∀ queue ∈ state.qconf.rxQueueList, queue.portId.toNat < rteMaxEthports)
    (bursts : ∀ input ∈ inputs, ∀ i, (input.rx i).nbRx ≤ env.rxBurstSize) :
    Outcome (MainLoop.Balanced (build.bound env) state.qconf
        (receivedBy state.qconf.rxQueueList inputs))
      (¬ PortsExist tables state.qconf) (lpmMainLoop build env tables state inputs) := by
  have nothing : state.waiting = 0 := by
    rw [LcoreState.waiting, List.sum_eq_zero_iff]
    intro len member
    rcases List.mem_map.mp member with ⟨port, inRange, rfl⟩
    exact emptyBuffers port (List.mem_range.mp inRange)
  have starts : MainLoop.Balanced (build.bound env) state.qconf 0 ⟨state, ⟨0, 0, 0⟩⟩ := by
    refine ⟨?_, rfl, 0, 0, by rw [nothing], rfl⟩
    intro port valid
    rw [emptyBuffers port valid]
    exact build.bound_pos burst
  unfold lpmMainLoop lpmMainLoopWith
  dsimp only
  split
  · rename_i noQueues
    have none : receivedBy state.qconf.rxQueueList inputs = 0 := by
      rw [receivedBy, List.sum_eq_zero_iff]
      intro count member
      rcases List.mem_map.mp member with ⟨input, _, rfl⟩
      rw [PollInput.received, noQueues]
      rfl
    rw [none]
    exact starts
  · refine Outcome.foldlM (fun done => MainLoop.Balanced (build.bound env) state.qconf
      (receivedBy state.qconf.rxQueueList done)) ?_ starts
    intro done input loop member balanced
    rw [receivedBy, List.map_append, List.sum_append, List.map_singleton, List.sum_singleton]
    exact lpmPoll_outcome burst build lawful rxPorts (bursts input member) balanced

end

/-- At every boundary of the loop, on both paths, all packets received are counted, and they
are those sent, those dropped and those waiting in the buffers. The run faults only if it is
told to use a port that does not exist. -/
theorem lpmMainLoop_accounts (build : Build) (env : Env) (tables : LpmTables)
    (lawful : tables.Lawful) (state : LcoreState) (inputs : List PollInput)
    (burst : 0 < env.rxBurstSize ∧ env.rxBurstSize ≤ maxPktBurst)
    (emptyBuffers : ∀ port, port < rteMaxEthports → state.txLen port = 0)
    (rxPorts : ∀ queue ∈ state.qconf.rxQueueList, queue.portId.toNat < rteMaxEthports)
    (bursts : ∀ input ∈ inputs, ∀ i, (input.rx i).nbRx ≤ env.rxBurstSize) :
    (∀ loop, lpmMainLoop build env tables state inputs = .ok loop →
      loop.stat.rx = BitVec.ofNat 64 (receivedBy state.qconf.rxQueueList inputs) ∧
      loop.stat.rx = loop.stat.tx + loop.stat.dropped + BitVec.ofNat 64 loop.state.waiting ∧
      (receivedBy state.qconf.rxQueueList inputs < 2 ^ 64 →
        loop.stat.rx.toNat =
          loop.stat.tx.toNat + loop.stat.dropped.toNat + loop.state.waiting)) ∧
    (PortsExist tables state.qconf →
      ∃ loop, lpmMainLoop build env tables state inputs = .ok loop) := by
  have outcome := lpmMainLoop_outcome burst build lawful emptyBuffers rxPorts bursts
  refine ⟨?_, ?_⟩
  · intro loop returned
    rcases (outcome.of_ok returned).counters with ⟨tx, dropped, sum, stat⟩
    refine ⟨by rw [stat], ?_, ?_⟩
    · rw [stat, sum]
      simp only [BitVec.ofNat_add]
    · intro small
      rw [stat]
      simp only [BitVec.toNat_ofNat]
      omega
  · intro exist
    rcases outcome.exists_ok (not_not_intro exist) with ⟨loop, returned, _⟩
    exact ⟨loop, returned⟩

/-- One queue, two bursts and a drain. -/
theorem lpmMainLoop_accounts_twoBursts :
    let env : Env := { (default : Env) with rxBurstSize := 32, txBurstSize := 32 }
    let state : LcoreState := { (default : LcoreState) with
      qconf := { (default : LcoreConf) with rxQueueList := [⟨1, 0⟩], txPortId := [1] } }
    let inputs : List PollInput := [⟨false, fun _ => ⟨[(4, default), (5, default)]⟩⟩,
      ⟨true, fun _ => ⟨[(4, default), (5, default)]⟩⟩]
    ∃ loop, lpmMainLoop .simd env (singleRouteTables 0#32) state inputs = .ok loop ∧
      loop.stat.rx = 4 ∧
      loop.stat.rx = loop.stat.tx + loop.stat.dropped + BitVec.ofNat 64 loop.state.waiting := by
  intro env state inputs
  have rxPorts : ∀ queue ∈ state.qconf.rxQueueList, queue.portId.toNat < rteMaxEthports := by
    decide
  have bursts : ∀ input ∈ inputs, ∀ i, (input.rx i).nbRx ≤ env.rxBurstSize := by
    intro input member i
    rcases List.mem_pair.mp member with rfl | rfl
    · exact Nat.le_of_ble_eq_true rfl
    · exact Nat.le_of_ble_eq_true rfl
  rcases lpmMainLoop_accounts .simd env (singleRouteTables 0#32)
    (singleRouteTables_lawful 0#32) state inputs ⟨by decide, by decide⟩ (fun _ _ => rfl)
    rxPorts bursts with ⟨accounts, returns⟩
  have exist : PortsExist (singleRouteTables 0#32) state.qconf := by
    refine ⟨?_, rxPorts, ?_, ?_⟩
    · intro port member
      rw [List.mem_singleton.mp member]
      decide
    · intro ip hop found
      rw [singleRouteTables_hop found]
      decide
    · intro ip hop found
      cases found
  rcases returns exist with ⟨loop, returned⟩
  rcases accounts loop returned with ⟨received, balanced, _⟩
  exact ⟨loop, returned, received, balanced⟩

end PacketForwarding.L3fwd
