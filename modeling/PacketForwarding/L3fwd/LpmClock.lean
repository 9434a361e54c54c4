import PacketForwarding.L3fwd.LpmDrain
import PacketForwarding.L3fwd.LpmPaths
import PacketForwarding.L3fwd.PollLoop

/-! # The polling loop of an LPM lcore with its clock

The loop decides by the clock when to drain. With these decisions its packets take the same
ways as in any other polling loop.
-/

namespace PacketForwarding.L3fwd

open Cells

/-! ## Draining by the clock -/

/-- What the iterations meet when the clock says whether to drain. -/
def timedInputs (drainTsc : BitVec 64) :
    BitVec 64 → BitVec 64 → List PollRound → List PollInput
  | _, _, [] => []
  | curTsc, prevTsc, round :: rounds =>
      let due := decide (Overdue drainTsc prevTsc curTsc)
      ⟨due, round.rx⟩ ::
        timedInputs drainTsc round.rteRdtsc (if due then curTsc else prevTsc) rounds

/-- `lpm_main_loop`, with the clock as it is read before the first iteration. -/
def lpmClockLoop (build : Build) (env : Env) (tables : LpmTables) (tscHz tsc : BitVec 64)
    (state : LcoreState) (rounds : List PollRound) : Except Fault MainLoop :=
  lpmMainLoop build env tables state (timedInputs (drainTsc tscHz) tsc tsc rounds)

/-- How the path sends a burst, without the statistics. -/
def lpmSender (build : Build) (env : Env) (tables : LpmTables) : BurstSender :=
  fun state nbRx pktsBurst portid => do
    let (state, _) ← lpmSendPackets build env tables state nbRx pktsBurst portid
    .ok state

section

variable (build : Build) (env : Env) (tables : LpmTables)

theorem drainTxPorts_state (loop : MainLoop) :
    (drainTxPorts env loop).map MainLoop.state = drainPorts env loop.state := by
  unfold drainTxPorts drainPorts
  apply Outcome.map_foldlM
  intro loop portid
  cases drainTxPort env loop.state portid with
  | error fault => rfl
  | ok result => rfl

theorem lpmPollQueue_state (rx : Nat → RxBurst) (loop : MainLoop) (queue : LcoreRxQueue × Nat) :
    (lpmPollQueue (lpmSendPackets build env tables) rx loop queue).map MainLoop.state =
      readRxQueue (lpmSender build env tables) rx loop.state queue := by
  unfold lpmPollQueue readRxQueue lpmSender
  by_cases empty : (rx queue.2).nbRx = 0
  · simp only [if_pos empty]
    rfl
  · simp only [if_neg empty]
    cases lpmSendPackets build env tables
        { loop.state with mbufs := (rx queue.2).fill loop.state.mbufs } (rx queue.2).nbRx
        (rx queue.2).pktsBurst queue.1.portId with
    | error fault => rfl
    | ok result => rfl

theorem lpmPoll_pollOnce (drainTsc curTsc prevTsc : BitVec 64) (rx : Nat → RxBurst)
    (loop : MainLoop) :
    let due := decide (Overdue drainTsc prevTsc curTsc)
    (lpmPoll (lpmSendPackets build env tables) env loop ⟨due, rx⟩).map
        (fun next => (⟨next.state, if due then curTsc else prevTsc⟩ : Poll)) =
      pollOnce env (lpmSender build env tables) drainTsc curTsc rx ⟨loop.state, prevTsc⟩ := by
  intro due
  let send := lpmSendPackets build env tables
  have queues : ∀ loop : MainLoop,
      (loop.state.qconf.rxQueueList.zipIdx.foldlM (lpmPollQueue send rx) loop).map
          MainLoop.state =
        loop.state.qconf.rxQueueList.zipIdx.foldlM
          (readRxQueue (lpmSender build env tables) rx) loop.state :=
    fun loop => Outcome.map_foldlM (lpmPollQueue_state build env tables rx) _ loop
  have rest : ∀ (last : BitVec 64) (loop : MainLoop),
      (loop.state.qconf.rxQueueList.zipIdx.foldlM (lpmPollQueue send rx) loop).map
          (fun next => (⟨next.state, last⟩ : Poll)) =
        (do
          let state ← loop.state.qconf.rxQueueList.zipIdx.foldlM
            (readRxQueue (lpmSender build env tables) rx) loop.state
          .ok ⟨state, last⟩ : Except Fault Poll) := by
    intro last loop
    rw [← queues loop]
    cases loop.state.qconf.rxQueueList.zipIdx.foldlM (lpmPollQueue send rx) loop with
    | error fault => rfl
    | ok next => rfl
  unfold lpmPoll pollOnce drainIfDue drainWhenDue
  by_cases isDue : Overdue drainTsc prevTsc curTsc
  · have flag : due = true := decide_eq_true isDue
    simp only [flag, if_true, if_pos isDue]
    rw [← drainTxPorts_state]
    cases drainTxPorts env loop with
    | error fault => rfl
    | ok next => exact rest curTsc next
  · have flag : due = false := decide_eq_false isDue
    simp only [flag, if_neg isDue]
    exact rest prevTsc loop

theorem lpmPolls_pollLoop (drainTsc : BitVec 64) :
    ∀ rounds curTsc prevTsc loop,
      ((timedInputs drainTsc curTsc prevTsc rounds).foldlM
          (lpmPoll (lpmSendPackets build env tables) env) loop).map MainLoop.state =
        (pollLoop env (lpmSender build env tables) drainTsc curTsc rounds
          ⟨loop.state, prevTsc⟩).map Poll.state
  | [], _, _, _ => rfl
  | round :: rounds, curTsc, prevTsc, loop => by
      rw [timedInputs, pollLoop, List.foldlM_cons, ← lpmPoll_pollOnce]
      cases lpmPoll (lpmSendPackets build env tables) env loop
          ⟨decide (Overdue drainTsc prevTsc curTsc), round.rx⟩ with
      | error fault => rfl
      | ok next => exact lpmPolls_pollLoop drainTsc rounds round.rteRdtsc _ next

/-- The loop with statistics does with its packets what the loop without them does. -/
theorem lpmClockLoop_state (tscHz tsc : BitVec 64) (state : LcoreState)
    (rounds : List PollRound) :
    (lpmClockLoop build env tables tscHz tsc state rounds).map MainLoop.state =
      (pollMainLoop env (lpmSender build env tables) tscHz tsc state rounds).map Poll.state := by
  unfold lpmClockLoop lpmMainLoop lpmMainLoopWith pollMainLoop
  by_cases idle : state.qconf.rxQueueList = []
  · simp only [if_pos idle]
    rfl
  · simp only [if_neg idle]
    exact lpmPolls_pollLoop build env tables (drainTsc tscHz) rounds tsc tsc _

end

/-! ## What the path relays -/

/-- Each packet is sent to the port that is found for it, behind the checks of the build. -/
def lpmDstPort (build : Build) (env : Env) (tables : LpmTables) : BurstPorts :=
  fun burst portid i =>
    let pkt := burst.packet i
    match build with
    | .simd => (vectorFate env pkt (lpmGetDstPort tables pkt portid)).port
    | .generic => (lpmSimpleFate env tables pkt portid).port

/-- What is sent one by one is in different mbufs. -/
def LpmFine (build : Build) (burst : RxBurst) : Prop :=
  match build with
  | .simd => True
  | .generic => burst.Distinct

section

variable {allowed : BitVec 16 → Prop} (exist : ∀ port, allowed port → port.toNat < rteMaxEthports)
  {tables : LpmTables}
  (within : ∀ pkt portid, allowed portid → allowed (lpmGetDstPort tables pkt portid))

include exist

theorem disposeOf_relayed {env : Env}
    (burst : 0 < env.rxBurstSize ∧ env.rxBurstSize ≤ maxPktBurst) {state : LcoreState}
    (below : state.Below env.rxBurstSize) (m : MbufPtr) (left : RteMbuf) {fate : Fate}
    (toPort : ∀ sent, fate = some sent → allowed sent.2) :
    Outcome (fun result => Relayed allowed env.rxBurstSize state [(m, fate.port)] result.1) False
      (disposeOf env state m left fate) := by
  cases fate with
  | none => exact (Relayed.free below [(m, badPort)]).rewritten _
  | some sent =>
      have isAllowed := toPort sent rfl
      unfold disposeOf sendCounted
      simp only [LcoreState.txTable_ok _ (exist sent.2 isAllowed)]
      apply (sendRewritten_relayed exist burst below m sent.1 isAllowed).bind
      rintro ⟨last, count⟩ ⟨relayed, _⟩
      exact relayed

include within

omit exist in
/-- Where the generic path sends a packet. -/
theorem lpmSimpleFate_allowed {env : Env} {pkt : RteMbuf} {portid : BitVec 16}
    (incoming : allowed portid) :
    ∀ sent, lpmSimpleFate env tables pkt portid = some sent → allowed sent.2 := by
  intro sent fate
  rw [(lpmSimpleFate_some fate).1, enabledPort]
  split
  · exact incoming
  · exact within pkt portid incoming

theorem l3fwdLpmNoOptSendPackets_relayed {env : Env}
    (sizes : 0 < env.rxBurstSize ∧ env.rxBurstSize ≤ maxPktBurst) {state : LcoreState}
    (below : state.Below env.rxBurstSize) {burst : RxBurst} (distinct : burst.Distinct)
    {portid : BitVec 16} (incoming : allowed portid) :
    Outcome (fun result => Relayed allowed env.rxBurstSize state
        (burst.handed (lpmDstPort .generic env tables burst portid)) result.1) False
      (l3fwdLpmNoOptSendPackets env tables { state with mbufs := burst.fill state.mbufs }
        burst.nbRx burst.pktsBurst portid) := by
  rw [l3fwdLpmNoOptSendPackets_eq env tables _ portid distinct.pktsBurst]
  apply Outcome.foldlM (fun (done : List Nat) (result : LcoreState × TxStats) =>
    Relayed allowed env.rxBurstSize state (done.map fun i =>
      (burst.pktsBurst i, lpmDstPort .generic env tables burst portid i)) result.1)
  · intro done i result member relayed
    have packet := burst.fill_pktsBurst state.mbufs (List.mem_range.mp member)
    rw [List.map_append]
    unfold lpmDispose
    simp only [packet]
    apply (disposeOf_relayed exist sizes relayed.below (burst.pktsBurst i) _
      (lpmSimpleFate_allowed within incoming)).bind
    rintro ⟨last, ret⟩ disposed
    exact relayed.trans disposed
  · exact (Relayed.refl below).rewritten _

theorem l3fwdLpmSendPackets_relayed (env : Env) (lawful : tables.Lawful) {state : LcoreState}
    (room : state.HasRoom) (burst : RxBurst) (positive : 0 < burst.nbRx)
    (inside : burst.nbRx ≤ maxPktBurst) {portid : BitVec 16} (incoming : allowed portid) :
    Outcome (fun result => Relayed allowed maxPktBurst state
        (burst.handed (lpmDstPort .simd env tables burst portid)) result.1) False
      (l3fwdLpmSendPackets env tables { state with mbufs := burst.fill state.mbufs } burst.nbRx
        burst.pktsBurst portid) := by
  have small : portid.toNat < 2 ^ 15 := Nat.lt_trans (exist portid incoming) (by decide)
  have received : LcoreState.HasRoom { state with mbufs := burst.fill state.mbufs } := room
  have looked := l3fwdLpmProcessPackets_lookup env lawful (burst.fill state.mbufs) burst.nbRx
    burst.pktsBurst env.stack small
  let ports := assign (lpmPort tables (burst.fill state.mbufs) burst.pktsBurst portid) 0 burst.nbRx
    env.stack
  have isPort : ∀ i, i < burst.nbRx → ports i = lpmGetDstPort tables (burst.packet i) portid := by
    intro i inBurst
    have assigned : ports i = lpmPort tables (burst.fill state.mbufs) burst.pktsBurst portid i :=
      if_pos (by omega)
    rw [assigned, lpmPort, burst.fill_pktsBurst state.mbufs inBurst]
  have same : burst.handed (lpmDstPort .simd env tables burst portid) =
      (List.range burst.nbRx).map fun i => (burst.pktsBurst i,
        (burst.fill state.mbufs (burst.pktsBurst i)).checkedPort (ports i)) := by
    apply burst.handed_congr
    intro i inBurst
    rw [isPort i inBurst, burst.fill_pktsBurst state.mbufs inBurst, lpmDstPort]
    exact vectorFate_port env _ _
  simp only [l3fwdLpmSendPackets, looked]
  rw [same]
  have enabled : ∀ i, i < burst.nbRx → allowed (ports i) := by
    intro i inBurst
    rw [isPort i inBurst]
    exact within _ portid incoming
  apply (sendPacketsMulti_relayed exist env burst.pktsBurst ports received positive inside
    enabled).imp _ id
  rintro ⟨last, stats⟩ relayed
  exact Relayed.of_rewritten relayed

theorem lpmSender_relays (build : Build) {env : Env}
    (sizes : 0 < env.rxBurstSize ∧ env.rxBurstSize ≤ maxPktBurst) (lawful : tables.Lawful) :
    Relays env allowed (build.bound env) (LpmFine build) (lpmDstPort build env tables)
      (lpmSender build env tables) where
  exist := exist
  positive := build.bound_pos sizes
  small := build.bound_le sizes
  relays := by
    intro state burst portid below positive inside fine incoming
    cases build with
    | simd =>
        apply (l3fwdLpmSendPackets_relayed exist within env lawful below burst positive
          (Nat.le_trans inside sizes.2) incoming).bind
        rintro ⟨last, stats⟩ relayed
        exact relayed
    | generic =>
        apply (l3fwdLpmNoOptSendPackets_relayed exist within sizes below fine incoming).bind
        rintro ⟨last, stats⟩ relayed
        exact relayed

end

/-! ## The main loop -/

/-- The loop with statistics returns where the loop without them does. -/
theorem lpmClockLoop_of_poll {build : Build} {env : Env} {tables : LpmTables}
    {tscHz tsc : BitVec 64} {start : LcoreState} {rounds : List PollRound} {poll : Poll}
    (returned : pollMainLoop env (lpmSender build env tables) tscHz tsc start rounds = .ok poll) :
    ∃ loop, lpmClockLoop build env tables tscHz tsc start rounds = .ok loop ∧
      loop.state = poll.state := by
  have same := lpmClockLoop_state build env tables tscHz tsc start rounds
  rw [returned] at same
  cases ran : lpmClockLoop build env tables tscHz tsc start rounds with
  | error fault =>
      rw [ran] at same
      cases same
  | ok loop =>
      rw [ran] at same
      exact ⟨loop, rfl, Except.ok.inj same⟩

/-- A path with tables as they are set up relays to ports that are set up. -/
theorem setupLpm_relays {eal : Eal} {mask : BitVec 32} {lib : RteLpm} (lawful : lib.Lawful)
    {routes rules : LpmRoutes} (tablesSetUp : setupLpm eal mask lib routes = some rules)
    (build : Build) {env : Env} (sizes : 0 < env.rxBurstSize ∧ env.rxBurstSize ≤ maxPktBurst) :
    Relays env (· ∈ enabledPorts eal mask) (build.bound env) (LpmFine build)
      (lpmDstPort build env (lib.tables rules)) (lpmSender build env (lib.tables rules)) := by
  have enabled := setupLpm_enabled tablesSetUp
  exact lpmSender_relays enabledPorts_exist
    (fun pkt _ incoming => enabled.lpmGetDstPort lawful pkt incoming) build sizes
    (LpmRoutes.Enabled.tables_lawful lawful)

/-- With ports, lcores and tables as they are set up, an LPM lcore never faults, and it
conveys its packets to ports that are set up, each to the port that is found for it. -/
theorem lpmClockLoop_conveyed (build : Build) (env : Env)
    (sizes : 0 < env.rxBurstSize ∧ env.rxBurstSize ≤ maxPktBurst) {eal : Eal}
    {params : List LcoreParams} {mask : BitVec 32} {addrs : EthAddrs} {setup : SetupState}
    (setUp : l3fwdPollResourceSetup eal params mask addrs = some setup) {lib : RteLpm}
    (lawful : lib.Lawful) {routes rules : LpmRoutes}
    (tablesSetUp : setupLpm eal mask lib routes = some rules) (lcore : Nat) (mbufs : MbufHeap)
    (tscHz tsc : BitVec 64) {rounds : List PollRound}
    (bursts : ∀ round ∈ rounds, ∀ i,
      (round.rx i).nbRx ≤ env.rxBurstSize ∧ LpmFine build (round.rx i)) :
    let start := LcoreState.launched mbufs (setup.lcoreConf lcore)
    ∃ loop, lpmClockLoop build env (lib.tables rules) tscHz tsc start rounds = .ok loop ∧
      Conveyed (· ∈ enabledPorts eal mask) (lpmDstPort build env (lib.tables rules)) start
        (drainTsc tscHz) tsc (pollHeads tsc rounds) loop.state := by
  intro start
  have relays := setupLpm_relays lawful tablesSetUp build sizes
  rcases (launched_setUp setUp lcore mbufs).conveyed relays (fun _ member => member) tscHz tsc
    bursts with ⟨poll, returned, conveyed⟩
  rcases lpmClockLoop_of_poll returned with ⟨loop, ran, isState⟩
  rw [← isState] at conveyed
  exact ⟨loop, ran, conveyed⟩

/-- Two routes to enabled ports, and one that is skipped. -/
def threeRoutes : LpmRoutes :=
  ⟨[⟨0x0a000000#32, 8#8, 0#8⟩, ⟨0x0b000000#32, 8#8, 5#8⟩, ⟨0x0a010000#32, 16#8, 1#8⟩], []⟩

theorem lpmClockLoop_conveyed_single :
    ∃ setup rules, l3fwdPollResourceSetup twoPortEal threeQueues 0x3#32
        ⟨fun _ => 0, fun _ => 0, fun _ => 0⟩ = some setup ∧
      setupLpm twoPortEal 0x3#32 prefixLpm threeRoutes = some rules ∧
      let env : Env := { (default : Env) with rxBurstSize := 32, txBurstSize := 32 }
      let start := LcoreState.launched default (setup.lcoreConf 2)
      let rounds := [PollRound.single 7 routedPacket 1000#64,
        PollRound.single 8 routedPacket 2000#64]
      lpmDstPort .simd env (prefixLpm.tables rules) ⟨[(7, routedPacket)]⟩ 0#16 0 = 1#16 ∧
      ∃ loop, lpmClockLoop .simd env (prefixLpm.tables rules) 3000000000#64 0#64 start rounds =
          .ok loop ∧
        Conveyed (· ∈ enabledPorts twoPortEal 0x3#32)
          (lpmDstPort .simd env (prefixLpm.tables rules)) start (drainTsc 3000000000#64) 0#64
          (pollHeads 0#64 rounds) loop.state := by
  rcases twoPort_setUp with ⟨setup, setUp⟩
  refine ⟨setup, _, setUp, rfl, ?_⟩
  intro env start rounds
  refine ⟨by decide +kernel, ?_⟩
  have fits := fun m => PollRound.single_cases m routedPacket
    (p := fun burst => burst.nbRx ≤ env.rxBurstSize ∧ LpmFine .simd burst)
    ⟨Nat.zero_le _, trivial⟩ ⟨Nat.le_of_ble_eq_true rfl, trivial⟩
  have tablesSetUp : setupLpm twoPortEal 0x3#32 prefixLpm threeRoutes = some _ := rfl
  apply lpmClockLoop_conveyed .simd env ⟨by decide, by decide⟩ setUp prefixLpm_lawful tablesSetUp
  intro round member i
  rcases List.mem_pair.mp member with rfl | rfl
  · exact fits 7 1000#64 i
  · exact fits 8 2000#64 i

end PacketForwarding.L3fwd
