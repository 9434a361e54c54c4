import PacketForwarding.L3fwd.EmVector
import PacketForwarding.L3fwd.PollLoop

/-! # The polling loop of an exact match lcore

A lookup falls back to the port that a packet came from unless it finds a port that is enabled.
So whatever the tables hold, packets only go to enabled ports.
-/

namespace PacketForwarding.L3fwd

open Cells

/-! ## Sending a burst -/

/-- Buffer optimized handling of packets. -/
def l3fwdEmSendPackets (env : Env) (tables : EmTables) (state : LcoreState) (nbRx : Nat)
    (pktsBurst : Nat → MbufPtr) (portid : BitVec 16) : Except Fault LcoreState := do
  let (mbufs, dstPort) :=
    l3fwdEmProcessPackets env tables state.mbufs nbRx pktsBurst env.stack portid false
  let (state, _) ← sendPacketsMulti env { state with mbufs := mbufs } pktsBurst dstPort nbRx
  .ok state

/-- The same with `NO_HASH_LOOKUP_MULTI`. -/
def Sequential.l3fwdEmSendPackets (env : Env) (tables : EmTables) (state : LcoreState) (nbRx : Nat)
    (pktsBurst : Nat → MbufPtr) (portid : BitVec 16) : Except Fault LcoreState := do
  let dstPort := (List.range nbRx).foldl (fun dstPort j => Function.update dstPort j
    (Sequential.emGetDstPort env tables (state.mbufs (pktsBurst j)) portid)) env.stack
  let (state, _) ← sendPacketsMulti env state pktsBurst dstPort nbRx
  .ok state

/-- Forward `count` packets from position `j` on. -/
def emForwardLoop (env : Env) (tables : EmTables) (pktsBurst : Nat → MbufPtr)
    (portid : BitVec 16) (j count : Nat) (state : LcoreState) : Except Fault LcoreState :=
  (List.range' j count).foldlM (fun state j =>
    l3fwdEmSimpleForward env tables state (pktsBurst j) portid) state

def l3fwdEmNoOptSendPackets (env : Env) (tables : EmTables) (state : LcoreState) (nbRx : Nat)
    (pktsBurst : Nat → MbufPtr) (portid : BitVec 16) : Except Fault LcoreState := do
  -- prefetch and forward already prefetched packets
  let j := nbRx - prefetchOffset
  let state ← emForwardLoop env tables pktsBurst portid 0 j state
  -- forward remaining prefetched packets
  emForwardLoop env tables pktsBurst portid j (nbRx - j) state

/-- Which of the three functions the program was built with. -/
inductive EmBuild
  | hashLookupMulti
  | hashLookupSingle
  | generic

def emSendPackets (build : EmBuild) (env : Env) (tables : EmTables) : BurstSender :=
  match build with
  | .hashLookupMulti => l3fwdEmSendPackets env tables
  | .hashLookupSingle => Sequential.l3fwdEmSendPackets env tables
  | .generic => l3fwdEmNoOptSendPackets env tables

/-- The main processing loop. -/
def emMainLoop (build : EmBuild) (env : Env) (tables : EmTables) (tscHz tsc : BitVec 64)
    (state : LcoreState) (rounds : List PollRound) : Except Fault Poll :=
  pollMainLoop env (emSendPackets build env tables) tscHz tsc state rounds

/-! ## Only enabled ports are used -/

section

variable {env : Env} {portid : BitVec 16} (incoming : PortEnabled env portid)

include incoming

theorem enabledPort_enabled (dstPort : BitVec 16) :
    PortEnabled env (enabledPort env dstPort portid) := by
  unfold enabledPort
  split
  · exact incoming
  · rename_i inRange
    rcases not_or.mp inRange with ⟨valid, isSet⟩
    exact ⟨Nat.lt_of_not_le valid, Bool.eq_true_of_not_eq_false isSet⟩

theorem emGetDstPort_enabled (tables : EmTables) (pkt : RteMbuf) :
    PortEnabled env (emGetDstPort env tables pkt portid) := by
  unfold emGetDstPort
  split
  · exact enabledPort_enabled incoming _
  · split
    · exact enabledPort_enabled incoming _
    · exact incoming

theorem Sequential.emGetDstPort_enabled (tables : EmTables) (pkt : RteMbuf) :
    PortEnabled env (Sequential.emGetDstPort env tables pkt portid) := by
  unfold Sequential.emGetDstPort
  dsimp only
  split
  · exact enabledPort_enabled incoming _
  · split
    · exact enabledPort_enabled incoming _
    · exact incoming

theorem emGroupPort_enabled (tables : EmTables) (pktType : BitVec 32) (pkt : RteMbuf) :
    PortEnabled env (emGroupPort env tables pktType pkt portid) := by
  unfold emGroupPort
  split
  · exact enabledPort_enabled incoming _
  · split
    · exact enabledPort_enabled incoming _
    · exact emGetDstPort_enabled incoming tables _

end

/-! ## Where packets are sent -/

/-- The port that is looked up for packet `i` of a burst. In a group of eight, the types that
the group has in common decide on the table. -/
def emBurstPort (env : Env) (tables : EmTables) (burst : RxBurst) (portid : BitVec 16) (i : Nat) :
    BitVec 16 :=
  let first := i / emHashLookupCount * emHashLookupCount
  if i < burst.nbRx / emHashLookupCount * emHashLookupCount then
    emGroupPort env tables
      (groupType (burst.fill fun _ => default) fun i => burst.pktsBurst (first + i))
      (burst.packet i) portid
  else
    emGetDstPort env tables (burst.packet i) portid

/-- The port of each packet in the three builds, behind the checks of the build. -/
def emDstPort (build : EmBuild) (env : Env) (tables : EmTables) : BurstPorts :=
  fun burst portid i =>
    let pkt := burst.packet i
    match build with
    | .hashLookupMulti => (vectorFate env pkt (emBurstPort env tables burst portid i)).port
    | .hashLookupSingle =>
        (vectorFate env pkt (Sequential.emGetDstPort env tables pkt portid)).port
    | .generic => (emSimpleFate env tables pkt portid).port

theorem emBurstPort_enabled {env : Env} {portid : BitVec 16} (incoming : PortEnabled env portid)
    (tables : EmTables) (burst : RxBurst) (i : Nat) :
    PortEnabled env (emBurstPort env tables burst portid i) := by
  unfold emBurstPort
  dsimp only
  split
  · exact emGroupPort_enabled incoming tables _ _
  · exact emGetDstPort_enabled incoming tables _

/-- Every packet of a burst gets its port, in a group of eight or on its own. -/
theorem l3fwdEmProcessPackets_port (env : Env) {tables : EmTables} (lawful4 : tables.ipv4.Lawful)
    (lawful6 : tables.ipv6.Lawful) (mbufs : MbufHeap) (burst : RxBurst) (dstPort : Nat → BitVec 16)
    (portid : BitVec 16) {i : Nat} (inside : i < burst.nbRx) :
    (l3fwdEmProcessPackets env tables (burst.fill mbufs) burst.nbRx burst.pktsBurst dstPort portid
      false).2 i = emBurstPort env tables burst portid i := by
  rcases l3fwdEmProcessPackets_ports env (burst.fill mbufs) burst.pktsBurst portid burst.nbRx
    dstPort with ⟨grouped, alone, _⟩
  unfold emBurstPort
  by_cases inGroups : i < burst.nbRx / emHashLookupCount * emHashLookupCount
  · have split := Nat.div_add_mod' i emHashLookupCount
    have group : i / emHashLookupCount < burst.nbRx / emHashLookupCount :=
      Nat.div_lt_of_lt_mul (by rw [Nat.mul_comm]; exact inGroups)
    have inGroup : i % emHashLookupCount < emHashLookupCount := Nat.mod_lt i (by decide)
    have port := grouped _ group _ inGroup
    rw [emGroupPorts_eq env lawful4 lawful6 _ _ _ _ inGroup, split,
      burst.fill_pktsBurst mbufs inside] at port
    rw [port, if_pos inGroups]
    congr 1
    apply groupType_congr
    intro other within
    have whole : (burst.nbRx / emHashLookupCount) * emHashLookupCount ≤ burst.nbRx :=
      Nat.div_mul_le_self _ _
    have later : (i / emHashLookupCount + 1) * emHashLookupCount ≤
        burst.nbRx / emHashLookupCount * emHashLookupCount := Nat.mul_le_mul_right _ group
    rw [Nat.add_mul, Nat.one_mul] at later
    have inBurst : i / emHashLookupCount * emHashLookupCount + other < burst.nbRx := by omega
    rw [burst.fill_pktsBurst mbufs inBurst, ← burst.fill_pktsBurst (fun _ => default) inBurst]
  · rw [alone i (Nat.le_of_not_lt inGroups) inside, if_neg inGroups,
      burst.fill_pktsBurst mbufs inside]

/-! ## Bursts in groups -/

theorem l3fwdEmSendPackets_relayed (env : Env) {tables : EmTables}
    (lawful4 : tables.ipv4.Lawful) (lawful6 : tables.ipv6.Lawful) {state : LcoreState}
    (burst : RxBurst) {portid : BitVec 16} (room : state.HasRoom) (positive : 0 < burst.nbRx)
    (inside : burst.nbRx ≤ maxPktBurst) (incoming : PortEnabled env portid) :
    Outcome (Relayed (PortEnabled env) maxPktBurst state
        (burst.handed (emDstPort .hashLookupMulti env tables burst portid))) False
      (l3fwdEmSendPackets env tables { state with mbufs := burst.fill state.mbufs } burst.nbRx
        burst.pktsBurst portid) := by
  have ports := fun i (inBurst : i < burst.nbRx) =>
    l3fwdEmProcessPackets_port env lawful4 lawful6 state.mbufs burst env.stack portid inBurst
  have packets : (l3fwdEmProcessPackets env tables (burst.fill state.mbufs) burst.nbRx
      burst.pktsBurst env.stack portid false).1 = burst.fill state.mbufs :=
    (l3fwdEmProcessPackets_ports env (burst.fill state.mbufs) burst.pktsBurst portid burst.nbRx
      env.stack).2.2
  unfold l3fwdEmSendPackets
  have processed : LcoreState.HasRoom { state with
      mbufs := (l3fwdEmProcessPackets env tables (burst.fill state.mbufs) burst.nbRx
        burst.pktsBurst env.stack portid false).1 } := room
  apply (sendPacketsMulti_relayed PortEnabled.exist env burst.pktsBurst _ processed positive inside
    (fun i inBurst => (ports i inBurst).symm ▸ emBurstPort_enabled incoming tables burst i)).bind
  rintro ⟨last, stats⟩ relayed
  have same : (List.range burst.nbRx).map (fun i => (burst.pktsBurst i,
      ((l3fwdEmProcessPackets env tables (burst.fill state.mbufs) burst.nbRx burst.pktsBurst
        env.stack portid false).1 (burst.pktsBurst i)).checkedPort ((l3fwdEmProcessPackets env
          tables (burst.fill state.mbufs) burst.nbRx burst.pktsBurst env.stack portid false).2
            i))) =
      burst.handed (emDstPort .hashLookupMulti env tables burst portid) := by
    apply burst.handed_congr
    intro i inBurst
    rw [packets, ports i inBurst, burst.fill_pktsBurst state.mbufs inBurst, emDstPort]
    exact (vectorFate_port env _ _).symm
  rw [← same]
  exact Relayed.of_rewritten relayed

theorem foldl_update_of_lt {α : Type} (port : Nat → α) (start : Nat → α) {i : Nat} :
    ∀ {count}, i < count →
      (List.range count).foldl (fun ports j => Function.update ports j (port j)) start i = port i
  | count + 1, below => by
      rw [List.range_succ, List.foldl_append, List.foldl_cons, List.foldl_nil]
      by_cases last : i = count
      · rw [last, Function.update_self]
      · rw [Function.update_of_ne last]
        exact foldl_update_of_lt port start (by omega)

theorem Sequential.l3fwdEmSendPackets_relayed (env : Env) (tables : EmTables)
    {state : LcoreState} (burst : RxBurst) {portid : BitVec 16} (room : state.HasRoom)
    (positive : 0 < burst.nbRx) (inside : burst.nbRx ≤ maxPktBurst)
    (incoming : PortEnabled env portid) :
    Outcome (Relayed (PortEnabled env) maxPktBurst state
        (burst.handed (emDstPort .hashLookupSingle env tables burst portid))) False
      (Sequential.l3fwdEmSendPackets env tables { state with mbufs := burst.fill state.mbufs }
        burst.nbRx burst.pktsBurst portid) := by
  have received : LcoreState.HasRoom { state with mbufs := burst.fill state.mbufs } := room
  let ports := (List.range burst.nbRx).foldl (fun dstPort j => Function.update dstPort j
    (Sequential.emGetDstPort env tables (burst.fill state.mbufs (burst.pktsBurst j)) portid))
    env.stack
  have isPort : ∀ i, i < burst.nbRx →
      ports i = Sequential.emGetDstPort env tables (burst.packet i) portid := by
    intro i inBurst
    rw [← burst.fill_pktsBurst state.mbufs inBurst]
    exact foldl_update_of_lt _ env.stack inBurst
  have enabled : ∀ i, i < burst.nbRx → PortEnabled env (ports i) := by
    intro i inBurst
    rw [isPort i inBurst]
    exact Sequential.emGetDstPort_enabled incoming tables _
  unfold Sequential.l3fwdEmSendPackets
  apply (sendPacketsMulti_relayed PortEnabled.exist env burst.pktsBurst ports received positive
    inside enabled).bind
  rintro ⟨last, stats⟩ relayed
  have same : (List.range burst.nbRx).map (fun i => (burst.pktsBurst i,
      (burst.fill state.mbufs (burst.pktsBurst i)).checkedPort (ports i))) =
      burst.handed (emDstPort .hashLookupSingle env tables burst portid) := by
    apply burst.handed_congr
    intro i inBurst
    rw [isPort i inBurst, burst.fill_pktsBurst state.mbufs inBurst, emDstPort]
    exact (vectorFate_port env _ _).symm
  rw [← same]
  exact Relayed.of_rewritten relayed

/-! ## Packets one by one -/

theorem sendHandled_relayed {env : Env}
    (burst : 0 < env.rxBurstSize ∧ env.rxBurstSize ≤ maxPktBurst) {state : LcoreState}
    (below : state.Below env.rxBurstSize) (m : MbufPtr) {result : Handled}
    (kept : result.freed = false) (toPort : PortEnabled env result.dstPort) :
    Outcome (fun last =>
        Relayed (PortEnabled env) env.rxBurstSize state [(m, result.dstPort)] last ∧
          ∀ other, other ≠ m → last.mbufs other = state.mbufs other) False (do
      let (state, _) ← sendSinglePacket env (state.handled m result) m result.dstPort
      .ok state : Except Fault LcoreState) := by
  have isHandled : state.handled m result = state.setMbuf m result.pkt := by
    simp [LcoreState.handled, kept]
  rw [isHandled]
  apply (sendRewritten_relayed PortEnabled.exist burst below m result.pkt toPort).bind
  rintro ⟨last, sent⟩ relayed
  exact relayed

theorem l3fwdEmSimpleForward_relayed {env : Env}
    (burst : 0 < env.rxBurstSize ∧ env.rxBurstSize ≤ maxPktBurst) (tables : EmTables)
    {state : LcoreState} (below : state.Below env.rxBurstSize) (m : MbufPtr) {portid : BitVec 16}
    (incoming : PortEnabled env portid) :
    Outcome (fun last => Relayed (PortEnabled env) env.rxBurstSize state
          [(m, (emSimpleFate env tables (state.mbufs m) portid).port)] last ∧
        ∀ other, other ≠ m → last.mbufs other = state.mbufs other)
      (EmRefused env (state.mbufs m)) (l3fwdEmSimpleForward env tables state m portid) := by
  have sends : ∀ {result : Handled}, result.freed = false →
      (if result.freed then none else some (result.pkt, result.dstPort) : Fate).port =
        result.dstPort := by
    intro result kept
    rw [kept]
    rfl
  unfold l3fwdEmSimpleForward emSimpleFate
  by_cases isIpv4 : IsEmIpv4 (state.mbufs m)
  · simp only [if_pos isIpv4]
    by_cases refused : (isValidIpv4Pkt env (state.mbufs m).data (state.mbufs m).pktLen
        (state.mbufs m).olFlags).2 < 0
    · have notPort : ¬ badPort.toNat < rteMaxEthports := by decide
      simp only [l3fwdEmHandleIpv4, if_pos refused]
      rw [sendSinglePacket_invalidPort env _ m notPort]
      exact ⟨isIpv4, refused⟩
    · have kept : (l3fwdEmHandleIpv4 env tables (state.mbufs m) portid).freed = false := by
        simp only [l3fwdEmHandleIpv4, if_neg refused]
      rw [sends kept]
      apply (sendHandled_relayed burst below m kept _).imp (fun _ good => good) False.elim
      simp only [l3fwdEmHandleIpv4, if_neg refused]
      exact enabledPort_enabled incoming _
  · simp only [if_neg isIpv4]
    by_cases isIpv6 : IsEmIpv6 (state.mbufs m)
    · simp only [if_pos isIpv6]
      have kept : (l3fwdEmHandleIpv6 env tables (state.mbufs m) portid).freed = false := rfl
      rw [sends kept]
      apply (sendHandled_relayed burst below m kept _).imp (fun _ good => good) False.elim
      exact enabledPort_enabled incoming _
    · simp only [if_neg isIpv6]
      exact ⟨Relayed.free below [(m, badPort)], fun _ _ => rfl⟩

/-- The two loops of the generic path are one loop over the burst. -/
theorem l3fwdEmNoOptSendPackets_eq (env : Env) (tables : EmTables) (state : LcoreState)
    (burst : RxBurst) (portid : BitVec 16) :
    l3fwdEmNoOptSendPackets env tables state burst.nbRx burst.pktsBurst portid =
      burst.packets.foldlM (fun state packet =>
        l3fwdEmSimpleForward env tables state packet.1 portid) state := by
  have whole : List.range burst.nbRx =
      List.range' 0 (burst.nbRx - prefetchOffset) ++
        List.range' (burst.nbRx - prefetchOffset)
          (burst.nbRx - (burst.nbRx - prefetchOffset)) := by
    have joined := List.range'_append_1 (s := 0) (m := burst.nbRx - prefetchOffset)
      (n := burst.nbRx - (burst.nbRx - prefetchOffset))
    rw [Nat.zero_add] at joined
    rw [joined, List.range_eq_range', Nat.add_sub_cancel' (Nat.sub_le _ _)]
  rw [← burst.foldlM_pktsBurst (fun state m => l3fwdEmSimpleForward env tables state m portid),
    whole, List.foldlM_append]
  rfl

/-- Packets that the generic path can forward: in different mbufs, and none is refused. -/
def EmFine (env : Env) (burst : RxBurst) : Prop :=
  burst.Distinct ∧ ∀ packet ∈ burst.packets, ¬ EmRefused env packet.2

/-- Part of a burst was forwarded, and the packets that are still ahead are in their mbufs as
the driver left them there. -/
structure EmForwarded (env : Env) (tables : EmTables) (portid : BitVec 16) (burst : RxBurst)
    (state : LcoreState) (done : List (MbufPtr × RteMbuf)) (last : LcoreState) : Prop where
  relayed : Relayed (PortEnabled env) env.rxBurstSize state
    (done.map fun packet => (packet.1, (emSimpleFate env tables packet.2 portid).port)) last
  ahead : ∀ packet ∈ burst.packets, packet.1 ∉ done.map Prod.fst →
    last.mbufs packet.1 = packet.2

theorem l3fwdEmNoOptSendPackets_relayed {env : Env}
    (sizes : 0 < env.rxBurstSize ∧ env.rxBurstSize ≤ maxPktBurst) (tables : EmTables)
    {state : LcoreState} (below : state.Below env.rxBurstSize) {burst : RxBurst}
    (fine : EmFine env burst) {portid : BitVec 16} (incoming : PortEnabled env portid) :
    Outcome (Relayed (PortEnabled env) env.rxBurstSize state
        (burst.handed (emDstPort .generic env tables burst portid))) False
      (l3fwdEmNoOptSendPackets env tables { state with mbufs := burst.fill state.mbufs }
        burst.nbRx burst.pktsBurst portid) := by
  rcases fine with ⟨distinct, accepted⟩
  have starts : EmForwarded env tables portid burst state []
      { state with mbufs := burst.fill state.mbufs } := by
    refine ⟨?_, fun packet member _ => burst.fill_of_mem distinct state.mbufs member⟩
    exact (Relayed.refl below).rewritten (burst.fill state.mbufs)
  have steps : ∀ done (packet : MbufPtr × RteMbuf) rest last,
      burst.packets = done ++ packet :: rest →
      EmForwarded env tables portid burst state done last →
      Outcome (EmForwarded env tables portid burst state (done ++ [packet])) False
        (l3fwdEmSimpleForward env tables last packet.1 portid) := by
    intro done packet rest last split forwarded
    have member : packet ∈ burst.packets := by
      rw [split]
      exact List.mem_append_right done List.mem_cons_self
    have new : packet.1 ∉ done.map Prod.fst := by
      intro isDone
      rw [RxBurst.Distinct, split, List.map_append, List.map_cons, List.nodup_append] at distinct
      exact distinct.2.2 packet.1 isDone packet.1 List.mem_cons_self rfl
    have asReceived := forwarded.ahead packet member new
    have step := l3fwdEmSimpleForward_relayed sizes tables forwarded.relayed.below packet.1 incoming
    rw [asReceived] at step
    apply step.imp
    · rintro next ⟨relayed, others⟩
      constructor
      · rw [List.map_append]
        exact forwarded.relayed.trans relayed
      · intro other isOther absent
        rw [List.map_append, List.mem_append, not_or] at absent
        have different : other.1 ≠ packet.1 := fun same => absent.2 (List.mem_singleton.mpr same)
        rw [others other.1 different]
        exact forwarded.ahead other isOther absent.1
    · exact accepted packet member
  rw [l3fwdEmNoOptSendPackets_eq]
  have same : burst.handed (emDstPort .generic env tables burst portid) =
      burst.packets.map fun packet => (packet.1, (emSimpleFate env tables packet.2 portid).port) :=
    distinct.handed fun pkt => (emSimpleFate env tables pkt portid).port
  rw [same]
  apply (Outcome.foldlM_split _ steps starts).imp _ id
  intro last forwarded
  exact forwarded.relayed

/-! ## The main loop -/

/-- How many packets are in a buffer at most between two bursts. -/
def EmBuild.bound (env : Env) : EmBuild → Nat
  | hashLookupMulti => maxPktBurst
  | hashLookupSingle => maxPktBurst
  | generic => env.rxBurstSize

/-- What a build asks of its bursts. -/
def EmBuild.Fine (env : Env) : EmBuild → RxBurst → Prop
  | hashLookupMulti => fun _ => True
  | hashLookupSingle => fun _ => True
  | generic => EmFine env

theorem LcoreState.Below.hasRoom {state : LcoreState} (below : state.Below maxPktBurst) :
    state.HasRoom :=
  below

theorem emSendPackets_relays (build : EmBuild) {env : Env}
    (sizes : 0 < env.rxBurstSize ∧ env.rxBurstSize ≤ maxPktBurst) {tables : EmTables}
    (lawful4 : tables.ipv4.Lawful) (lawful6 : tables.ipv6.Lawful) :
    Relays env (PortEnabled env) (build.bound env) (build.Fine env) (emDstPort build env tables)
      (emSendPackets build env tables) := by
  have positiveMax : 0 < maxPktBurst := by decide
  cases build with
  | hashLookupMulti =>
      refine ⟨PortEnabled.exist, positiveMax, Nat.le_refl _, ?_⟩
      intro state burst portid below positive inside _ incoming
      exact l3fwdEmSendPackets_relayed env lawful4 lawful6 burst below positive
        (Nat.le_trans inside sizes.2) incoming
  | hashLookupSingle =>
      refine ⟨PortEnabled.exist, positiveMax, Nat.le_refl _, ?_⟩
      intro state burst portid below positive inside _ incoming
      exact Sequential.l3fwdEmSendPackets_relayed env tables burst below positive
        (Nat.le_trans inside sizes.2) incoming
  | generic =>
      refine ⟨PortEnabled.exist, sizes.1, sizes.2, ?_⟩
      intro state burst portid below _ _ fine incoming
      exact l3fwdEmNoOptSendPackets_relayed sizes tables below fine incoming

/-- Once ports and lcores have been set up, every lcore conveys its packets to enabled ports,
each to the port that is found for it, for any tables and in all three builds. Only the generic
build asks anything of the packets. -/
theorem emMainLoop_conveyed (build : EmBuild) (env : Env)
    (sizes : 0 < env.rxBurstSize ∧ env.rxBurstSize ≤ maxPktBurst) {tables : EmTables}
    (lawful4 : tables.ipv4.Lawful) (lawful6 : tables.ipv6.Lawful)
    {eal : Eal} {params : List LcoreParams} {addrs : EthAddrs} {setup : SetupState}
    (setUp : l3fwdPollResourceSetup eal params env.enabledPortMask addrs = some setup)
    (lcore : Nat) (mbufs : MbufHeap) (tscHz tsc : BitVec 64) {rounds : List PollRound}
    (bursts : ∀ round ∈ rounds, ∀ i,
      (round.rx i).nbRx ≤ env.rxBurstSize ∧ build.Fine env (round.rx i)) :
    let start := LcoreState.launched mbufs (setup.lcoreConf lcore)
    ∃ poll, emMainLoop build env tables tscHz tsc start rounds = .ok poll ∧
      Conveyed (PortEnabled env) (emDstPort build env tables) start (drainTsc tscHz) tsc
        (pollHeads tsc rounds) poll.state :=
  (launched_setUp setUp lcore mbufs).conveyed (emSendPackets_relays build sizes lawful4 lawful6)
    (fun _ => enabledPorts_enabled) tscHz tsc bursts

theorem emMainLoop_conveyed_single :
    ∃ setup, l3fwdPollResourceSetup twoPortEal threeQueues 0x3#32
        ⟨fun _ => 0, fun _ => 0, fun _ => 0⟩ = some setup ∧
      let env : Env := { (default : Env) with
        rxBurstSize := 32, txBurstSize := 32, enabledPortMask := 0x3#32 }
      let start := LcoreState.launched default (setup.lcoreConf 2)
      let rounds := [PollRound.single 7 routedPacket 1000#64,
        PollRound.single 8 routedPacket 2000#64]
      emDstPort .generic env (oneInterfaceTables 1#8) ⟨[(7, routedPacket)]⟩ 0#16 0 = 1#16 ∧
      ∃ poll, emMainLoop .generic env (oneInterfaceTables 1#8) 3000000000#64 0#64 start rounds =
          .ok poll ∧
        Conveyed (PortEnabled env) (emDstPort .generic env (oneInterfaceTables 1#8)) start
          (drainTsc 3000000000#64) 0#64 (pollHeads 0#64 rounds) poll.state := by
  rcases twoPort_setUp with ⟨setup, setUp⟩
  refine ⟨setup, setUp, ?_⟩
  intro env start rounds
  refine ⟨by decide +kernel, ?_⟩
  have noPacket : EmFine env ⟨[]⟩ :=
    ⟨List.nodup_nil, fun _ impossible => absurd impossible List.not_mem_nil⟩
  have accepted : ¬ EmRefused env routedPacket := by decide +kernel
  have onePacket : ∀ m, 1 ≤ env.rxBurstSize ∧ EmFine env ⟨[(m, routedPacket)]⟩ := by
    intro m
    refine ⟨by decide, List.nodup_singleton m, ?_⟩
    intro packet member
    rw [List.mem_singleton.mp member]
    exact accepted
  have fine := fun m => PollRound.single_cases m routedPacket
    (p := fun burst => burst.nbRx ≤ env.rxBurstSize ∧ EmFine env burst)
    ⟨Nat.zero_le _, noPacket⟩ (onePacket m)
  have looksUp : (oneInterfaceTables 1#8).ipv4.Lawful := fun _ _ _ _ => rfl
  have looksUp6 : (oneInterfaceTables 1#8).ipv6.Lawful := fun _ _ _ _ => rfl
  apply emMainLoop_conveyed .generic env ⟨by decide, by decide⟩ looksUp looksUp6 setUp
  intro round member i
  rcases List.mem_pair.mp member with rfl | rfl
  · exact fine 7 1000#64 i
  · exact fine 8 2000#64 i

end PacketForwarding.L3fwd
