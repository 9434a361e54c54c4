import PacketForwarding.L3fwd.SendMulti

/-! # Packets on their way through an lcore

What a sender does with the packets of a burst, whichever sender it is: none gets lost, none
overtakes another one to the same port, and none is sent through another port than the one that
it is for.
-/

namespace PacketForwarding.L3fwd

open LcoreState Runs

/-- The mbufs that are for a port. -/
def handedTo (handed : List (MbufPtr × BitVec 16)) (port : Nat) : List MbufPtr :=
  (handed.filter fun item => item.2.toNat = port).map Prod.fst

theorem handedTo_append (handed later : List (MbufPtr × BitVec 16)) (port : Nat) :
    handedTo (handed ++ later) port = handedTo handed port ++ handedTo later port := by
  rw [handedTo, List.filter_append, List.map_append]
  rfl

theorem handedTo_same {handed : List (MbufPtr × BitVec 16)} {port : BitVec 16}
    (same : ∀ item ∈ handed, item.2 = port) : handedTo handed port.toNat = handed.map Prod.fst := by
  rw [handedTo, List.filter_eq_self.mpr]
  intro item member
  exact decide_eq_true (congrArg BitVec.toNat (same item member))

/-- The mbufs handed in, each with the port that it is for, were sent through allowed ports, are
waiting for them, or were given back. On each port those for this port follow those that were
there before, in the given order. -/
structure Relayed (allowed : BitVec 16 → Prop) (bound : Nat) (state : LcoreState)
    (handed : List (MbufPtr × BitVec 16)) (state' : LcoreState) : Prop where
  below : state'.Below bound
  conf : { state'.qconf with txMbufs := state.qconf.txMbufs } = state.qconf
  total : state'.totalCustody.items.Perm (state.totalCustody.items ++ handed.map Prod.fst)
  outside : ∀ other, (∀ port, allowed port → port.toNat ≠ other) →
    state'.qconf.txMbufs other = state.qconf.txMbufs other ∧
      state'.transmitted other = state.transmitted other
  inOrder : ∀ port, (state'.transmitted port ++ (state'.qconf.txMbufs port).buffered).Sublist
    (state.transmitted port ++ (state.qconf.txMbufs port).buffered ++ handedTo handed port)
  held : ∀ port, ∀ m ∈ (state'.qconf.txMbufs port).buffered,
    m ∈ (state.qconf.txMbufs port).buffered ∨ m ∈ handedTo handed port

namespace Relayed

variable {allowed : BitVec 16 → Prop} {bound : Nat}

theorem refl {state : LcoreState} (below : state.Below bound) :
    Relayed allowed bound state [] state where
  below := below
  conf := rfl
  total := by rw [List.map_nil, List.append_nil]
  outside := fun _ _ => ⟨rfl, rfl⟩
  inOrder := by
    intro port
    rw [handedTo, List.filter_nil, List.map_nil, List.append_nil]
  held := fun _ _ member => Or.inl member

theorem of_effect {state state' : LcoreState} {port : BitVec 16}
    {handed : List (MbufPtr × BitVec 16)}
    (effect : TxEffect state state' port (handed.map Prod.fst) stats)
    (same : ∀ item ∈ handed, item.2 = port) (isAllowed : allowed port)
    (valid : port.toNat < rteMaxEthports) (below : state.Below bound)
    (len : state'.txLen port.toNat < bound) : Relayed allowed bound state handed state' where
  below := effect.below below len
  conf := effect.conf
  total := effect.total valid
  outside := by
    intro other apart
    have different : other ≠ port.toNat := fun same => apart port isAllowed same.symm
    exact ⟨effect.tables other different, effect.wires different⟩
  inOrder := by
    intro other
    by_cases isPort : other = port.toNat
    · rw [isPort, handedTo_same same]
      exact effect.custody.sublist
    · rw [effect.tables other isPort, effect.wires isPort]
      exact List.sublist_append_left _ _
  held := by
    intro other
    by_cases isPort : other = port.toNat
    · rw [isPort, handedTo_same same]
      exact effect.custody.held
    · rw [effect.tables other isPort]
      exact fun _ member => Or.inl member

/-- Give mbufs back instead of sending them. -/
theorem free {state : LcoreState} (below : state.Below bound)
    (handed : List (MbufPtr × BitVec 16)) :
    Relayed allowed bound state handed
      { state with freed := state.freed ++ handed.map Prod.fst } where
  below := below
  conf := rfl
  total := (TxAccount.free state (handed.map Prod.fst)).total
  outside := fun _ _ => ⟨rfl, rfl⟩
  inOrder := fun _ => List.sublist_append_left _ _
  held := fun _ _ member => Or.inl member

/-- Packets may be rewritten before they are sent, and afterwards. -/
theorem of_rewritten {state state' : LcoreState} {heap : MbufHeap}
    (relayed : Relayed allowed bound { state with mbufs := heap } handed state') :
    Relayed allowed bound state handed state' :=
  ⟨relayed.below, relayed.conf, relayed.total, relayed.outside, relayed.inOrder, relayed.held⟩

theorem rewritten {state state' : LcoreState} (relayed : Relayed allowed bound state handed state')
    (heap : MbufHeap) : Relayed allowed bound state handed { state' with mbufs := heap } :=
  ⟨relayed.below, relayed.conf, relayed.total, relayed.outside, relayed.inOrder, relayed.held⟩

theorem trans {state middle last : LcoreState} (before : Relayed allowed bound state handed middle)
    (after : Relayed allowed bound middle later last) :
    Relayed allowed bound state (handed ++ later) last where
  below := after.below
  conf := by
    have afterConf := congrArg (fun conf : LcoreConf =>
      { conf with txMbufs := state.qconf.txMbufs }) after.conf
    exact afterConf.trans before.conf
  total := by
    rw [List.map_append, ← List.append_assoc]
    exact after.total.trans (before.total.append_right _)
  outside := by
    intro other apart
    rcases before.outside other apart with ⟨tables, wires⟩
    rcases after.outside other apart with ⟨tables', wires'⟩
    exact ⟨tables'.trans tables, wires'.trans wires⟩
  inOrder := by
    intro port
    rw [handedTo_append, ← List.append_assoc]
    exact (after.inOrder port).trans ((before.inOrder port).append_right _)
  held := by
    intro port m member
    rw [handedTo_append]
    rcases after.held port m member with before' | isLater
    · rcases before.held port m before' with old | isHanded
      · exact Or.inl old
      · exact Or.inr (List.mem_append_left _ isHanded)
    · exact Or.inr (List.mem_append_right _ isLater)

theorem rxQueueList {state state' : LcoreState} (relayed : Relayed allowed bound state handed state') :
    state'.qconf.rxQueueList = state.qconf.rxQueueList := by
  have same := congrArg LcoreConf.rxQueueList relayed.conf
  exact same

theorem txPortId {state state' : LcoreState} (relayed : Relayed allowed bound state handed state') :
    state'.qconf.txPortId = state.qconf.txPortId := by
  have same := congrArg LcoreConf.txPortId relayed.conf
  exact same

/-- With nothing there before, the packets handed in are all there is. -/
theorem of_empty {state state' : LcoreState} (relayed : Relayed allowed bound state handed state')
    (emptyBuffers : ∀ port, state.txLen port = 0) (nothingSent : state.txLog = [])
    (nothingFreed : state.freed = []) :
    state'.totalCustody.items.Perm (handed.map Prod.fst) ∧
      ∀ port, (state'.transmitted port ++ (state'.qconf.txMbufs port).buffered).Sublist
        (handedTo handed port) := by
  have total := relayed.total
  rw [totalCustody_of_empty emptyBuffers nothingSent nothingFreed, List.nil_append] at total
  refine ⟨total, ?_⟩
  intro port
  have nothing : state.transmitted port = [] := by
    rw [LcoreState.transmitted, nothingSent]
    rfl
  have order := relayed.inOrder port
  rw [buffered_of_empty emptyBuffers port, nothing] at order
  exact order

end Relayed

/-! ## Groups of packets -/

/-- The packets of a group, each with the port that it is for. -/
def Dispatch.handed (pktsBurst : Nat → MbufPtr) (dstPort : Nat → BitVec 16) (group : Dispatch) :
    List (MbufPtr × BitVec 16) :=
  (List.range' group.first group.count).map fun i => (pktsBurst i, dstPort i)

theorem Dispatch.map_handed (pktsBurst : Nat → MbufPtr) (dstPort : Nat → BitVec 16)
    (group : Dispatch) : (group.handed pktsBurst dstPort).map Prod.fst = group.mbufs pktsBurst := by
  rw [Dispatch.handed, List.map_map]
  rfl

theorem handed_groupsOf (pktsBurst : Nat → MbufPtr) (dstPort : Nat → BitVec 16)
    {ports : Nat → BitVec 16} {nbRx : Nat} {runs : List (Nat × Nat)}
    (tiled : Tiling ports nbRx 0 runs) :
    (groupsOf ports runs).flatMap (Dispatch.handed pktsBurst dstPort) =
      (List.range nbRx).map fun i => (pktsBurst i, dstPort i) := by
  calc (groupsOf ports runs).flatMap (Dispatch.handed pktsBurst dstPort)
      = runs.flatMap fun run =>
          (List.range' run.1 run.2).map fun i => (pktsBurst i, dstPort i) := by
        rw [groupsOf, List.flatMap_map]
        rfl
    _ = (runs.flatMap fun run => List.range' run.1 run.2).map fun i =>
          (pktsBurst i, dstPort i) := by
        rw [List.map_flatMap]
    _ = (List.range nbRx).map fun i => (pktsBurst i, dstPort i) := by
        rw [tiled.flatMap_range', Nat.sub_zero, List.range_eq_range']

/-! ## One packet -/

section Senders

variable {allowed : BitVec 16 → Prop} (exist : ∀ port, allowed port → port.toNat < rteMaxEthports)

include exist

theorem sendSinglePacket_relayed {env : Env}
    (burst : 0 < env.rxBurstSize ∧ env.rxBurstSize ≤ maxPktBurst) {state : LcoreState}
    (below : state.Below env.rxBurstSize) (m : MbufPtr) {port : BitVec 16}
    (isAllowed : allowed port) :
    Outcome (fun result => Relayed allowed env.rxBurstSize state [(m, port)] result.1 ∧
        result.1.mbufs = state.mbufs) False
      (sendSinglePacket env state m port) := by
  have valid := exist port isAllowed
  have lenBelow := below _ valid
  rcases sendSinglePacket_spec env state m valid (Nat.lt_of_lt_of_le lenBelow burst.2) with
    ⟨state', sent, run, effect, len⟩
  have stillBelow : state'.txLen port.toNat < env.rxBurstSize := by
    rw [len, singleLen]
    split
    · exact burst.1
    · omega
  rw [run]
  refine ⟨Relayed.of_effect effect ?_ isAllowed valid below stillBelow, effect.mbufs⟩
  intro item member
  rw [List.mem_singleton.mp member]

/-- Send a packet after it was rewritten. -/
theorem sendRewritten_relayed {env : Env}
    (burst : 0 < env.rxBurstSize ∧ env.rxBurstSize ≤ maxPktBurst) {state : LcoreState}
    (below : state.Below env.rxBurstSize) (m : MbufPtr) (pkt : RteMbuf) {port : BitVec 16}
    (isAllowed : allowed port) :
    Outcome (fun result => Relayed allowed env.rxBurstSize state [(m, port)] result.1 ∧
        ∀ other, other ≠ m → result.1.mbufs other = state.mbufs other) False
      (sendSinglePacket env (state.setMbuf m pkt) m port) := by
  have rewritten : (state.setMbuf m pkt).Below env.rxBurstSize := below
  apply (sendSinglePacket_relayed exist burst rewritten m isAllowed).imp _ id
  rintro ⟨last, sent⟩ ⟨relayed, mbufs⟩
  refine ⟨Relayed.of_rewritten relayed, ?_⟩
  intro other different
  rw [mbufs]
  exact Function.update_of_ne different pkt state.mbufs

omit exist in
/-- A loop that sends the packets of a burst one by one, or gives them back, relays the burst. -/
theorem singles_relayed {bound : Nat} {state : LcoreState} (below : state.Below bound)
    (pkts : Nat → MbufPtr) {hops : Nat → BitVec 16} {nbTx : Nat}
    (distinct : Cells.Distinct pkts 0 nbTx)
    (toPorts : ∀ i, i < nbTx → hops i = badPort ∨ allowed (hops i))
    {step : LcoreState × (Nat → BitVec 16) → Nat → Except Fault (LcoreState × (Nat → BitVec 16))}
    (steps : ∀ result j, result.1.Below bound → (result.2 j = badPort ∨ allowed (result.2 j)) →
      Outcome (fun next => Relayed allowed bound result.1
            [(pkts j, (result.1.mbufs (pkts j)).checkedPort (result.2 j))] next.1 ∧
          (∀ i, i ≠ j → next.2 i = result.2 i) ∧
          ∀ m, m ≠ pkts j → next.1.mbufs m = result.1.mbufs m) False (step result j)) :
    Outcome (fun last => Relayed allowed bound state ((List.range nbTx).map fun i =>
        (pkts i, (state.mbufs (pkts i)).checkedPort (hops i))) last.1) False
      ((List.range nbTx).foldlM step (state, hops)) := by
  let items := fun done : List Nat => done.map fun i =>
    (pkts i, (state.mbufs (pkts i)).checkedPort (hops i))
  let Done := fun (done : List Nat) (last : LcoreState × (Nat → BitVec 16)) =>
    Relayed allowed bound state (items done) last.1 ∧
      ∀ i, i < nbTx → i ∉ done →
        last.2 i = hops i ∧ last.1.mbufs (pkts i) = state.mbufs (pkts i)
  have steps' : ∀ done j rest last, List.range nbTx = done ++ j :: rest → Done done last →
      Outcome (Done (done ++ [j])) False (step last j) := by
    rintro done j rest last split ⟨relayed, ahead⟩
    have inside : j < nbTx := by
      apply List.mem_range.mp
      rw [split]
      exact List.mem_append_right done List.mem_cons_self
    have new : j ∉ done := by
      have nodup := List.nodup_range (n := nbTx)
      rw [split, List.nodup_append] at nodup
      exact fun isDone => nodup.2.2 j isDone j List.mem_cons_self rfl
    rcases ahead j inside new with ⟨sameHop, samePacket⟩
    have toPort := toPorts j inside
    rw [← sameHop] at toPort
    apply (steps last j relayed.below toPort).imp _ id
    rintro next ⟨sent, otherHops, otherPackets⟩
    rw [sameHop, samePacket] at sent
    have snoc : items (done ++ [j]) =
        items done ++ [(pkts j, (state.mbufs (pkts j)).checkedPort (hops j))] := List.map_append
    constructor
    · rw [snoc]
      exact relayed.trans sent
    · intro i below absent
      rw [List.mem_append, not_or] at absent
      have different : i ≠ j := fun same => absent.2 (List.mem_singleton.mpr same)
      have apart : pkts i ≠ pkts j := fun same =>
        different (distinct i j (Nat.zero_le _) (by omega) (Nat.zero_le _) (by omega) same)
      rw [otherHops i different, otherPackets (pkts i) apart]
      exact ahead i below absent.1
  have loop := Outcome.foldlM_split Done steps'
    (⟨Relayed.refl below, fun _ _ _ => ⟨rfl, rfl⟩⟩ : Done [] (state, hops))
  exact loop.imp (fun _ both => both.1) id

/-! ## A burst in groups -/

theorem Dispatch.exec_relayed (env : Env) (pktsBurst : Nat → MbufPtr) (dstPort : Nat → BitVec 16)
    {start : LcoreState} {handed : List (MbufPtr × BitVec 16)}
    {result : LcoreState × TxStats} {group : Dispatch}
    (relayed : Relayed allowed maxPktBurst start handed result.1) (positive : 0 < group.count)
    (inside : group.count ≤ maxPktBurst) (toPort : group.port = badPort ∨ allowed group.port)
    (forPort : ∀ i, group.first ≤ i → i < group.first + group.count → dstPort i = group.port) :
    Outcome (fun next =>
        Relayed allowed maxPktBurst start (handed ++ group.handed pktsBurst dstPort) next.1) False
      (group.exec env pktsBurst result) := by
  by_cases bad : group.port = badPort
  · rw [Dispatch.exec, if_neg (not_not_intro bad), LcoreState.rtePktmbufFreeRange,
      Nat.add_sub_cancel_left]
    have freed : Relayed allowed maxPktBurst result.1 (group.handed pktsBurst dstPort) _ :=
      Relayed.free relayed.below _
    rw [group.map_handed] at freed
    exact relayed.trans freed
  · have isAllowed := toPort.resolve_left bad
    have valid := exist _ isAllowed
    rcases sendPacketsx4_spec env result.1 (fun i => pktsBurst (group.first + i)) valid
      (relayed.below _ valid) positive inside with ⟨state', stats, sent, effect, len⟩
    have within := x4Len_lt env (relayed.below _ valid) inside
    have same : (List.range group.count).map (fun i => pktsBurst (group.first + i)) =
        (group.handed pktsBurst dstPort).map Prod.fst := by
      rw [group.map_handed, Dispatch.mbufs, List.range'_eq_map_range, List.map_map]
      rfl
    have isFor : ∀ item ∈ group.handed pktsBurst dstPort, item.2 = group.port := by
      intro item member
      rcases List.mem_map.mp member with ⟨i, inGroup, rfl⟩
      rcases List.mem_range'_1.mp inGroup with ⟨fromFirst, beforeEnd⟩
      exact forPort i fromFirst beforeEnd
    rw [← len] at within
    rw [same] at effect
    simp only [Dispatch.exec, if_pos bad, sent, bind, Except.bind]
    exact relayed.trans (Relayed.of_effect effect isFor isAllowed valid relayed.below within)

/-- A burst whose packets are for allowed ports is relayed, but for the packets that fail the
checks. -/
theorem sendPacketsMulti_relayed (env : Env) {state : LcoreState} (pktsBurst : Nat → MbufPtr)
    (dstPort : Nat → BitVec 16) {nbRx : Nat} (room : state.HasRoom) (positive : 0 < nbRx)
    (inside : nbRx ≤ maxPktBurst) (toPorts : ∀ i, i < nbRx → allowed (dstPort i)) :
    Outcome (fun result => Relayed allowed maxPktBurst state ((List.range nbRx).map fun i =>
        (pktsBurst i, (state.mbufs (pktsBurst i)).checkedPort (dstPort i))) result.1) False
      (sendPacketsMulti env state pktsBurst dstPort nbRx) := by
  rcases sendPacketsMulti_eq env state pktsBurst dstPort positive inside
    (fun i below => ne_badPort_pred (exist _ (toPorts i below))) with
    ⟨grouping, runs, _, checked, _, tiled, sent⟩
  let checkedPorts := fun i => (state.mbufs (pktsBurst i)).checkedPort (dstPort i)
  have isChecked : ∀ i, i < nbRx → grouping.packets.2 i = checkedPorts i :=
    fun i inBurst => checked.inside i (Nat.zero_le _) (by omega)
  rw [sent, ← handed_groupsOf pktsBurst checkedPorts tiled]
  have starts : Relayed allowed maxPktBurst state [] { state with mbufs := grouping.packets.1 } :=
    (Relayed.refl room).rewritten _
  apply Outcome.foldlM (fun (done : List Dispatch) (result : LcoreState × TxStats) =>
    Relayed allowed maxPktBurst state (done.flatMap (Dispatch.handed pktsBurst checkedPorts))
      result.1)
  · intro done group result member relayed
    rcases List.mem_map.mp member with ⟨run, inRuns, rfl⟩
    have maximal := tiled.maximalRun_of_mem inRuns
    have runInside := maximal.inside
    have runPositive := maximal.positive
    rw [List.flatMap_append, List.flatMap_singleton]
    apply Dispatch.exec_relayed exist env pktsBurst checkedPorts relayed runPositive
      (Nat.le_trans (Nat.le_of_add_left_le runInside) inside)
    · change grouping.packets.2 run.1 = badPort ∨ allowed (grouping.packets.2 run.1)
      rw [isChecked run.1 (by omega)]
      change RteMbuf.checkedPort _ _ = badPort ∨ allowed (RteMbuf.checkedPort _ _)
      rw [RteMbuf.checkedPort]
      split
      · exact Or.inl rfl
      · exact Or.inr (toPorts run.1 (by omega))
    · intro i fromFirst beforeEnd
      have inRun := maximal.constant (i - run.1) (Nat.sub_lt_left_of_lt_add fromFirst beforeEnd)
      rw [Nat.add_sub_of_le fromFirst, isChecked i (Nat.lt_of_lt_of_le beforeEnd runInside)] at inRun
      exact inRun
  · exact starts

end Senders

/-! ## Draining -/

theorem drainTxPort_relayed {allowed : BitVec 16 → Prop} {bound : Nat} (env : Env)
    {state : LcoreState} {port : BitVec 16} (isAllowed : allowed port)
    (valid : port.toNat < rteMaxEthports) (positive : 0 < bound) (small : bound ≤ maxPktBurst)
    (below : state.Below bound) :
    Outcome (fun result => Relayed allowed bound state [] result.1 ∧
        (result.1.qconf.txMbufs port.toNat).buffered = [] ∧
        ∀ other, other ≠ port.toNat → result.1.qconf.txMbufs other = state.qconf.txMbufs other)
      False (drainTxPort env state port) := by
  have lenBelow := below _ valid
  rcases drainTxPort_spec env state valid (by omega) with ⟨state', stats, run, effect, len⟩
  have short : state'.txLen port.toNat < bound := by
    rw [len]
    exact positive
  rw [run]
  have nothing : ∀ item ∈ ([] : List (MbufPtr × BitVec 16)), item.2 = port :=
    fun _ impossible => absurd impossible List.not_mem_nil
  refine ⟨Relayed.of_effect effect nothing isAllowed valid below short, ?_, effect.tables⟩
  rw [← List.length_eq_zero_iff, MbufTable.length_buffered]
  exact len

end PacketForwarding.L3fwd
