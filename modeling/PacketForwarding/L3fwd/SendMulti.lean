import PacketForwarding.L3fwd.PortGroup
import PacketForwarding.L3fwd.Rfc1812
import PacketForwarding.L3fwd.TxCustody

/-! # Sending a burst to the ports of its packets

`sendPacketsMulti` finishes the processing of a burst, groups consecutive packets
with the same destination port, and sends each group. The loop that sends is shown
to be the fold over the groups.
-/

namespace PacketForwarding.L3fwd

open Lanes Runs Cells

/-- The packets with their destination ports, and the groups found so far. -/
structure Grouping where
  packets : MbufHeap × (Nat → BitVec 16)
  pnum : Nat → BitVec 16
  lp : Nat

/-- `for (j = FWDSTEP; j != k; j += FWDSTEP)`, once for each round. -/
def groupBlocks (env : Env) (pktsBurst : Nat → MbufPtr) :
    Nat → Nat → Register → Grouping → Except Fault (Register × Grouping)
  | 0, _, dp1, grouping => .ok (dp1, grouping)
  | rounds + 1, j, dp1, grouping => do
      let packets := processx4Step3 env pktsBurst j grouping.packets
      -- dp2: <d[j-3], d[j-2], d[j-1], d[j], ... >
      let dp2 := loadLanes16 packets.2 (j - fwdStep + 1)
      let (pnum, lp) ← portGroupx4 grouping.pnum (j - fwdStep) grouping.lp dp1 dp2
      -- dp1: <d[j], d[j+1], d[j+2], d[j+3], ... >
      let dp1 := srliSi128 dp2 (2 * (fwdStep - 1))
      groupBlocks env pktsBurst rounds (j + fwdStep) dp1 ⟨packets, pnum, lp⟩

/-- Process and group the first `k` packets, a multiple of four. The result comes
with the destination port that `lp` corresponds to. -/
def groupFours (env : Env) (pktsBurst : Nat → MbufPtr)
    (packets : MbufHeap × (Nat → BitVec 16)) (k : Nat) :
    Except Fault (BitVec 16 × Grouping) := do
  if k ≠ 0 then
    let pnum ← writePnum env.stack 0 1
    let packets := processx4Step3 env pktsBurst 0 packets
    let dp1 := loadLanes16 packets.2 0
    let (dp1, grouping) ←
      groupBlocks env pktsBurst (k / fwdStep - 1) fwdStep dp1 ⟨packets, pnum, 0⟩
    -- dp2: <d[j-3], d[j-2], d[j-1], d[j-1], ... >
    let dp2 := shuffleloEpi16 dp1 0xf9#8
    let (pnum, lp) ← portGroupx4 grouping.pnum (k - fwdStep) grouping.lp dp1 dp2
    -- remove values added by the last repeated dst port
    let pnum ← writePnum pnum lp (pnum lp - 1)
    .ok (grouping.packets.2 (k - 1), ⟨grouping.packets, pnum, lp⟩)
  else
    -- set dlp and lp to the never used values
    .ok (badPort - 1, ⟨packets, env.stack, maxPktBurst⟩)

/-- Process up to last 3 packets one by one. -/
def groupTail (env : Env) (pktsBurst : Nat → MbufPtr) :
    Nat → Nat → BitVec 16 × Grouping → Except Fault (BitVec 16 × Grouping)
  | 0, _, result => .ok result
  | count + 1, j, (dlp, grouping) => do
      let packets := visitOne pktsBurst (processPacket env) j grouping.packets
      let (dlp, lp, pnum) ← groupPortStep dlp packets.2 grouping.lp grouping.pnum j
      groupTail env pktsBurst count (j + 1) (dlp, ⟨packets, pnum, lp⟩)

/-- The first half of `send_packets_multi`: all packets processed and grouped. -/
def groupPackets (env : Env) (mbufs : MbufHeap) (pktsBurst : Nat → MbufPtr)
    (dstPort : Nat → BitVec 16) (nbRx : Nat) : Except Fault Grouping := do
  let k := nbRx / fwdStep * fwdStep
  let fours ← groupFours env pktsBurst (mbufs, dstPort) k
  let (_, grouping) ← groupTail env pktsBurst (nbRx % fwdStep) k fours
  .ok grouping

/-- Consecutive packets of a burst with the same destination port. -/
structure Dispatch where
  first : Nat
  count : Nat
  port : BitVec 16

namespace Dispatch

/-- Send a group through its port. If the port is bad, free the packets without
sending them out. -/
def exec (env : Env) (pktsBurst : Nat → MbufPtr) (result : LcoreState × TxStats)
    (group : Dispatch) : Except Fault (LcoreState × TxStats) := do
  if group.port ≠ badPort then
    let (state, ret) ← sendPacketsx4 env result.1 group.port
      (fun i => pktsBurst (group.first + i)) group.count
    .ok (state, result.2.add ret)
  else
    .ok (result.1.rtePktmbufFreeRange pktsBurst group.first (group.first + group.count),
      result.2.add ⟨0, group.count⟩)

end Dispatch

/-- `for (j = 0; j < nb_rx; j += k)` -/
def sendLoop (env : Env) (pktsBurst : Nat → MbufPtr) (dstPort pnum : Nat → BitVec 16)
    (nbRx : Nat) : Nat → Nat → LcoreState × TxStats → Except Fault (LcoreState × TxStats)
  | 0, j, result => if j < nbRx then .error .nonTermination else .ok result
  | fuel + 1, j, result =>
      if j < nbRx then do
        let group : Dispatch := ⟨j, (pnum j).toNat, dstPort j⟩
        let result ← group.exec env pktsBurst result
        sendLoop env pktsBurst dstPort pnum nbRx fuel (j + group.count) result
      else
        .ok result

/-- Send packets burst from `pkts_burst` to the ports in the `dst_port` array. -/
def sendPacketsMulti (env : Env) (state : LcoreState) (pktsBurst : Nat → MbufPtr)
    (dstPort : Nat → BitVec 16) (nbRx : Nat) : Except Fault (LcoreState × TxStats) := do
  let grouping ← groupPackets env state.mbufs pktsBurst dstPort nbRx
  sendLoop env pktsBurst grouping.packets.2 grouping.pnum nbRx nbRx 0
    ({ state with mbufs := grouping.packets.1 }, ⟨0, 0⟩)

/-! ## The groups are the maximal runs -/

theorem groupBlocks_spec (env : Env) (pktsBurst : Nat → MbufPtr) :
    ∀ rounds base (dp1 : Register) (grouping : Grouping),
      base + 4 + 4 * rounds ≤ maxPktBurst →
      (∀ i, i < 4 → lane 16 dp1 i = grouping.packets.2 (base + i)) →
      RunCounter grouping.packets.2 (counts grouping.pnum) (base + 1) grouping.lp →
      ∃ dp1' grouping', groupBlocks env pktsBurst rounds (base + 4) dp1 grouping =
          .ok (dp1', grouping') ∧
        Checked pktsBurst (base + 4) (4 * rounds) grouping.packets grouping'.packets ∧
        (∀ i, i < 4 → lane 16 dp1' i = grouping'.packets.2 (base + 4 * rounds + i)) ∧
        RunCounter grouping'.packets.2 (counts grouping'.pnum) (base + 4 * rounds + 1)
          grouping'.lp
  | 0, base, dp1, grouping, _, dp1Lanes, counted =>
      ⟨dp1, grouping, rfl, Checked.nil _ _ _, dp1Lanes, counted⟩
  | rounds + 1, base, dp1, grouping, inside, dp1Lanes, counted => by
      have checked := checked_processx4Step3 env pktsBurst (base + 4) grouping.packets
      generalize isPackets : processx4Step3 env pktsBurst (base + 4) grouping.packets = packets
        at checked
      have earlier : ∀ i, i < base + 4 → packets.2 i = grouping.packets.2 i := by
        intro i below
        exact checked.outside i (Or.inl below)
      let dp2 := loadLanes16 packets.2 (base + 1)
      have dp2Lanes : ∀ i, i < 8 → lane 16 dp2 i = packets.2 (base + 1 + i) :=
        lane_loadLanes16 packets.2 (base + 1)
      have dp1Values : ∀ i, i < 4 → lane 16 dp1 i = packets.2 (base + i) := by
        intro i below
        rw [dp1Lanes i below, earlier (base + i) (by omega)]
      have dp2Values : ∀ i, i < 4 → lane 16 dp2 i = packets.2 (base + i + 1) := by
        intro i below
        rw [dp2Lanes i (by omega), Nat.add_right_comm]
      rcases portGroupx4_counts dp1Values dp2Values
        (counted.congr_values fun index below => earlier index (by omega)) (by omega) with
        ⟨pnum, lp, grouped, blockCounted⟩
      rw [Nat.add_right_comm] at blockCounted
      have nextLanes : ∀ i, i < 4 →
          lane 16 (srliSi128 dp2 (2 * 3)) i = packets.2 (base + 4 + i) := by
        intro i below
        have position : base + 1 + (i + 3) = base + 4 + i := by omega
        rw [lane_srliSi128, dp2Lanes _ (by omega), position]
      rcases groupBlocks_spec env pktsBurst rounds (base + 4) (srliSi128 dp2 (2 * 3))
        ⟨packets, pnum, lp⟩ (by omega) nextLanes blockCounted with
        ⟨dp1', grouping', rest, restChecked, lanes, lastCounted⟩
      have blocks : 4 * (rounds + 1) = 4 + 4 * rounds := by omega
      have next : base + 4 * (rounds + 1) = base + 4 + 4 * rounds := by omega
      refine ⟨dp1', grouping', ?_, ?_, ?_, ?_⟩
      · have isDp2 : loadLanes16 packets.2 (base + 1) = dp2 := rfl
        simp only [groupBlocks, fwdStep, isPackets, Nat.add_sub_cancel, bind, Except.bind]
        rw [isDp2, grouped]
        exact rest
      · rw [blocks]
        exact checked.trans restChecked
      · rw [next]
        exact lanes
      · rw [next]
        exact lastCounted

/-- What is known between two packets of the tail: either nothing was counted and
`dlp` is no destination port, or `dlp` is the port of the open run. -/
def TailReady (j : Nat) (result : BitVec 16 × Grouping) : Prop :=
  (j = 0 ∧ result.1 = badPort - 1) ∨
    (RunCounter result.2.packets.2 (counts result.2.pnum) j result.2.lp ∧
      result.1 = result.2.packets.2 result.2.lp)

theorem groupFours_spec (env : Env) (pktsBurst : Nat → MbufPtr)
    (packets : MbufHeap × (Nat → BitVec 16)) (fours : Nat) (inside : 4 * fours ≤ maxPktBurst) :
    ∃ result, groupFours env pktsBurst packets (4 * fours) = .ok result ∧
      Checked pktsBurst 0 (4 * fours) packets result.2.packets ∧
      TailReady (4 * fours) result := by
  cases fours with
  | zero => exact ⟨_, rfl, Checked.nil _ _ _, Or.inl ⟨rfl, rfl⟩⟩
  | succ rounds =>
      have checked := checked_processx4Step3 env pktsBurst 0 packets
      generalize isStart : processx4Step3 env pktsBurst 0 packets = start at checked
      have opened : RunCounter start.2 (counts (Function.update env.stack 0 1)) 1 0 := by
        apply RunCounter.initial
        rw [counts_update, Function.update_self]
        rfl
      rcases groupBlocks_spec env pktsBurst rounds 0 (loadLanes16 start.2 0)
        ⟨start, Function.update env.stack 0 1, 0⟩ (by omega)
        (fun i below => lane_loadLanes16 start.2 0 i (by omega)) opened with
        ⟨dp1, ⟨last, pnum, lp⟩, blocks, blocksChecked, dp1Lanes, counted⟩
      simp only [Nat.zero_add] at blocks blocksChecked dp1Lanes counted
      rcases portGroupx4_last dp1Lanes counted (by omega) with ⟨pnum', lp', grouped, closed⟩
      have closedInside := closed.inside
      have lpBound : lp' ≤ maxPktBurst := by omega
      have total : fwdStep + 4 * rounds = 4 * (rounds + 1) := by
        simp only [fwdStep]
        omega
      have allChecked := checked.trans blocksChecked
      rw [total] at allChecked
      refine ⟨(last.2 (4 * (rounds + 1) - 1),
        ⟨last, Function.update pnum' lp' (pnum' lp' - 1), lp'⟩), ?_, allChecked,
        Or.inr ⟨closed, ?_⟩⟩
      rotate_left
      · exact closed.constant _ (by omega) (by omega)
      · have notZero : 4 * (rounds + 1) ≠ 0 := by omega
        have roundCount : 4 * (rounds + 1) / 4 - 1 = rounds := by omega
        have lastBlock : 4 * (rounds + 1) - 4 = 4 * rounds := by omega
        simp only [groupFours, if_pos notZero, fwdStep, isStart, roundCount, lastBlock,
          writePnum_ok _ _ (Nat.zero_le maxPktBurst), bind, Except.bind, blocks, grouped,
          writePnum_ok _ _ lpBound]

/-- A packet that continues the open run, for `GROUP_PORT_STEP`, is counted in it. -/
theorem groupPortStep_counts {α : Type*} {values : Nat → α} {dstPort pnum : Nat → BitVec 16}
    {j lp : Nat} {dlp : BitVec 16} (counted : RunCounter values (counts pnum) j lp)
    (continues : dlp = dstPort j ↔ values j = values lp) (inside : j < maxPktBurst) :
    ∃ lp' pnum', groupPortStep dlp dstPort lp pnum j = .ok (dstPort j, lp', pnum') ∧
      RunCounter values (counts pnum') (j + 1) lp' := by
  have lpInside := counted.inside
  have lpCounted := counted.counted
  have lpBound : lp ≤ maxPktBurst := by omega
  by_cases same : dlp = dstPort j
  · refine ⟨lp, Function.update pnum lp (pnum lp + 1), ?_, ?_⟩
    · simp only [groupPortStep, if_pos same, writePnum_ok _ _ lpBound, bind, Except.bind]
      rw [same]
    · refine counted.extend ?_ ?_ ?_
      · intro index after below
        have isNext : index = j := by omega
        rw [isNext]
        exact continues.mp same
      · have one : (1 : BitVec 16).toNat = 1 := rfl
        rw [counts_update, Function.update_self]
        simp only [counts, maxPktBurst] at *
        rw [BitVec.toNat_add, one]
        omega
      · intro index before
        rw [counts_update, Function.update_of_ne (by omega)]
  · refine ⟨j, Function.update pnum j 1, ?_, ?_⟩
    · simp only [groupPortStep, if_neg same, writePnum_ok _ _ (Nat.le_of_lt inside), bind,
        Except.bind]
    · refine counted.begin ?_ ?_ ?_
      · exact fun equal => same (continues.mpr equal)
      · rw [counts_update, Function.update_self]
        rfl
      · intro index before
        rw [counts_update, Function.update_of_ne (by omega)]

theorem groupPortStep_spec {values pnum : Nat → BitVec 16} {j lp : Nat} {dlp : BitVec 16}
    (counted : RunCounter values (counts pnum) j lp) (isPort : dlp = values lp)
    (inside : j < maxPktBurst) :
    ∃ dlp' lp' pnum', groupPortStep dlp values lp pnum j = .ok (dlp', lp', pnum') ∧
      RunCounter values (counts pnum') (j + 1) lp' ∧ dlp' = values lp' := by
  have continues : dlp = values j ↔ values j = values lp := by
    rw [isPort]
    exact eq_comm
  rcases groupPortStep_counts counted continues inside with ⟨lp', pnum', step, counted'⟩
  have isOpen := counted'.constant j (Nat.le_of_lt_succ counted'.inside) (Nat.lt_succ_self j)
  exact ⟨values j, lp', pnum', step, counted', isOpen⟩

/-- The first step of a tail without a head. -/
theorem groupPortStep_first {values : Nat → BitVec 16} (pnum : Nat → BitVec 16) (lp : Nat)
    (isPort : values 0 ≠ badPort - 1) :
    groupPortStep (badPort - 1) values lp pnum 0 =
        .ok (values 0, 0, Function.update pnum 0 1) ∧
      RunCounter values (counts (Function.update pnum 0 1)) 1 0 := by
  refine ⟨?_, ?_⟩
  · simp only [groupPortStep, if_neg (Ne.symm isPort),
      writePnum_ok _ _ (Nat.zero_le maxPktBurst), bind, Except.bind]
  · apply RunCounter.initial
    rw [counts_update, Function.update_self]
    rfl

theorem groupTail_spec (env : Env) (pktsBurst : Nat → MbufPtr) :
    ∀ count j result, j + count ≤ maxPktBurst →
      (∀ i, j ≤ i → i < j + count → result.2.packets.2 i ≠ badPort - 1) →
      TailReady j result →
      ∃ result', groupTail env pktsBurst count j result = .ok result' ∧
        Checked pktsBurst j count result.2.packets result'.2.packets ∧
        TailReady (j + count) result'
  | 0, j, result, _, _, ready => ⟨result, rfl, Checked.nil _ _ _, ready⟩
  | count + 1, j, (dlp, grouping), inside, ports, ready => by
      have checked : Checked pktsBurst j 1 grouping.packets
          (visitOne pktsBurst (processPacket env) j grouping.packets) :=
        Checked.visit pktsBurst (processPacket env) (sameVerdict_processPacket env)
          (processPacket_port env) 1 j grouping.packets
      generalize isPackets : visitOne pktsBurst (processPacket env) j grouping.packets =
        packets at checked
      have portsNow : ∀ i, j ≤ i → i < j + (count + 1) → packets.2 i ≠ badPort - 1 := by
        intro i after below
        rcases Nat.eq_or_lt_of_le after with equal | later
        · rw [← equal, checked.inside j (Nat.le_refl j) (by omega), RteMbuf.checkedPort]
          split
          · decide
          · exact ports j (Nat.le_refl j) (by omega)
        · rw [checked.outside i (by omega)]
          exact ports i after below
      have stepped : ∃ dlp' lp' pnum',
          groupPortStep dlp packets.2 grouping.lp grouping.pnum j = .ok (dlp', lp', pnum') ∧
          TailReady (j + 1) (dlp', ⟨packets, pnum', lp'⟩) := by
        rcases ready with ⟨zero, unused⟩ | ⟨counted, isPort⟩
        · subst zero
          rcases groupPortStep_first grouping.pnum grouping.lp
            (portsNow 0 (Nat.le_refl 0) (by omega)) with ⟨step, opened⟩
          have isUnused : dlp = badPort - 1 := unused
          rw [isUnused]
          exact ⟨_, _, _, step, Or.inr ⟨opened, rfl⟩⟩
        · have agree : ∀ i, i < j → packets.2 i = grouping.packets.2 i := fun i below =>
            checked.outside i (Or.inl below)
          rcases groupPortStep_spec (counted.congr_values agree)
            (isPort.trans (agree _ counted.inside).symm) (by omega) with
            ⟨dlp', lp', pnum', step, counted', isPort'⟩
          exact ⟨dlp', lp', pnum', step, Or.inr ⟨counted', isPort'⟩⟩
      rcases stepped with ⟨dlp', lp', pnum', step, ready'⟩
      rcases groupTail_spec env pktsBurst count (j + 1) (dlp', ⟨packets, pnum', lp'⟩) (by omega)
        (fun i after below => portsNow i (by omega) (by omega)) ready' with
        ⟨result', rest, restChecked, last⟩
      refine ⟨result', ?_, ?_, ?_⟩
      · simp only [groupTail, isPackets, step, bind, Except.bind]
        exact rest
      · rw [Nat.add_comm count 1]
        exact checked.trans restChecked
      · rw [Nat.add_comm count 1, ← Nat.add_assoc]
        exact last

/-- `pnum` counts the maximal runs of the final destination ports. -/
theorem groupPackets_spec (env : Env) (mbufs : MbufHeap) (pktsBurst : Nat → MbufPtr)
    (dstPort : Nat → BitVec 16) {nbRx : Nat} (positive : 0 < nbRx)
    (inside : nbRx ≤ maxPktBurst) (ports : ∀ i, i < nbRx → dstPort i ≠ badPort - 1) :
    ∃ grouping, groupPackets env mbufs pktsBurst dstPort nbRx = .ok grouping ∧
      Checked pktsBurst 0 nbRx (mbufs, dstPort) grouping.packets ∧
      ∃ lp, RunCounter grouping.packets.2 (counts grouping.pnum) nbRx lp := by
  have split : 4 * (nbRx / 4) + nbRx % 4 = nbRx := Nat.div_add_mod nbRx 4
  rcases groupFours_spec env pktsBurst (mbufs, dstPort) (nbRx / 4) (by omega) with
    ⟨fours, foursRun, foursChecked, foursReady⟩
  rcases groupTail_spec env pktsBurst (nbRx % 4) (4 * (nbRx / 4)) fours (by omega)
    (fun i after below => by
      rw [foursChecked.outside i (by omega)]
      exact ports i (by omega)) foursReady with ⟨⟨dlp, grouping⟩, tailRun, tailChecked, ready⟩
  rw [split] at ready
  refine ⟨grouping, ?_, ?_, ?_⟩
  · simp only [groupPackets, fwdStep, Nat.mul_comm (nbRx / 4) 4, bind, Except.bind, foursRun,
      tailRun]
  · have both := foursChecked.trans (by simpa using tailChecked)
    rw [split] at both
    exact both
  · rcases ready with ⟨zero, _⟩ | ⟨counted, _⟩
    · omega
    · exact ⟨_, counted⟩

/-! ## The sending loop is the fold over the groups -/

/-- The groups that a list of runs stands for. -/
def groupsOf (dstPort : Nat → BitVec 16) (runs : List (Nat × Nat)) : List Dispatch :=
  runs.map fun run => ⟨run.1, run.2, dstPort run.1⟩

theorem sendLoop_eq {α : Type*} (env : Env) (pktsBurst : Nat → MbufPtr)
    {dstPort pnum : Nat → BitVec 16} {values : Nat → α} {nbRx j : Nat} {runs : List (Nat × Nat)}
    (tiled : Tiling values nbRx j runs)
    (counted : ∀ head length, MaximalRun values nbRx head length → counts pnum head = length) :
    ∀ fuel result, nbRx - j ≤ fuel →
      sendLoop env pktsBurst dstPort pnum nbRx fuel j result =
        (groupsOf dstPort runs).foldlM (Dispatch.exec env pktsBurst) result := by
  induction tiled with
  | done =>
      intro fuel result _
      cases fuel <;> simp [sendLoop, groupsOf] <;> rfl
  | @run start length rest run tiled induction =>
      intro fuel result enough
      have positive := run.positive
      have within := run.inside
      cases fuel with
      | zero => omega
      | succ fuel =>
          have more : start < nbRx := by omega
          have count : (pnum start).toNat = length := counted start length run
          rw [sendLoop, if_pos more, count, groupsOf, List.map_cons, List.foldlM_cons]
          exact bind_congr fun result' => induction fuel result' (by omega)

/-- The packets of a group, each with the destination port it is sent to. -/
def Dispatch.packets (group : Dispatch) : List (Nat × BitVec 16) :=
  (List.range' group.first group.count).map fun i => (i, group.port)

/-- The groups visit every packet once, in order and under its own port. -/
theorem packets_groupsOf {dstPort : Nat → BitVec 16} {nbRx : Nat} {runs : List (Nat × Nat)}
    (tiled : Tiling dstPort nbRx 0 runs) :
    (groupsOf dstPort runs).flatMap Dispatch.packets =
      (List.range nbRx).map fun i => (i, dstPort i) := by
  have positions := tiled.flatMap_range'
  have own : ∀ run ∈ runs, (List.range' run.1 run.2).map (fun i => (i, dstPort run.1)) =
      (List.range' run.1 run.2).map fun i => (i, dstPort i) := by
    intro run member
    have maximal := tiled.maximalRun_of_mem member
    apply List.map_congr_left
    intro i inRun
    rcases List.mem_range'_1.mp inRun with ⟨after, before⟩
    have same := maximal.constant (i - run.1) (by omega)
    rw [Nat.add_sub_cancel' after] at same
    rw [same]
  calc (groupsOf dstPort runs).flatMap Dispatch.packets
      = runs.flatMap fun run =>
          (List.range' run.1 run.2).map fun i => (i, dstPort run.1) := by
        rw [groupsOf, List.flatMap_map]
        rfl
    _ = runs.flatMap fun run => (List.range' run.1 run.2).map fun i => (i, dstPort i) :=
        List.flatMap_congr own
    _ = (runs.flatMap fun run => List.range' run.1 run.2).map fun i => (i, dstPort i) := by
        rw [List.map_flatMap]
    _ = (List.range nbRx).map fun i => (i, dstPort i) := by
        rw [positions, Nat.sub_zero, List.range_eq_range']

/-- The ports of the groups are those of the packets. -/
theorem forall_groupsOf_iff {dstPort : Nat → BitVec 16} {nbRx : Nat} {runs : List (Nat × Nat)}
    (tiled : Tiling dstPort nbRx 0 runs) (p : BitVec 16 → Prop) :
    (∀ group ∈ groupsOf dstPort runs, p group.port) ↔ ∀ i, i < nbRx → p (dstPort i) := by
  constructor
  · intro holds i below
    have visited : (i, dstPort i) ∈ (groupsOf dstPort runs).flatMap Dispatch.packets := by
      rw [packets_groupsOf tiled]
      exact List.mem_map.mpr ⟨i, List.mem_range.mpr below, rfl⟩
    rcases List.mem_flatMap.mp visited with ⟨group, inGroups, inGroup⟩
    rcases List.mem_map.mp inGroup with ⟨i', _, same⟩
    have samePort : group.port = dstPort i := congrArg Prod.snd same
    rw [← samePort]
    exact holds group inGroups
  · intro holds group member
    rcases List.mem_map.mp member with ⟨run, inRuns, rfl⟩
    have maximal := tiled.maximalRun_of_mem inRuns
    have positive := maximal.positive
    have inside := maximal.inside
    exact holds run.1 (by omega)

theorem sendPacketsMulti_of_grouped {env : Env} {state : LcoreState} {pktsBurst : Nat → MbufPtr}
    {dstPort : Nat → BitVec 16} {nbRx : Nat} {grouping : Grouping}
    (grouped : groupPackets env state.mbufs pktsBurst dstPort nbRx = .ok grouping)
    (exact : ∀ head length, MaximalRun grouping.packets.2 nbRx head length →
      counts grouping.pnum head = length) {runs : List (Nat × Nat)}
    (tiled : Tiling grouping.packets.2 nbRx 0 runs) :
    sendPacketsMulti env state pktsBurst dstPort nbRx =
      (groupsOf grouping.packets.2 runs).foldlM (Dispatch.exec env pktsBurst)
        ({ state with mbufs := grouping.packets.1 }, ⟨0, 0⟩) := by
  simp only [sendPacketsMulti, grouped, bind, Except.bind]
  exact sendLoop_eq env pktsBurst tiled exact nbRx _ (Nat.sub_le nbRx 0)

/-- A burst is sent as the fold over a tiling of its packets into maximal runs. -/
theorem sendPacketsMulti_eq (env : Env) (state : LcoreState) (pktsBurst : Nat → MbufPtr)
    (dstPort : Nat → BitVec 16) {nbRx : Nat} (positive : 0 < nbRx)
    (inside : nbRx ≤ maxPktBurst) (ports : ∀ i, i < nbRx → dstPort i ≠ badPort - 1) :
    ∃ grouping runs,
      groupPackets env state.mbufs pktsBurst dstPort nbRx = .ok grouping ∧
      Checked pktsBurst 0 nbRx (state.mbufs, dstPort) grouping.packets ∧
      (∀ head length, MaximalRun grouping.packets.2 nbRx head length →
        counts grouping.pnum head = length) ∧
      Tiling grouping.packets.2 nbRx 0 runs ∧
      sendPacketsMulti env state pktsBurst dstPort nbRx =
        (groupsOf grouping.packets.2 runs).foldlM (Dispatch.exec env pktsBurst)
          ({ state with mbufs := grouping.packets.1 }, ⟨0, 0⟩) := by
  rcases groupPackets_spec env state.mbufs pktsBurst dstPort positive inside ports with
    ⟨grouping, grouped, checked, lp, counted⟩
  rcases exists_tiling grouping.packets.2 nbRx with ⟨runs, tiled⟩
  have exact : ∀ head length, MaximalRun grouping.packets.2 nbRx head length →
      counts grouping.pnum head = length := fun head length run => counted.exact run
  exact ⟨grouping, runs, grouped, checked, exact, tiled,
    sendPacketsMulti_of_grouped grouped exact tiled⟩

theorem ne_badPort_pred {port : BitVec 16} (valid : port.toNat < rteMaxEthports) :
    port ≠ badPort - 1 := by
  intro same
  rw [same] at valid
  exact absurd valid (by decide)

/-! ## What sending a burst does to its packets -/

/-- A destination port that a packet can have after the checks. -/
def SendablePort (port : BitVec 16) : Prop :=
  port = badPort ∨ port.toNat < rteMaxEthports

/-- The mbufs of a group. -/
def Dispatch.mbufs (pktsBurst : Nat → MbufPtr) (group : Dispatch) : List MbufPtr :=
  (List.range' group.first group.count).map pktsBurst

/-- A group is sent or freed, unless its port is neither valid nor marked as bad. -/
theorem Dispatch.exec_outcome (env : Env) (pktsBurst : Nat → MbufPtr) {start : LcoreState}
    {result : LcoreState × TxStats} {group : Dispatch}
    (accounted : Accounted maxPktBurst start handed result)
    (positive : 0 < group.count) (inside : group.count ≤ maxPktBurst) :
    Outcome (Accounted maxPktBurst start (handed ++ group.mbufs pktsBurst))
      (¬ SendablePort group.port) (group.exec env pktsBurst result) := by
  have room := accounted.below
  by_cases bad : group.port = badPort
  · have notGood : ¬ group.port ≠ badPort := not_not_intro bad
    have freed := TxAccount.free result.1 (group.mbufs pktsBurst)
    rw [Dispatch.mbufs, List.length_map, List.length_range'] at freed
    rw [Dispatch.exec, if_neg notGood, LcoreState.rtePktmbufFreeRange, Nat.add_sub_cancel_left]
    exact accounted.extend room freed
  by_cases valid : group.port.toNat < rteMaxEthports
  · rcases sendPacketsx4_spec env result.1 (fun i => pktsBurst (group.first + i)) valid
      (room _ valid) positive inside with ⟨state', stats, sent, effect, len⟩
    have same : (List.range group.count).map (fun i => pktsBurst (group.first + i)) =
        group.mbufs pktsBurst := by
      rw [Dispatch.mbufs, List.range'_eq_map_range, List.map_map]
      rfl
    rw [same] at effect
    have below := effect.below room (by
      rw [len]
      exact x4Len_lt env (room _ valid) inside)
    simp only [Dispatch.exec, if_pos bad, sent, bind, Except.bind]
    exact accounted.extend below (effect.account valid)
  · simp only [Dispatch.exec, if_pos bad, sendPacketsx4_invalidPort env result.1 _ _ valid,
      bind, Except.bind]
    rintro (isBad | isValid)
    · exact bad isBad
    · exact valid isValid

theorem Dispatch.foldlM_outcome (env : Env) (pktsBurst : Nat → MbufPtr)
    {groups : List Dispatch} {state : LcoreState} (room : state.HasRoom)
    (counts : ∀ group ∈ groups, 0 < group.count ∧ group.count ≤ maxPktBurst) :
    Outcome (Accounted maxPktBurst state (groups.flatMap (Dispatch.mbufs pktsBurst)))
      (∃ group ∈ groups, ¬ SendablePort group.port)
      (groups.foldlM (Dispatch.exec env pktsBurst) (state, ⟨0, 0⟩)) := by
  refine Outcome.foldlM (fun done =>
    Accounted maxPktBurst state (done.flatMap (Dispatch.mbufs pktsBurst))) ?_
    (Accounted.refl room)
  intro done group result member accounted
  rcases counts group member with ⟨positive, inside⟩
  rw [List.flatMap_append, List.flatMap_singleton]
  refine (Dispatch.exec_outcome env pktsBurst accounted positive inside).imp
    (fun _ good => good) ?_
  intro notSendable
  exact ⟨group, member, notSendable⟩

theorem mbufs_groupsOf (pktsBurst : Nat → MbufPtr) {dstPort : Nat → BitVec 16} {nbRx : Nat}
    {runs : List (Nat × Nat)} (tiled : Tiling dstPort nbRx 0 runs) :
    (groupsOf dstPort runs).flatMap (Dispatch.mbufs pktsBurst) =
      (List.range nbRx).map pktsBurst := by
  calc (groupsOf dstPort runs).flatMap (Dispatch.mbufs pktsBurst)
      = runs.flatMap fun run => (List.range' run.1 run.2).map pktsBurst := by
        rw [groupsOf, List.flatMap_map]
        rfl
    _ = (runs.flatMap fun run => List.range' run.1 run.2).map pktsBurst := by
        rw [List.map_flatMap]
    _ = (List.range nbRx).map pktsBurst := by
        rw [tiled.flatMap_range', Nat.sub_zero, List.range_eq_range']

/-- Every packet of a burst is accounted for, unless one of its destination ports
does not exist. -/
theorem sendPacketsMulti_outcome (env : Env) (state : LcoreState) (pktsBurst : Nat → MbufPtr)
    (dstPort : Nat → BitVec 16) {nbRx : Nat} (room : state.HasRoom) (positive : 0 < nbRx)
    (inside : nbRx ≤ maxPktBurst) (ports : ∀ i, i < nbRx → dstPort i ≠ badPort - 1) :
    Outcome (Accounted maxPktBurst state ((List.range nbRx).map pktsBurst))
      (∃ i, i < nbRx ∧ ¬ (dstPort i).toNat < rteMaxEthports)
      (sendPacketsMulti env state pktsBurst dstPort nbRx) := by
  rcases sendPacketsMulti_eq env state pktsBurst dstPort positive inside ports with
    ⟨grouping, runs, _, checked, _, tiled, sent⟩
  have counts : ∀ group ∈ groupsOf grouping.packets.2 runs,
      0 < group.count ∧ group.count ≤ maxPktBurst := by
    intro group member
    rcases List.mem_map.mp member with ⟨run, inRuns, rfl⟩
    have maximal := tiled.maximalRun_of_mem inRuns
    have runInside := maximal.inside
    exact ⟨maximal.positive, Nat.le_trans (Nat.le_of_add_left_le runInside) inside⟩
  have rewrittenRoom : LcoreState.HasRoom { state with mbufs := grouping.packets.1 } := room
  have outcome := Dispatch.foldlM_outcome env pktsBurst rewrittenRoom counts
  rw [mbufs_groupsOf pktsBurst tiled] at outcome
  rw [sent]
  refine outcome.imp ?_ ?_
  · intro result accounted
    exact accounted.after_rewrite
  · rintro ⟨group, member, notSendable⟩
    rcases List.mem_map.mp member with ⟨run, inRuns, rfl⟩
    have maximal := tiled.maximalRun_of_mem inRuns
    have runPositive := maximal.positive
    have runInside := maximal.inside
    have final := checked.inside run.1 (Nat.zero_le _) (by omega)
    refine ⟨run.1, by omega, ?_⟩
    intro valid
    apply notSendable
    change SendablePort (grouping.packets.2 run.1)
    rw [final, RteMbuf.checkedPort]
    split
    · exact Or.inl rfl
    · exact Or.inr valid

end PacketForwarding.L3fwd
