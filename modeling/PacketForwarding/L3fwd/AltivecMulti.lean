import PacketForwarding.Foundation.Altivec
import PacketForwarding.L3fwd.SendMulti

/-! # Sending a burst on POWER

The same grouping with other vector operations. Packets are processed as before, but from the
second four on the comparisons are not those of neighbours: the registers are not shifted, and
the last one is not repeated but spread from one byte. The groups are then runs of packets
that are joined without having the same destination port.
-/

namespace PacketForwarding.L3fwd.Altivec

open Lanes Runs Cells

/-! ## The code -/

/-- Group consecutive packets with the same destination port in bursts of 4. -/
def portGroupx4 (pnum : Nat → BitVec 16) (pn lp : Nat) (dp1 dp2 : Register) :
    Except Fault ((Nat → BitVec 16) × Nat) := do
  let dp1 := vecCmpeq dp1 dp2
  let dp1 := vecMergeh dp1 dp1
  let result := vecVbpermq dp1 signsMask
  let v := (lane 64 result 1).setWidth 4
  -- update last port counter
  let pnum ← writePnum pnum lp (pnum lp + (gptbl v).lpv)
  -- if dest port value has changed
  if v ≠ grpmsk then
    let pnum ← writePnumU64 pnum pn (gptbl v).pnum
    let pnum ← writePnum pnum (pn + fwdStep) 1
    .ok (pnum, pn + (gptbl v).idx)
  else
    .ok (pnum, lp)

/-- Update first 12 bytes, keep rest bytes intact. -/
def selectEth (ve te : Register) : Register :=
  vecSel ve te (vecLiteral 16 8 [0#16, 0#16, 0#16, 0#16, 0#16, 0#16, 0xffff#16, 0xffff#16])

def processPacket (env : Env) (pkt : RteMbuf) (dstPort : BitVec 16) : RteMbuf × BitVec 16 :=
  let te := load 16 pkt.data 0
  let ve := env.valEth dstPort.toNat
  let (data, dstPort) := rfc1812Process pkt.data dstPort pkt.packetType
  (RteMbuf.storeEth { pkt with data := data } (selectEth ve te), dstPort)

def processx4Step3 (env : Env) (pkt : Nat → MbufPtr) (j : Nat)
    (packets : MbufHeap × (Nat → BitVec 16)) : MbufHeap × (Nat → BitVec 16) :=
  let te := fun i => selectEth (env.valEth (packets.2 i).toNat) (load 16 (packets.1 (pkt i)).data 0)
  let stored := visit pkt (fun mbuf te => (mbuf.storeEth te, te)) fwdStep j (packets.1, te)
  visit pkt (fun mbuf dp =>
    let (data, dp) := rfc1812Process mbuf.data dp mbuf.packetType
    ({ mbuf with data := data }, dp)) fwdStep j (stored.1, packets.2)

/-- The octets of the shift, `(FWDSTEP - 1) * sizeof(dst_port[0])` in the twelfth place. -/
def shiftOctets : Register :=
  vecLiteral 8 16 [0#8, 0#8, 0#8, 0#8, 0#8, 0#8, 0#8, 0#8, 0#8, 0#8, 0#8, 6#8]

/-- `for (j = FWDSTEP; j != k; j += FWDSTEP)`, once for each round. -/
def groupBlocks (env : Env) (pktsBurst : Nat → MbufPtr) :
    Nat → Nat → Register → Grouping → Except Fault (Register × Grouping)
  | 0, _, dp1, grouping => .ok (dp1, grouping)
  | rounds + 1, j, dp1, grouping => do
      let packets := processx4Step3 env pktsBurst j grouping.packets
      -- dp2: <d[j-3], d[j-2], d[j-1], d[j], ... >
      let dp2 := loadLanes16 packets.2 (j - fwdStep + 1)
      let (pnum, lp) ← portGroupx4 grouping.pnum (j - fwdStep) grouping.lp dp1 dp2
      -- dp1: <d[j], d[j+1], d[j+2], d[j+3], ... >
      let dp1 := vecSro dp2 shiftOctets
      groupBlocks env pktsBurst rounds (j + fwdStep) dp1 ⟨packets, pnum, lp⟩

def groupFours (env : Env) (pktsBurst : Nat → MbufPtr)
    (packets : MbufHeap × (Nat → BitVec 16)) (k : Nat) :
    Except Fault (BitVec 16 × Grouping) := do
  if k ≠ 0 then
    let pnum ← writePnum env.stack 0 1
    let packets := processx4Step3 env pktsBurst 0 packets
    let dp1 := loadLanes16 packets.2 0
    let (dp1, grouping) ←
      groupBlocks env pktsBurst (k / fwdStep - 1) fwdStep dp1 ⟨packets, pnum, 0⟩
    -- dp2: <d[j-3], d[j-2], d[j-1], d[j-1], ... >
    let dp2 := vecPerm dp1 0#128 (vecLiteral 8 16 [0xf9#8])
    let (pnum, lp) ← portGroupx4 grouping.pnum (k - fwdStep) grouping.lp dp1 dp2
    -- remove values added by the last repeated dst port
    let pnum ← writePnum pnum lp (pnum lp - 1)
    .ok (grouping.packets.2 (k - 1), ⟨grouping.packets, pnum, lp⟩)
  else
    -- set dlp and lp to the never used values
    .ok (badPort - 1, ⟨packets, env.stack, maxPktBurst⟩)

/-- Process up to last 3 packets one by one. -/
def groupTail (env : Env) (pktsBurst : Nat → MbufPtr) :
    Nat → Nat → BitVec 16 × Grouping → Except Fault (BitVec 16 × Grouping)
  | 0, _, result => .ok result
  | count + 1, j, (dlp, grouping) => do
      let packets := visitOne pktsBurst (processPacket env) j grouping.packets
      let (dlp, lp, pnum) ← groupPortStep dlp packets.2 grouping.lp grouping.pnum j
      groupTail env pktsBurst count (j + 1) (dlp, ⟨packets, pnum, lp⟩)

def groupPackets (env : Env) (mbufs : MbufHeap) (pktsBurst : Nat → MbufPtr)
    (dstPort : Nat → BitVec 16) (nbRx : Nat) : Except Fault Grouping := do
  let k := nbRx / fwdStep * fwdStep
  let fours ← groupFours env pktsBurst (mbufs, dstPort) k
  let (_, grouping) ← groupTail env pktsBurst (nbRx % fwdStep) k fours
  .ok grouping

/-- The loop that sends is the same on all machines. -/
def sendPacketsMulti (env : Env) (state : LcoreState) (pktsBurst : Nat → MbufPtr)
    (dstPort : Nat → BitVec 16) (nbRx : Nat) : Except Fault (LcoreState × TxStats) := do
  let grouping ← groupPackets env state.mbufs pktsBurst dstPort nbRx
  sendLoop env pktsBurst grouping.packets.2 grouping.pnum nbRx nbRx 0
    ({ state with mbufs := grouping.packets.1 }, ⟨0, 0⟩)

/-! ## What is the same -/

theorem selectEth_eq (ve te : Register) : selectEth ve te = blendEpi16 te ve maskEth :=
  vecSel_eq_blend ve te

theorem processPacket_eq (env : Env) : processPacket env = L3fwd.processPacket env := by
  funext pkt dstPort
  rw [processPacket, L3fwd.processPacket]
  simp only [selectEth_eq]

theorem processx4Step3_eq (env : Env) : processx4Step3 env = L3fwd.processx4Step3 env := by
  funext pkt j packets
  rw [processx4Step3, L3fwd.processx4Step3]
  simp only [selectEth_eq]

/-- The four comparisons of the two registers decide about the counts. -/
theorem portGroupx4_eq (pnum : Nat → BitVec 16) (pn lp : Nat) (dp1 dp2 : Register) :
    portGroupx4 pnum pn lp dp1 dp2 =
      updateGroup pnum pn lp
        (movemaskPs (unpackloEpi16 (cmpeqEpi16 dp1 dp2) (cmpeqEpi16 dp1 dp2))) := by
  have mask : (lane 64 (vecVbpermq (vecMergeh (vecCmpeq dp1 dp2) (vecCmpeq dp1 dp2)) signsMask)
      1).setWidth 4 =
        movemaskPs (unpackloEpi16 (cmpeqEpi16 dp1 dp2) (cmpeqEpi16 dp1 dp2)) := by
    rw [vecVbpermq_signs, BitVec.setWidth_setWidth_of_le _ (by decide), BitVec.setWidth_eq,
      vecMergeh_eq, vecCmpeq_eq]
  rw [portGroupx4, mask]
  rfl

theorem portGroupx4_counts {α : Type*} {values : Nat → α} {pnum : Nat → BitVec 16} {pn lp : Nat}
    {dp1 dp2 : Register}
    (compares : ∀ i, i < 4 → (lane 16 dp1 i = lane 16 dp2 i ↔ NextEqual values pn i))
    (counted : RunCounter values (counts pnum) (pn + 1) lp) (inside : pn + 4 ≤ maxPktBurst) :
    ∃ pnum' lp', portGroupx4 pnum pn lp dp1 dp2 = .ok (pnum', lp') ∧
      RunCounter values (counts pnum') (pn + 1 + 4) lp' := by
  rw [portGroupx4_eq]
  refine updateGroup_counts ?_ counted inside
  intro i below
  rw [getLsbD_movemask_cmpeq dp1 dp2 i below, decide_eq_true_iff]
  exact compares i below

/-! ## Which packets are joined -/

/-- The first of the ports that the packets of a block are compared with. Only the first block
is compared with its own. -/
def heldAt (block : Nat) : Nat :=
  fwdStep * block - (fwdStep - 1)

/-- The last block is compared with its first byte, on both sides of each port but the first. -/
def LastEqual (ports : Nat → BitVec 16) (held i : Nat) : Prop :=
  if i = 0 then ports held = 0#16
  else ports (held + i) = ports held ∧ (ports held = 0#16 ∨ ports held = badPort)

instance (ports : Nat → BitVec 16) (held i : Nat) : Decidable (LastEqual ports held i) :=
  inferInstanceAs (Decidable (ite _ _ _))

/-- The comparison of packets `i` and `i + 1`, as it is made. -/
def ComparedEqual (ports : Nat → BitVec 16) (nbRx i : Nat) : Prop :=
  if i / fwdStep + 1 < nbRx / fwdStep then
    ports (heldAt (i / fwdStep) + i % fwdStep) = ports (i + 1)
  else if i / fwdStep + 1 = nbRx / fwdStep then
    LastEqual ports (heldAt (i / fwdStep)) (i % fwdStep)
  else
    ports i = ports (i + 1)

instance (ports : Nat → BitVec 16) (nbRx : Nat) : DecidablePred (ComparedEqual ports nbRx) :=
  fun _ => inferInstanceAs (Decidable (ite _ _ _))

/-- Packets `i` and `i + 1` are in one group. After the last block, the first packet of the tail
is compared as well. -/
def Joined (ports : Nat → BitVec 16) (nbRx i : Nat) : Prop :=
  ComparedEqual ports nbRx i ∧ (i + 1 = nbRx / fwdStep * fwdStep → ports i = ports (i + 1))

instance (ports : Nat → BitVec 16) (nbRx : Nat) : DecidablePred (Joined ports nbRx) :=
  fun _ => inferInstanceAs (Decidable (_ ∧ _))

section Joined

variable {ports : Nat → BitVec 16} {nbRx : Nat}

theorem comparedEqual_block {block i : Nat} (earlier : block + 1 < nbRx / fwdStep)
    (inside : i < 4) :
    ComparedEqual ports nbRx (4 * block + i) ↔
      ports (heldAt block + i) = ports (4 * block + i + 1) := by
  have blockOf : (4 * block + i) / fwdStep = block := by
    simp only [fwdStep]
    omega
  have place : (4 * block + i) % fwdStep = i := by
    simp only [fwdStep]
    omega
  rw [ComparedEqual, blockOf, place, if_pos earlier]

theorem comparedEqual_last {block i : Nat} (last : block + 1 = nbRx / fwdStep) (inside : i < 4) :
    ComparedEqual ports nbRx (4 * block + i) ↔ LastEqual ports (heldAt block) i := by
  have blockOf : (4 * block + i) / fwdStep = block := by
    simp only [fwdStep]
    omega
  have place : (4 * block + i) % fwdStep = i := by
    simp only [fwdStep]
    omega
  rw [ComparedEqual, blockOf, place, if_neg (by omega), if_pos last]

theorem joined_before {i : Nat} (before : i + 1 < nbRx / fwdStep * fwdStep) :
    Joined ports nbRx i ↔ ComparedEqual ports nbRx i :=
  ⟨fun joined => joined.1, fun compared => ⟨compared, fun atEnd => by omega⟩⟩

theorem joined_tail {i : Nat} (after : nbRx / fwdStep * fwdStep ≤ i) :
    Joined ports nbRx i ↔ ports i = ports (i + 1) := by
  simp only [fwdStep] at after
  have beyond : nbRx / fwdStep ≤ i / fwdStep := by
    simp only [fwdStep]
    omega
  rw [Joined, ComparedEqual, if_neg (by omega), if_neg (by omega)]
  exact ⟨fun joined => joined.1, fun equal => ⟨equal, fun _ => equal⟩⟩

end Joined

/-- A destination port is a byte repeated only if it is zero or bad. -/
theorem eq_repeatLow_iff {port other : BitVec 16} (sendable : SendablePort port)
    (otherSendable : SendablePort other) :
    other = repeatLow port ↔ other = port ∧ (port = 0#16 ∨ port = badPort) := by
  have bad : badPort.toNat = 65535 := rfl
  have zero : (0#16).toNat = 0 := rfl
  simp only [SendablePort, rteMaxEthports, ← BitVec.toNat_inj, toNat_repeatLow, bad, zero] at *
  omega

/-! ## The groups are the runs of joined packets -/

/-- The first `done` packets have their final destination ports, and the others will get them. -/
structure Settling (pktsBurst : Nat → MbufPtr) (ports : Nat → BitVec 16) (nbRx done : Nat)
    (packets : MbufHeap × (Nat → BitVec 16)) : Prop where
  settled : ∀ i, i < done → packets.2 i = ports i
  pending : ∀ i, done ≤ i → i < nbRx →
    (packets.1 (pktsBurst i)).checkedPort (packets.2 i) = ports i

theorem Settling.step {pktsBurst : Nat → MbufPtr} {ports : Nat → BitVec 16}
    {packets packets' : MbufHeap × (Nat → BitVec 16)}
    (settling : Settling pktsBurst ports nbRx done packets)
    (checked : Checked pktsBurst done count packets packets') (inside : done + count ≤ nbRx) :
    Settling pktsBurst ports nbRx (done + count) packets' where
  settled := by
    intro i below
    rcases Nat.lt_or_ge i done with early | late
    · rw [checked.outside i (Or.inl early)]
      exact settling.settled i early
    · rw [checked.inside i late below]
      exact settling.pending i late (by omega)
  pending := by
    intro i after below
    rw [(checked.verdict _).checkedPort, checked.outside i (Or.inr after)]
    exact settling.pending i (by omega) below

section Groups

variable {pktsBurst : Nat → MbufPtr} {ports : Nat → BitVec 16} {nbRx : Nat}

/-- What is known before the comparisons of a block: its packets have their final ports, the
register holds the ports that are compared, and the runs before it are counted. -/
structure BlockReady (pktsBurst : Nat → MbufPtr) (ports : Nat → BitVec 16) (nbRx block : Nat)
    (dp1 : Register) (grouping : Grouping) : Prop where
  settling : Settling pktsBurst ports nbRx (4 * (block + 1)) grouping.packets
  lanes : ∀ i, i < 4 → lane 16 dp1 i = ports (heldAt block + i)
  counted : RunCounter (label (ComparedEqual ports nbRx)) (counts grouping.pnum)
    (4 * block + 1) grouping.lp

theorem Settling.processx4Step3 (env : Env) {done : Nat}
    {packets : MbufHeap × (Nat → BitVec 16)} (settling : Settling pktsBurst ports nbRx done packets)
    (inside : done + 4 ≤ nbRx) :
    Settling pktsBurst ports nbRx (done + 4)
      (Altivec.processx4Step3 env pktsBurst done packets) := by
  rw [processx4Step3_eq]
  exact settling.step (checked_processx4Step3 env pktsBurst done packets) inside

/-- One round of the loop over the blocks. -/
theorem BlockReady.next (env : Env) (inside : nbRx ≤ maxPktBurst) {block : Nat} {dp1 : Register}
    {grouping : Grouping} (ready : BlockReady pktsBurst ports nbRx block dp1 grouping)
    (earlier : block + 1 < nbRx / fwdStep) :
    ∃ dp1' grouping', (∀ rounds, groupBlocks env pktsBurst (rounds + 1) (4 * (block + 1)) dp1
        grouping = groupBlocks env pktsBurst rounds (4 * (block + 1 + 1)) dp1' grouping') ∧
      BlockReady pktsBurst ports nbRx (block + 1) dp1' grouping' := by
  have fits : 4 * (block + 1) + 4 ≤ nbRx := by
    simp only [fwdStep] at earlier
    omega
  have settled := ready.settling.processx4Step3 env fits
  generalize isPackets : processx4Step3 env pktsBurst (4 * (block + 1)) grouping.packets =
    packets at settled
  have isBlock : 4 * (block + 1) - fwdStep = 4 * block := by
    simp only [fwdStep]
    omega
  let dp2 := loadLanes16 packets.2 (4 * block + 1)
  have dp2Lanes : ∀ i, i < 4 → lane 16 dp2 i = ports (4 * block + i + 1) := by
    intro i below
    rw [lane_loadLanes16 packets.2 _ i (by omega), Nat.add_right_comm]
    exact settled.settled _ (by omega)
  have compares : ∀ i, i < 4 → (lane 16 dp1 i = lane 16 dp2 i ↔
      NextEqual (label (ComparedEqual ports nbRx)) (4 * block) i) := by
    intro i below
    rw [ready.lanes i below, dp2Lanes i below]
    exact (comparedEqual_block earlier below).symm.trans (label_eq_succ_iff _).symm
  rcases portGroupx4_counts compares ready.counted (by omega) with ⟨pnum, lp, grouped, counted⟩
  have shifted : vecSro dp2 shiftOctets = dp2 := vecSro_zero dp2 (by decide +kernel)
  refine ⟨dp2, ⟨packets, pnum, lp⟩, ?_, settled, ?_, ?_⟩
  · intro rounds
    have isDp2 : loadLanes16 packets.2 (4 * block + 1) = dp2 := rfl
    simp only [groupBlocks, isPackets, isBlock, isDp2, bind, Except.bind]
    rw [grouped]
    dsimp only
    rw [shifted]
    rfl
  · intro i below
    have position : 4 * block + i + 1 = heldAt (block + 1) + i := by
      simp only [heldAt, fwdStep]
      omega
    rw [dp2Lanes i below, position]
  · have position : 4 * block + 1 + 4 = 4 * (block + 1) + 1 := by omega
    rw [← position]
    exact counted

theorem groupBlocks_spec (env : Env) (inside : nbRx ≤ maxPktBurst) :
    ∀ rounds block (dp1 : Register) (grouping : Grouping),
      block + 1 + rounds = nbRx / fwdStep → BlockReady pktsBurst ports nbRx block dp1 grouping →
      ∃ dp1' grouping', groupBlocks env pktsBurst rounds (4 * (block + 1)) dp1 grouping =
          .ok (dp1', grouping') ∧
        BlockReady pktsBurst ports nbRx (block + rounds) dp1' grouping'
  | 0, _, dp1, grouping, _, ready => ⟨dp1, grouping, rfl, ready⟩
  | rounds + 1, block, dp1, grouping, total, ready => by
      rcases ready.next env inside (by omega) with ⟨dp1', grouping', round, ready'⟩
      rcases groupBlocks_spec env inside rounds (block + 1) dp1' grouping' (by omega) ready' with
        ⟨dp1'', grouping'', rest, last⟩
      have blocks : block + (rounds + 1) = block + 1 + rounds := by omega
      rw [round rounds, blocks]
      exact ⟨dp1'', grouping'', rest, last⟩

/-- What is known before packet `j` of the tail: it is compared with the open run, or it opens
a run and its counter is still zero. -/
def TailReady (ports : Nat → BitVec 16) (nbRx j : Nat) (result : BitVec 16 × Grouping) : Prop :=
  (RunCounter (label (Joined ports nbRx)) (counts result.2.pnum) j result.2.lp ∧
    (result.1 = ports j ↔
      label (Joined ports nbRx) j = label (Joined ports nbRx) result.2.lp)) ∨
  (ExactCounts (label (Joined ports nbRx)) (counts result.2.pnum) j ∧
    StartsRun (label (Joined ports nbRx)) j ∧
    (j < nbRx → result.1 = ports j → result.2.lp = j ∧ result.2.pnum j = 0))

/-- The last block counts one packet more, which is then taken out again. -/
theorem portGroupx4_last {dp1 : Register} {pnum : Nat → BitVec 16} {block lp : Nat}
    (inside : nbRx ≤ maxPktBurst) (sendable : ∀ i, i < nbRx → SendablePort (ports i))
    (last : block + 1 = nbRx / fwdStep)
    (dp1Lanes : ∀ i, i < 4 → lane 16 dp1 i = ports (heldAt block + i))
    (counted : RunCounter (label (ComparedEqual ports nbRx)) (counts pnum) (4 * block + 1) lp) :
    ∃ pnum' lp', portGroupx4 pnum (4 * block) lp dp1
          (vecPerm dp1 0#128 (vecLiteral 8 16 [0xf9#8])) = .ok (pnum', lp') ∧
      RunCounter (label (ComparedEqual ports nbRx)) (counts pnum') (4 * (block + 1) + 1) lp' := by
  have fits : 4 * (block + 1) ≤ nbRx := by
    simp only [fwdStep] at last
    omega
  have held (i : Nat) (below : i < 4) : heldAt block + i < nbRx := by
    simp only [heldAt, fwdStep]
    omega
  refine portGroupx4_counts ?_ counted (by omega)
  intro i below
  rw [lane_vecPerm_single dp1 (by omega), dp1Lanes 0 (by omega), dp1Lanes i below]
  refine Iff.trans ?_ ((comparedEqual_last last below).symm.trans (label_eq_succ_iff _).symm)
  rw [LastEqual]
  split
  · rename_i first
    rw [first]
    exact eq_append_zero_iff _
  · exact eq_repeatLow_iff (sendable _ (held 0 (by omega))) (sendable _ (held i below))

section LastBlock

variable {pnum : Nat → BitVec 16} {last lp : Nat} (isLast : last + 1 = nbRx / fwdStep * fwdStep)

include isLast

theorem joined_atLast :
    Joined ports nbRx last ↔ ComparedEqual ports nbRx last ∧ ports last = ports (last + 1) :=
  and_congr_right' (forall_prop_of_true isLast)

/-- The run of the last packet is open: the count of the comparison behind it is taken out. -/
theorem lastBlock_continues (early : lp < last + 1)
    (counted : RunCounter (label (ComparedEqual ports nbRx)) (counts pnum) (last + 1 + 1) lp) :
    RunCounter (label (Joined ports nbRx)) (counts (Function.update pnum lp (pnum lp - 1)))
        (last + 1) lp ∧
      (ports last = ports (last + 1) ↔
        label (Joined ports nbRx) (last + 1) = label (Joined ports nbRx) lp) := by
  have compared : ComparedEqual ports nbRx last := by
    apply (label_eq_succ_iff _).mp
    rw [counted.constant last (by omega) (by omega),
      counted.constant (last + 1) (by omega) (by omega)]
  have retracted : RunCounter (label (ComparedEqual ports nbRx))
      (counts (Function.update pnum lp (pnum lp - 1))) (last + 1) lp := by
    refine counted.retract early ?_ ?_
    · rw [counts_update, Function.update_self]
      exact counts_pred counted
    · intro index before
      rw [counts_update, Function.update_of_ne (by omega)]
  have grouped : RunCounter (label (Joined ports nbRx))
      (counts (Function.update pnum lp (pnum lp - 1))) (last + 1) lp :=
    retracted.congr_values fun index below =>
      label_congr fun i before => joined_before (by omega)
  refine ⟨grouped, ?_⟩
  have isOpen := grouped.constant last (by omega) (by omega)
  calc ports last = ports (last + 1)
      ↔ Joined ports nbRx last := by rw [joined_atLast isLast, and_iff_right compared]
    _ ↔ label (Joined ports nbRx) last = label (Joined ports nbRx) (last + 1) :=
        (label_eq_succ_iff last).symm
    _ ↔ label (Joined ports nbRx) (last + 1) = label (Joined ports nbRx) lp := by
        rw [isOpen]
        exact eq_comm

/-- The last packet ends a run: the counter of the next one is set back to zero. -/
theorem lastBlock_opens
    (counted : RunCounter (label (ComparedEqual ports nbRx)) (counts pnum) (last + 1 + 1)
      (last + 1)) :
    RunCounter (label (Joined ports nbRx)) (counts pnum) (last + 1 + 1) (last + 1) ∧
      pnum (last + 1) - 1 = 0 := by
  have apart : ¬ ComparedEqual ports nbRx last := by
    intro compared
    rcases counted.starts with zero | changes
    · omega
    · exact changes ((label_eq_succ_iff last).mpr compared)
  constructor
  · refine counted.congr_values fun index below => label_congr fun i before => ?_
    rcases Nat.eq_or_lt_of_le (by omega : i ≤ last) with equal | less
    · rw [equal, joined_atLast isLast, and_iff_left_of_imp]
      exact fun compared => absurd compared apart
    · exact joined_before (by omega)
  · have counter := counted.counted
    have one : pnum (last + 1) = 1 := by
      apply BitVec.eq_of_toNat_eq
      simp only [counts] at counter
      change (pnum (last + 1)).toNat = 1
      omega
    rw [one]
    rfl

/-- After the last block, the first packet of the tail continues the open run or has a counter
that was set back to zero. -/
theorem lastBlock_ready {packets : MbufHeap × (Nat → BitVec 16)}
    (settling : Settling pktsBurst ports nbRx (last + 1) packets)
    (counted : RunCounter (label (ComparedEqual ports nbRx)) (counts pnum) (last + 1 + 1) lp) :
    TailReady ports nbRx (last + 1)
      (packets.2 last, ⟨packets, Function.update pnum lp (pnum lp - 1), lp⟩) := by
  rcases Nat.lt_or_ge lp (last + 1) with early | late
  · left
    dsimp only
    rw [settling.settled last (Nat.lt_succ_self last)]
    exact lastBlock_continues isLast early counted
  · right
    have isNew : lp = last + 1 := by
      have inside := counted.inside
      omega
    subst isNew
    rcases lastBlock_opens isLast counted with ⟨grouped, zero⟩
    refine ⟨grouped.exact_before ?_, grouped.starts, fun _ _ => ⟨rfl, ?_⟩⟩
    · intro index before
      rw [counts_update, Function.update_of_ne (by omega)]
    · exact (Function.update_self _ _ _).trans zero

end LastBlock

/-- Before the loop over the blocks, the counter of the first run is one. -/
theorem blockReady_first (env : Env) {packets : MbufHeap × (Nat → BitVec 16)}
    (settling : Settling pktsBurst ports nbRx 0 packets) (fits : 4 ≤ nbRx) :
    BlockReady pktsBurst ports nbRx 0
      (loadLanes16 (processx4Step3 env pktsBurst 0 packets).2 0)
      ⟨processx4Step3 env pktsBurst 0 packets, Function.update env.stack 0 1, 0⟩ := by
  have settled := settling.processx4Step3 env (by omega)
  refine ⟨settled, ?_, ?_⟩
  · intro i below
    rw [lane_loadLanes16 _ 0 i (by omega), settled.settled _ (by omega)]
    rfl
  · apply RunCounter.initial
    rw [counts_update, Function.update_self]
    rfl

theorem groupFours_spec (env : Env) {packets : MbufHeap × (Nat → BitVec 16)}
    (inside : nbRx ≤ maxPktBurst) (sendable : ∀ i, i < nbRx → SendablePort (ports i))
    (settling : Settling pktsBurst ports nbRx 0 packets) :
    ∃ result, groupFours env pktsBurst packets (nbRx / fwdStep * fwdStep) = .ok result ∧
      Settling pktsBurst ports nbRx (nbRx / fwdStep * fwdStep) result.2.packets ∧
      TailReady ports nbRx (nbRx / fwdStep * fwdStep) result := by
  cases isBlocks : nbRx / fwdStep with
  | zero =>
      rw [Nat.zero_mul]
      refine ⟨_, rfl, settling, Or.inr ⟨?_, Or.inl rfl, ?_⟩⟩
      · intro head length run
        have positive := run.positive
        have empty := run.inside
        omega
      · intro more unused
        rcases sendable 0 more with bad | valid
        · exact absurd (unused.trans bad) (by decide : badPort - 1 ≠ badPort)
        · exact absurd unused.symm (ne_badPort_pred valid)
  | succ rounds =>
      have fits : 4 * (rounds + 1) ≤ nbRx := by
        simp only [fwdStep] at isBlocks
        omega
      have isFours : (rounds + 1) * fwdStep = 4 * rounds + 3 + 1 := by
        simp only [fwdStep]
        omega
      rcases groupBlocks_spec env inside rounds 0 _ _ (by omega)
        (blockReady_first env settling (by omega)) with
        ⟨dp1, ⟨packets', pnum, lp⟩, blocks, ready⟩
      rw [Nat.zero_add] at ready
      rcases portGroupx4_last inside sendable isBlocks.symm ready.lanes ready.counted with
        ⟨pnum', lp', grouped, closed⟩
      have lpBound : lp' ≤ maxPktBurst := by
        have closedInside := closed.inside
        omega
      have isLast : 4 * rounds + 3 + 1 = nbRx / fwdStep * fwdStep := by rw [isBlocks, isFours]
      rw [isFours]
      refine ⟨_, ?_, ready.settling, lastBlock_ready isLast ready.settling closed⟩
      have notZero : 4 * rounds + 3 + 1 ≠ 0 := by omega
      have roundCount : (4 * rounds + 3 + 1) / fwdStep - 1 = rounds := by
        simp only [fwdStep]
        omega
      have lastBlock : 4 * rounds + 3 + 1 - fwdStep = 4 * rounds := by
        simp only [fwdStep]
        omega
      have firstBlock : groupBlocks env pktsBurst rounds fwdStep
          (loadLanes16 (processx4Step3 env pktsBurst 0 packets).2 0)
          ⟨processx4Step3 env pktsBurst 0 packets, Function.update env.stack 0 1, 0⟩ =
            .ok (dp1, ⟨packets', pnum, lp⟩) := blocks
      simp only [groupFours, if_pos notZero, roundCount, lastBlock,
        writePnum_ok _ _ (Nat.zero_le maxPktBurst), bind, Except.bind, firstBlock, grouped,
        writePnum_ok _ _ lpBound, Nat.add_sub_cancel]

theorem groupPortStep_ready {j : Nat} {dlp : BitVec 16} {grouping : Grouping}
    {dstPort : Nat → BitVec 16} (inside : nbRx ≤ maxPktBurst) (more : j < nbRx)
    (tail : nbRx / fwdStep * fwdStep ≤ j) (isPort : dstPort j = ports j)
    (ready : TailReady ports nbRx j (dlp, grouping)) :
    ∃ lp' pnum', groupPortStep dlp dstPort grouping.lp grouping.pnum j =
        .ok (ports j, lp', pnum') ∧
      ∀ packets, TailReady ports nbRx (j + 1) (ports j, ⟨packets, pnum', lp'⟩) := by
  have stepped : ∃ lp' pnum', groupPortStep dlp dstPort grouping.lp grouping.pnum j =
        .ok (dstPort j, lp', pnum') ∧
      RunCounter (label (Joined ports nbRx)) (counts pnum') (j + 1) lp' := by
    rcases ready with ⟨counted, continues⟩ | ⟨exact, starts, reset⟩
    · rw [← isPort] at continues
      exact groupPortStep_counts counted continues (by omega)
    · refine ⟨j, Function.update grouping.pnum j 1, ?_, RunCounter.opens exact starts ?_ ?_⟩
      · by_cases same : dlp = dstPort j
        · have isFirst : grouping.lp = j := (reset more (same.trans isPort)).1
          have zero : grouping.pnum j = 0 := (reset more (same.trans isPort)).2
          have one : grouping.pnum j + 1 = 1 := by
            rw [zero]
            rfl
          simp only [groupPortStep, if_pos same, isFirst, one,
            writePnum_ok _ _ (by omega : j ≤ maxPktBurst), bind, Except.bind]
          rw [same]
        · simp only [groupPortStep, if_neg same, writePnum_ok _ _ (by omega : j ≤ maxPktBurst),
            bind, Except.bind]
      · rw [counts_update, Function.update_self]
        rfl
      · intro index before
        rw [counts_update, Function.update_of_ne (by omega)]
  rcases stepped with ⟨lp', pnum', step, counted⟩
  rw [isPort] at step
  refine ⟨lp', pnum', step, fun packets => Or.inl ⟨counted, ?_⟩⟩
  have isOpen := counted.constant j (Nat.le_of_lt_succ counted.inside) (Nat.lt_succ_self j)
  calc ports j = ports (j + 1)
      ↔ Joined ports nbRx j := (joined_tail tail).symm
    _ ↔ label (Joined ports nbRx) j = label (Joined ports nbRx) (j + 1) :=
        (label_eq_succ_iff j).symm
    _ ↔ label (Joined ports nbRx) (j + 1) = label (Joined ports nbRx) lp' := by
        rw [isOpen]
        exact eq_comm

theorem groupTail_spec (env : Env) (inside : nbRx ≤ maxPktBurst) :
    ∀ count j result, j + count = nbRx → nbRx / fwdStep * fwdStep ≤ j →
      Settling pktsBurst ports nbRx j result.2.packets → TailReady ports nbRx j result →
      ∃ result', groupTail env pktsBurst count j result = .ok result' ∧
        Settling pktsBurst ports nbRx nbRx result'.2.packets ∧ TailReady ports nbRx nbRx result'
  | 0, j, result, total, _, settling, ready => by
      have isEnd : j = nbRx := total
      subst isEnd
      exact ⟨result, rfl, settling, ready⟩
  | count + 1, j, (dlp, grouping), total, tail, settling, ready => by
      have checked : Checked pktsBurst j 1 grouping.packets
          (visitOne pktsBurst (processPacket env) j grouping.packets) := by
        rw [processPacket_eq]
        exact Checked.visit pktsBurst (L3fwd.processPacket env) (sameVerdict_processPacket env)
          (processPacket_port env) 1 j grouping.packets
      generalize isPackets : visitOne pktsBurst (processPacket env) j grouping.packets =
        packets at checked
      have settled := settling.step checked (by omega)
      rcases groupPortStep_ready inside (by omega) tail
        (settled.settled j (Nat.lt_succ_self j)) ready with ⟨lp', pnum', step, ready'⟩
      rcases groupTail_spec env inside count (j + 1) (ports j, ⟨packets, pnum', lp'⟩) (by omega)
        (by omega) settled (ready' packets) with ⟨result', rest, last⟩
      refine ⟨result', ?_, last⟩
      simp only [groupTail, isPackets, step, bind, Except.bind]
      exact rest

/-- `pnum` counts the runs of joined packets. -/
theorem groupPackets_spec (env : Env) {mbufs : MbufHeap} {dstPort : Nat → BitVec 16}
    (inside : nbRx ≤ maxPktBurst) (sendable : ∀ i, i < nbRx → SendablePort (ports i))
    (final : ∀ i, i < nbRx → (mbufs (pktsBurst i)).checkedPort (dstPort i) = ports i) :
    ∃ grouping, groupPackets env mbufs pktsBurst dstPort nbRx = .ok grouping ∧
      (∀ i, i < nbRx → grouping.packets.2 i = ports i) ∧
      ExactCounts (label (Joined ports nbRx)) (counts grouping.pnum) nbRx := by
  have start : Settling pktsBurst ports nbRx 0 (mbufs, dstPort) :=
    ⟨fun i below => absurd below (Nat.not_lt_zero i), fun i _ below => final i below⟩
  rcases groupFours_spec env inside sendable start with ⟨fours, foursRun, settling, ready⟩
  rcases groupTail_spec env inside (nbRx % fwdStep) (nbRx / fwdStep * fwdStep) fours
    (Nat.div_add_mod' nbRx fwdStep) (Nat.le_refl _) settling ready with
    ⟨⟨dlp, grouping⟩, tailRun, settled, tailReady⟩
  refine ⟨grouping, ?_, settled.settled, ?_⟩
  · simp only [groupPackets, bind, Except.bind, foursRun, tailRun]
  · rcases tailReady with ⟨counted, _⟩ | ⟨exact, _⟩
    · exact fun _ _ run => counted.exact run
    · exact exact

end Groups

/-- The final destination port of each packet. -/
def finalPort (mbufs : MbufHeap) (pktsBurst : Nat → MbufPtr) (dstPort : Nat → BitVec 16)
    (i : Nat) : BitVec 16 :=
  (mbufs (pktsBurst i)).checkedPort (dstPort i)

theorem sendable_finalPort (mbufs : MbufHeap) (pktsBurst : Nat → MbufPtr)
    {dstPort : Nat → BitVec 16} {i : Nat} (valid : (dstPort i).toNat < rteMaxEthports) :
    SendablePort (finalPort mbufs pktsBurst dstPort i) := by
  rw [finalPort, RteMbuf.checkedPort]
  split
  · exact Or.inl rfl
  · exact Or.inr valid

/-- The neighbours that are joined have the same port, outside of the runs that are freed. -/
def JoinsEqual (ports : Nat → BitVec 16) (nbRx : Nat) : Prop :=
  ∀ i, i + 1 < nbRx → Joined ports nbRx i → ports (headOf (Joined ports nbRx) i) ≠ badPort →
    ports i = ports (i + 1)

/-- A burst is sent as groups that cover it. Each packet of each group has the port that the
group is sent to if and only if joined neighbours have the same port. -/
theorem altivecGroups_uniform_iff (env : Env) (state : LcoreState) (pktsBurst : Nat → MbufPtr)
    (dstPort : Nat → BitVec 16) (nbRx : Nat) (inside : nbRx ≤ maxPktBurst)
    (valid : ∀ i, i < nbRx → (dstPort i).toNat < rteMaxEthports) :
    ∃ (grouping : Grouping) (groups : List Dispatch),
      groupPackets env state.mbufs pktsBurst dstPort nbRx = .ok grouping ∧
      (∀ i, i < nbRx → grouping.packets.2 i = finalPort state.mbufs pktsBurst dstPort i) ∧
      (∀ group ∈ groups, 0 < group.count ∧ group.count = (grouping.pnum group.first).toNat ∧
        group.port = grouping.packets.2 group.first) ∧
      groups.flatMap (fun group => List.range' group.first group.count) = List.range nbRx ∧
      sendPacketsMulti env state pktsBurst dstPort nbRx =
        groups.foldlM (Dispatch.exec env pktsBurst)
          ({ state with mbufs := grouping.packets.1 }, ⟨0, 0⟩) ∧
      ((∀ group ∈ groups, group.port ≠ badPort → ∀ i, group.first ≤ i →
          i < group.first + group.count → grouping.packets.2 i = group.port) ↔
        JoinsEqual (finalPort state.mbufs pktsBurst dstPort) nbRx) := by
  rcases groupPackets_spec env inside
    (fun i below => sendable_finalPort state.mbufs pktsBurst (valid i below))
    (fun i _ => rfl) with ⟨grouping, grouped, final, exact⟩
  rcases exists_tiling (label (Joined (finalPort state.mbufs pktsBurst dstPort) nbRx)) nbRx with
    ⟨runs, tiled⟩
  refine ⟨grouping, groupsOf grouping.packets.2 runs, grouped, final, ?_, ?_, ?_, ?_⟩
  · intro group member
    rcases List.mem_map.mp member with ⟨run, inRuns, rfl⟩
    have maximal := tiled.maximalRun_of_mem inRuns
    exact ⟨maximal.positive, (exact _ _ maximal).symm, rfl⟩
  · rw [groupsOf, List.flatMap_map]
    exact tiled.flatMap_range'.trans List.range_eq_range'.symm
  · simp only [sendPacketsMulti, grouped, bind, Except.bind]
    exact sendLoop_eq env pktsBurst tiled exact nbRx _ (Nat.sub_le nbRx 0)
  · refine Iff.trans ?_ (uniform_iff tiled (· = badPort))
    rw [groupsOf, List.forall_mem_map]
    refine forall₂_congr fun run inRuns => ?_
    have maximal := tiled.maximalRun_of_mem inRuns
    have positive := maximal.positive
    have fits := maximal.inside
    have atHead := final run.1 (by omega)
    dsimp only
    rw [atHead]
    refine imp_congr_right fun _ => forall_congr' fun i =>
      imp_congr_right fun _ => imp_congr_right fun before => ?_
    rw [final i (by omega)]

/-- Five packets, of which the first four have port zero. -/
theorem altivecGroups_uniform_five :
    ∃ (grouping : Grouping) (groups : List Dispatch),
      groupPackets default (fun _ => default) id (fun i => if i < 4 then 0#16 else 7#16) 5 =
        .ok grouping ∧
      groups.flatMap (fun group => List.range' group.first group.count) = List.range 5 ∧
      ∀ group ∈ groups, group.port ≠ badPort → ∀ i, group.first ≤ i →
        i < group.first + group.count → grouping.packets.2 i = group.port := by
  rcases altivecGroups_uniform_iff default
    { (default : LcoreState) with mbufs := fun _ => default } id
    (fun i => if i < 4 then 0#16 else 7#16) 5 (by decide) (by decide) with
    ⟨grouping, groups, grouped, _, _, covered, _, uniform⟩
  refine ⟨grouping, groups, grouped, covered, uniform.mpr ?_⟩
  intro i more
  have below : i < 4 := by omega
  clear more
  revert i
  decide +kernel

/-- The packets for port one are compared with zero. The first of them is sent to port zero. -/
theorem altivecGroups_notUniform :
    ∃ grouping : Grouping,
      groupPackets default (fun _ => default) id (fun i => if i = 0 then 0#16 else 1#16) 4 =
        .ok grouping ∧
      grouping.packets.2 0 ≠ badPort ∧ 1 < (grouping.pnum 0).toNat ∧
      grouping.packets.2 1 ≠ grouping.packets.2 0 := by
  let ports := finalPort (fun _ => default) id fun i => if i = 0 then 0#16 else 1#16
  have sendable : ∀ i, i < 4 → SendablePort (ports i) := by
    intro i below
    refine sendable_finalPort (fun _ => default) id ?_
    revert i
    decide
  obtain ⟨grouping, grouped, final, exact⟩ : ∃ grouping : Grouping,
      groupPackets default (fun _ => default) id (fun i => if i = 0 then 0#16 else 1#16) 4 =
        .ok grouping ∧
      (∀ i, i < 4 → grouping.packets.2 i = ports i) ∧
      ExactCounts (label (Joined ports 4)) (counts grouping.pnum) 4 :=
    groupPackets_spec default (by decide) sendable (fun _ _ => rfl)
  have run : MaximalRun (label (Joined ports 4)) 4 0 2 :=
    ⟨by decide, Or.inl rfl, by decide, by decide +kernel, Or.inr (by decide +kernel)⟩
  have two : (grouping.pnum 0).toNat = 2 := exact 0 2 run
  refine ⟨grouping, grouped, ?_, ?_, ?_⟩
  · rw [final 0 (by decide)]
    decide
  · rw [two]
    decide
  · rw [final 0 (by decide), final 1 (by decide)]
    decide

end PacketForwarding.L3fwd.Altivec
