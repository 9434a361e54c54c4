import PacketForwarding.Foundation.Neon
import PacketForwarding.L3fwd.EmExtractors
import PacketForwarding.L3fwd.EventVector

/-! # Sending a burst on ARM

The same grouping once more. The registers hold other values in their high halves, but only
the low halves are compared, so nothing comes out differently.
-/

namespace PacketForwarding.L3fwd.Neon

open Lanes Cells

/-! ## The code -/

/-- Group consecutive packets with the same destination port in bursts of 4. -/
def portGroupx4 (pnum : Nat → BitVec 16) (pn lp : Nat) (dp1 dp2 : Register) :
    Except Fault ((Nat → BitVec 16) × Nat) := do
  let dp1 := vceqqU16 dp1 dp2
  let dp1 := vandqU16 dp1 laneBits
  let v := vaddvqU16 dp1
  let entry := gptbl (v.setWidth 4)
  -- update last port counter
  let pnum ← writePnum pnum lp (pnum lp + entry.lpv)
  -- if dest port value has changed
  if v ≠ grpmsk.setWidth 16 then
    let pnum ← writePnumU64 pnum pn entry.pnum
    let pnum ← writePnum pnum (pn + fwdStep) 1
    .ok (pnum, pn + entry.idx)
  else
    .ok (pnum, lp)

def processPacket (env : Env) (pkt : RteMbuf) (dstPort : BitVec 16) : RteMbuf × BitVec 16 :=
  let te := vld1qS32 pkt.data 0
  let ve := env.valEth dstPort.toNat
  let (data, dstPort) := rfc1812Process pkt.data dstPort pkt.packetType
  let ve := vcopyqLaneqU32 ve 3 te 3
  (RteMbuf.storeEth { pkt with data := data } ve, dstPort)

def processx4Step3 (env : Env) (pkt : Nat → MbufPtr) (j : Nat)
    (packets : MbufHeap × (Nat → BitVec 16)) : MbufHeap × (Nat → BitVec 16) :=
  let ve := fun i => env.valEth (packets.2 i).toNat
  let te := fun i => vld1qS32 (packets.1 (pkt i)).data 0
  -- update last 4 bytes
  let ve := fun i => vsetqLaneU32 (lane 32 (te i) 3) (ve i) 3
  let stored := visit pkt (fun mbuf ve => (mbuf.storeEth ve, ve)) fwdStep j (packets.1, ve)
  visit pkt (fun mbuf dp =>
    let (data, dp) := rfc1812Process mbuf.data dp mbuf.packetType
    ({ mbuf with data := data }, dp)) fwdStep j (stored.1, packets.2)

/-- `for (j = FWDSTEP; j != k; j += FWDSTEP)`, once for each round. -/
def groupBlocks (env : Env) (pktsBurst : Nat → MbufPtr) :
    Nat → Nat → Register → Grouping → Except Fault (Register × Grouping)
  | 0, _, dp1, grouping => .ok (dp1, grouping)
  | rounds + 1, j, dp1, grouping => do
      let packets := processx4Step3 env pktsBurst j grouping.packets
      -- dp2: <d[j-3], d[j-2], d[j-1], d[j], ... >
      let dp2 := loadLanes16 packets.2 (j - fwdStep + 1)
      let (pnum, lp) ← portGroupx4 grouping.pnum (j - fwdStep) grouping.lp dp1 dp2
      -- dp1: <d[j], d[j+1], d[j+2], d[j+3], ... >
      let dp1 := vextqU16 dp2 dp1 (fwdStep - 1)
      groupBlocks env pktsBurst rounds (j + fwdStep) dp1 ⟨packets, pnum, lp⟩

def groupFours (env : Env) (pktsBurst : Nat → MbufPtr)
    (packets : MbufHeap × (Nat → BitVec 16)) (k : Nat) :
    Except Fault (BitVec 16 × Grouping) := do
  if k ≠ 0 then
    let pnum ← writePnum env.stack 0 1
    let packets := processx4Step3 env pktsBurst 0 packets
    let dp1 := loadLanes16 packets.2 0
    let (dp1, grouping) ←
      groupBlocks env pktsBurst (k / fwdStep - 1) fwdStep dp1 ⟨packets, pnum, 0⟩
    -- dp2: <d[j-3], d[j-2], d[j-1], d[j-1], ... >
    let dp2 := vextqU16 dp1 dp1 1
    let dp2 := vsetqLaneU16 (lane 16 dp2 2) dp2 3
    let (pnum, lp) ← portGroupx4 grouping.pnum (k - fwdStep) grouping.lp dp1 dp2
    -- remove values added by the last repeated dst port
    let pnum ← writePnum pnum lp (pnum lp - 1)
    .ok (grouping.packets.2 (k - 1), ⟨grouping.packets, pnum, lp⟩)
  else
    -- set dlp and lp to the never used values
    .ok (badPort - 1, ⟨packets, env.stack, maxPktBurst⟩)

/-- Process up to last 3 packets one by one. -/
def groupTail (env : Env) (pktsBurst : Nat → MbufPtr) :
    Nat → Nat → BitVec 16 × Grouping → Except Fault (BitVec 16 × Grouping)
  | 0, _, result => .ok result
  | count + 1, j, (dlp, grouping) => do
      let packets := visitOne pktsBurst (processPacket env) j grouping.packets
      let (dlp, lp, pnum) ← groupPortStep dlp packets.2 grouping.lp grouping.pnum j
      groupTail env pktsBurst count (j + 1) (dlp, ⟨packets, pnum, lp⟩)

def groupPackets (env : Env) (mbufs : MbufHeap) (pktsBurst : Nat → MbufPtr)
    (dstPort : Nat → BitVec 16) (nbRx : Nat) : Except Fault Grouping := do
  let k := nbRx / fwdStep * fwdStep
  let fours ← groupFours env pktsBurst (mbufs, dstPort) k
  let (_, grouping) ← groupTail env pktsBurst (nbRx % fwdStep) k fours
  .ok grouping

def sendPacketsMulti (env : Env) (state : LcoreState) (pktsBurst : Nat → MbufPtr)
    (dstPort : Nat → BitVec 16) (nbRx : Nat) : Except Fault (LcoreState × TxStats) := do
  let grouping ← groupPackets env state.mbufs pktsBurst dstPort nbRx
  sendLoop env pktsBurst grouping.packets.2 grouping.pnum nbRx nbRx 0
    ({ state with mbufs := grouping.packets.1 }, ⟨0, 0⟩)

/-- `dst_ports[i], ..., dst_ports[i + 7]` are equal to `dst_ports[0]`. -/
def eightPortsEqual (dstPorts : Nat → BitVec 16) (i : Nat) : Prop :=
  let dp1 := vceqqU16 (loadLanes16 dstPorts i) (vdupqNU16 (dstPorts 0))
  vshrnNU16 dp1 4 = BitVec.allOnes 64

/-- `dst_ports[i], ..., dst_ports[i + 3]` are equal to `dst_ports[0]`. -/
def fourPortsEqual (dstPorts : Nat → BitVec 16) (i : Nat) : Prop :=
  vceqU16 (vld1U16 dstPorts i) (vdupNU16 (dstPorts 0)) = BitVec.allOnes 64

instance (dstPorts : Nat → BitVec 16) : DecidablePred (eightPortsEqual dstPorts) :=
  fun _ => inferInstanceAs (Decidable (_ = _))

instance (dstPorts : Nat → BitVec 16) : DecidablePred (fourPortsEqual dstPorts) :=
  fun _ => inferInstanceAs (Decidable (_ = _))

/-- Eight at a time, then four, then one by one. The first difference ends the search. -/
def processDstPort (dstPorts : Nat → BitVec 16) (nbElem : Nat) : BitVec 16 :=
  let eights := nbElem / 8
  let fours := nbElem % 8 / 4
  if ¬ ∀ k ∈ List.range eights, eightPortsEqual dstPorts (8 * k) then
    badPort
  else if ¬ ∀ k ∈ List.range fours, fourPortsEqual dstPorts (8 * eights + 4 * k) then
    badPort
  else if ¬ ∀ k ∈ List.range (nbElem % 4), onePortEqual dstPorts (8 * eights + 4 * fours + k) then
    badPort
  else
    dstPorts 0

/-! ## Single packets and groups of four -/

theorem processPacket_eq (env : Env) : processPacket env = L3fwd.processPacket env := by
  funext pkt dstPort
  rw [processPacket, L3fwd.processPacket]
  simp only [vld1qS32_eq, vcopyqLaneqU32_eq, vsetqLaneU32_last]
  rfl

theorem processx4Step3_eq (env : Env) : processx4Step3 env = L3fwd.processx4Step3 env := by
  funext pkt j packets
  rw [processx4Step3, L3fwd.processx4Step3]
  simp only [vld1qS32_eq, vsetqLaneU32_last]
  rfl

/-! ## The grouping -/

theorem setWidth_ne_grpmsk (v : BitVec 4) : v.setWidth 16 ≠ grpmsk.setWidth 16 ↔ v ≠ grpmsk := by
  revert v
  decide

/-- The sum of the comparisons is the number that they make as bits. -/
theorem portGroupx4_eq (pnum : Nat → BitVec 16) (pn lp : Nat) (dp1 dp2 : Register) :
    portGroupx4 pnum pn lp dp1 dp2 = L3fwd.portGroupx4 pnum pn lp dp1 dp2 := by
  rw [portGroupx4, L3fwd.portGroupx4]
  simp only [vaddvqU16_vceqqU16, BitVec.setWidth_setWidth_of_le _ (by decide : 4 ≤ 16),
    BitVec.setWidth_eq, setWidth_ne_grpmsk]

/-- The half of a register that is compared. -/
def low (register : Register) : HalfRegister :=
  lane 64 register 0

theorem lane_low (register : Register) {index : Nat} (inside : index < 4) :
    lane 16 (low register) index = lane 16 register index :=
  (lane_lane 16 4 register 0 index inside).trans (congrArg _ (Nat.zero_add index))

theorem low_eq_iff {register other : Register} :
    low register = low other ↔
      ∀ index, index < 4 → lane 16 register index = lane 16 other index := by
  constructor
  · intro same index inside
    rw [← lane_low register inside, same, lane_low other inside]
  · intro same
    apply ext_lanes 16 4
    intro index inside
    exact (lane_low register inside).trans ((same index inside).trans (lane_low other inside).symm)

/-- What `portGroupx4` does depends on the low halves only. -/
theorem portGroupx4_congr (pnum : Nat → BitVec 16) (pn lp : Nat) {dp1 dp1' dp2 dp2' : Register}
    (same1 : low dp1 = low dp1') (same2 : low dp2 = low dp2') :
    portGroupx4 pnum pn lp dp1 dp2 = L3fwd.portGroupx4 pnum pn lp dp1' dp2' := by
  have masks : movemaskPs (unpackloEpi16 (cmpeqEpi16 dp1 dp2) (cmpeqEpi16 dp1 dp2)) =
      movemaskPs (unpackloEpi16 (cmpeqEpi16 dp1' dp2') (cmpeqEpi16 dp1' dp2')) := by
    apply BitVec.eq_of_getLsbD_eq
    intro index inside
    rw [getLsbD_movemask_cmpeq dp1 dp2 index inside,
      getLsbD_movemask_cmpeq dp1' dp2' index inside, low_eq_iff.mp same1 index inside,
      low_eq_iff.mp same2 index inside]
  rw [portGroupx4_eq, L3fwd.portGroupx4, L3fwd.portGroupx4, masks]

/-- The next register holds the same ports, wherever the others come from. -/
theorem low_shifted (dp1 dp2 : Register) :
    low (vextqU16 dp2 dp1 (fwdStep - 1)) = low (srliSi128 dp2 (2 * (fwdStep - 1))) := by
  apply low_eq_iff.mpr
  intro index inside
  have within : index + (fwdStep - 1) < 8 := by
    simp only [fwdStep]
    omega
  rw [lane_vextqU16 dp2 dp1 within, lane_srliSi128]

/-- The last port is repeated. -/
theorem low_repeated {dp1 dp1' : Register} (same : low dp1 = low dp1') :
    low (vsetqLaneU16 (lane 16 (vextqU16 dp1 dp1 1) 2) (vextqU16 dp1 dp1 1) 3) =
      low (shuffleloEpi16 dp1' 0xf9#8) := by
  have places : ∀ index : Fin 4, (lane 2 (0xf9#8 : BitVec 8) index.val).toNat =
      if index.val = 3 then 3 else index.val + 1 := by
    decide
  apply low_eq_iff.mpr
  intro index inside
  rw [lane_vsetqLaneU16 _ _ _ (by omega), lane_shuffleloEpi16 dp1' _ index inside,
    places ⟨index, inside⟩]
  by_cases last : index = 3
  · rw [if_pos last, if_pos last, lane_vextqU16 dp1 dp1 (by decide)]
    exact low_eq_iff.mp same 3 (by decide)
  · rw [if_neg last, if_neg last, lane_vextqU16 dp1 dp1 (by omega)]
    exact low_eq_iff.mp same (index + 1) (by omega)

/-- The blocks are grouped alike, and the registers left agree in their low halves. -/
theorem groupBlocks_low (env : Env) (pktsBurst : Nat → MbufPtr) :
    ∀ rounds j (dp1 dp1' : Register) grouping, low dp1 = low dp1' →
      (groupBlocks env pktsBurst rounds j dp1 grouping).map (Prod.map low id) =
        (L3fwd.groupBlocks env pktsBurst rounds j dp1' grouping).map (Prod.map low id)
  | 0, _, dp1, dp1', grouping, same => congrArg (fun half => Except.ok (half, grouping)) same
  | rounds + 1, j, dp1, dp1', grouping, same => by
      rw [groupBlocks, L3fwd.groupBlocks, processx4Step3_eq]
      dsimp only
      rw [portGroupx4_congr _ _ _ same rfl]
      cases L3fwd.portGroupx4 grouping.pnum (j - fwdStep) grouping.lp dp1'
          (loadLanes16 (L3fwd.processx4Step3 env pktsBurst j grouping.packets).2
            (j - fwdStep + 1)) with
      | error fault => rfl
      | ok grouped =>
          exact groupBlocks_low env pktsBurst rounds (j + fwdStep) _ _ _ (low_shifted dp1 _)

theorem groupFours_eq (env : Env) : groupFours env = L3fwd.groupFours env := by
  funext pktsBurst packets k
  rw [groupFours, L3fwd.groupFours, processx4Step3_eq]
  by_cases none : k ≠ 0
  · rw [if_pos none, if_pos none]
    cases writePnum env.stack 0 1 with
    | error fault => rfl
    | ok pnum =>
        let packets := L3fwd.processx4Step3 env pktsBurst 0 packets
        have blocks := groupBlocks_low env pktsBurst (k / fwdStep - 1) fwdStep
          (loadLanes16 packets.2 0) _ ⟨packets, pnum, 0⟩ rfl
        simp only [bind, Except.bind]
        cases ran : groupBlocks env pktsBurst (k / fwdStep - 1) fwdStep (loadLanes16 packets.2 0)
            ⟨packets, pnum, 0⟩ with
        | error fault =>
            cases ran' : L3fwd.groupBlocks env pktsBurst (k / fwdStep - 1) fwdStep
                (loadLanes16 packets.2 0) ⟨packets, pnum, 0⟩ with
            | error fault' =>
                rw [ran, ran'] at blocks
                exact congrArg Except.error (Except.error.inj blocks)
            | ok _ =>
                rw [ran, ran'] at blocks
                cases blocks
        | ok result =>
            cases ran' : L3fwd.groupBlocks env pktsBurst (k / fwdStep - 1) fwdStep
                (loadLanes16 packets.2 0) ⟨packets, pnum, 0⟩ with
            | error _ =>
                rw [ran, ran'] at blocks
                cases blocks
            | ok result' =>
                rw [ran, ran'] at blocks
                have pairs := Prod.mk.inj (Except.ok.inj blocks)
                have last := portGroupx4_congr result.2.pnum (k - fwdStep) result.2.lp pairs.1
                  (low_repeated pairs.1)
                have same : result.2 = result'.2 := pairs.2
                dsimp only
                rw [last, same]
  · rw [if_neg none, if_neg none]

theorem groupTail_eq (env : Env) (pktsBurst : Nat → MbufPtr) :
    ∀ count j result, groupTail env pktsBurst count j result =
      L3fwd.groupTail env pktsBurst count j result
  | 0, _, _ => rfl
  | count + 1, j, (dlp, grouping) => by
      rw [groupTail, L3fwd.groupTail, processPacket_eq]
      apply bind_congr
      intro counted
      exact groupTail_eq env pktsBurst count (j + 1) _

theorem groupPackets_eq (env : Env) : groupPackets env = L3fwd.groupPackets env := by
  funext mbufs pktsBurst dstPort nbRx
  rw [groupPackets, L3fwd.groupPackets, groupFours_eq]
  simp only [groupTail_eq]

theorem sendPacketsMulti_eq (env : Env) : sendPacketsMulti env = L3fwd.sendPacketsMulti env := by
  funext state pktsBurst dstPort nbRx
  rw [sendPacketsMulti, L3fwd.sendPacketsMulti, groupPackets_eq]

/-! ## One port in common -/

theorem eightPortsEqual_iff (dstPorts : Nat → BitVec 16) (i : Nat) :
    eightPortsEqual dstPorts i ↔ L3fwd.eightPortsEqual dstPorts i := by
  rw [L3fwd.eightPortsEqual_iff, eightPortsEqual, vshrnNU16_vceqqU16_iff]
  apply forall_congr'
  intro k
  apply forall_congr'
  intro inside
  rw [lane_loadLanes16 dstPorts i k inside, vdupqNU16, lane_ofLanes 16 8 _ _ inside]

theorem fourPortsEqual_iff (dstPorts : Nat → BitVec 16) (i : Nat) :
    fourPortsEqual dstPorts i ↔ L3fwd.fourPortsEqual dstPorts i := by
  rw [L3fwd.fourPortsEqual_iff, fourPortsEqual, vceqU16_iff]
  apply forall_congr'
  intro k
  apply forall_congr'
  intro inside
  rw [vld1U16, lane_ofLanes 16 4 _ _ inside, vdupNU16, lane_ofLanes 16 4 _ _ inside]

theorem processDstPort_eq : processDstPort = L3fwd.processDstPort := by
  funext dstPorts nbElem
  rw [processDstPort, L3fwd.processDstPort]
  simp only [eightPortsEqual_iff, fourPortsEqual_iff]

end PacketForwarding.L3fwd.Neon
