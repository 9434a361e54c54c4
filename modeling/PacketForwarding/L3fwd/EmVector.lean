import PacketForwarding.L3fwd.EventVector

/-! # Exact match for event vectors

With lookups of several packets at once, the packets of a vector that do not fill a
group of eight are processed on the port they came from, while the filter behind looks
at the port that was found. The sequential variant has one port for both.
-/

namespace PacketForwarding.L3fwd

open Lanes Cells

/-! ## The two variants -/

/-- `l3fwd_em_process_packets` for the single packet at position `i`. -/
def emProcessVectorElem (env : Env) (tables : EmTables) (mbufs : Nat → MbufPtr)
    (packets : MbufHeap × (Nat → BitVec 16)) (i : Nat) : MbufHeap × (Nat → BitVec 16) :=
  let one := l3fwdEmProcessPackets env tables packets.1 1 (fun k => mbufs (i + k))
    (fun k => packets.2 (i + k)) (packets.1 (mbufs i)).port true
  (one.1, fun k => if i ≤ k then one.2 (k - i) else packets.2 k)

def l3fwdEmProcessEventVector (env : Env) (tables : EmTables) (mbufs : MbufHeap)
    (vec : RteEventVector) (dstPort : Nat → BitVec 16) : VectorState :=
  let packets :=
    if vec.attrValid then
      l3fwdEmProcessPackets env tables mbufs vec.nbElem vec.mbufs dstPort vec.port true
    else
      (List.range vec.nbElem).foldl (emProcessVectorElem env tables vec.mbufs) (mbufs, dstPort)
  processEventVector packets.1 vec packets.2

def Sequential.emVectorPort (env : Env) (tables : EmTables) (mbufs : MbufHeap)
    (vec : RteEventVector) (i : Nat) : BitVec 16 :=
  let pkt := mbufs (vec.mbufs i)
  Sequential.emGetDstPort env tables pkt (if vec.attrValid then vec.port else pkt.port)

def Sequential.l3fwdEmProcessEventVector (env : Env) (tables : EmTables) (mbufs : MbufHeap)
    (vec : RteEventVector) (dstPorts : Nat → BitVec 16) : VectorState :=
  let dstPorts := assign (Sequential.emVectorPort env tables mbufs vec) 0 vec.nbElem dstPorts
  let j := vec.nbElem / fwdStep * fwdStep
  let packets := forFours (processx4Step3 env vec.mbufs) (vec.nbElem / fwdStep) 0 (mbufs, dstPorts)
  let packets := visit vec.mbufs (processPacket env) (vec.nbElem - j) j packets
  processEventVector packets.1 vec packets.2

/-! ## What is looked up -/

/-- The port that the lookup of several packets at once finds for packet `i`. -/
def emVectorPort (env : Env) (tables : EmTables) (mbufs : MbufHeap) (vec : RteEventVector)
    (i : Nat) : BitVec 16 :=
  let pkt := mbufs (vec.mbufs i)
  if vec.attrValid then
    if i < vec.nbElem / emHashLookupCount * emHashLookupCount then
      let first := i / emHashLookupCount * emHashLookupCount
      emGroupPort env tables (groupType mbufs fun i => vec.mbufs (first + i)) pkt vec.port
    else
      emGetDstPort env tables pkt vec.port
  else
    emGetDstPort env tables pkt pkt.port

/-- The packet at position `i` is in no group of eight. -/
def EmVectorTail (vec : RteEventVector) (i : Nat) : Prop :=
  vec.attrValid = false ∨ vec.nbElem / emHashLookupCount * emHashLookupCount ≤ i

instance (vec : RteEventVector) : DecidablePred (EmVectorTail vec) :=
  fun _ => inferInstanceAs (Decidable (_ ∨ _))

/-- The incoming ports of a vector exist. -/
def RteEventVector.PortsExist (vec : RteEventVector) (mbufs : MbufHeap) : Prop :=
  if vec.attrValid then vec.port.toNat < rteMaxEthports
  else ∀ i, i < vec.nbElem → (mbufs (vec.mbufs i)).port.toNat < rteMaxEthports

theorem emVectorPort_lt (env : Env) (tables : EmTables) {mbufs : MbufHeap}
    {vec : RteEventVector} (exist : vec.PortsExist mbufs) {i : Nat} (inside : i < vec.nbElem) :
    (emVectorPort env tables mbufs vec i).toNat < rteMaxEthports := by
  unfold emVectorPort
  dsimp only
  cases valid : vec.attrValid with
  | true =>
      simp only [RteEventVector.PortsExist, valid, if_true] at exist ⊢
      split
      · exact emGroupPort_lt env tables _ _ exist
      · exact emGetDstPort_lt env tables _ exist
  | false =>
      simp only [RteEventVector.PortsExist, valid, Bool.false_eq_true, if_false] at exist ⊢
      exact emGetDstPort_lt env tables _ (exist i inside)

theorem Sequential.emVectorPort_lt (env : Env) (tables : EmTables) {mbufs : MbufHeap}
    {vec : RteEventVector} (exist : vec.PortsExist mbufs) {i : Nat} (inside : i < vec.nbElem) :
    (Sequential.emVectorPort env tables mbufs vec i).toNat < rteMaxEthports := by
  unfold Sequential.emVectorPort
  dsimp only
  cases valid : vec.attrValid with
  | true =>
      simp only [RteEventVector.PortsExist, valid, if_true] at exist ⊢
      exact Sequential.emGetDstPort_lt env tables _ exist
  | false =>
      simp only [RteEventVector.PortsExist, valid, Bool.false_eq_true, if_false] at exist ⊢
      exact Sequential.emGetDstPort_lt env tables _ (exist i inside)

/-! ## What is processed -/

section

variable (env : Env) (vec : RteEventVector) (looked : Nat → BitVec 16) (tail : Nat → Prop)
  [DecidablePred tail] (mbufs : MbufHeap)

/-- A packet of the tail is processed on its own port, every other one on the port that
was found for it. -/
def vectorPkt (i : Nat) : RteMbuf :=
  if tail i then processOwnPort env (mbufs (vec.mbufs i))
  else (processPacket env (mbufs (vec.mbufs i)) (looked i)).1

/-- The port that was found for a packet of the tail is not checked. -/
def vectorDst (i : Nat) : BitVec 16 :=
  if tail i then looked i else (mbufs (vec.mbufs i)).checkedPort (looked i)

/-- The first `count` packets and ports have been processed. -/
structure VectorProcessed (dstPort : Nat → BitVec 16) (count : Nat)
    (packets : MbufHeap × (Nat → BitVec 16)) : Prop where
  cells : Written vec.mbufs (vectorPkt env vec looked tail mbufs) 0 count mbufs packets.1
  ports : Written id (vectorDst vec looked tail mbufs) 0 count dstPort packets.2

end

theorem distinct_id (first count : Nat) : Distinct (id : Nat → Nat) first count :=
  fun _ _ _ _ _ _ same => same

/-- One more stretch of packets and ports. -/
theorem VectorProcessed.append {env : Env} {vec : RteEventVector} {looked : Nat → BitVec 16}
    {tail : Nat → Prop} [DecidablePred tail] {mbufs : MbufHeap} {dstPort : Nat → BitVec 16}
    {first count : Nat} {packets packets' : MbufHeap × (Nat → BitVec 16)}
    (distinct : Distinct vec.mbufs 0 vec.nbElem) (inRange : first + count ≤ vec.nbElem)
    (processed : VectorProcessed env vec looked tail mbufs dstPort first packets)
    (cells : Written vec.mbufs (vectorPkt env vec looked tail mbufs) first count
      packets.1 packets'.1)
    (ports : Written id (vectorDst vec looked tail mbufs) first count packets.2 packets'.2) :
    VectorProcessed env vec looked tail mbufs dstPort (first + count) packets' where
  cells := Written.append (Nat.zero_add first).symm rfl
    (distinct.sub (Nat.le_refl 0) (by omega)) processed.cells cells
  ports := Written.append (Nat.zero_add first).symm rfl (distinct_id _ _) processed.ports ports

theorem Sequential.vectorProcessed (env : Env) (tables : EmTables) (mbufs : MbufHeap)
    {vec : RteEventVector} (dstPorts : Nat → BitVec 16)
    (distinct : Distinct vec.mbufs 0 vec.nbElem) :
    ∃ packets, Sequential.l3fwdEmProcessEventVector env tables mbufs vec dstPorts =
        processEventVector packets.1 vec packets.2 ∧
      VectorProcessed env vec (Sequential.emVectorPort env tables mbufs vec) (fun _ => False)
        mbufs dstPorts vec.nbElem packets := by
  let assigned := (mbufs, assign (Sequential.emVectorPort env tables mbufs vec) 0 vec.nbElem
    dstPorts)
  let j := vec.nbElem / fwdStep * fwdStep
  have total : j ≤ vec.nbElem := Nat.div_mul_le_self _ _
  have fours : forFours (processx4Step3 env vec.mbufs) (vec.nbElem / fwdStep) 0 assigned =
      visit vec.mbufs (processPacket env) j 0 assigned := by
    have fits : 0 + 4 * (vec.nbElem / fwdStep) ≤ 0 + vec.nbElem := by
      simp only [j, fwdStep] at total ⊢
      omega
    have same := step3Fours_spec env vec.mbufs (vec.nbElem / fwdStep) 0 assigned
      (distinct.sub (Nat.le_refl 0) fits)
    rw [same, Nat.mul_comm]
    rfl
  have whole : visit vec.mbufs (processPacket env) (vec.nbElem - j) j
      (visit vec.mbufs (processPacket env) j 0 assigned) =
      visit vec.mbufs (processPacket env) vec.nbElem 0 assigned := by
    have added := visit_add vec.mbufs (processPacket env) (vec.nbElem - j) j 0 assigned
    rw [Nat.add_sub_of_le total, Nat.zero_add] at added
    exact added.symm
  refine ⟨visit vec.mbufs (processPacket env) vec.nbElem 0 assigned, ?_, ?_, ?_⟩
  · unfold Sequential.l3fwdEmProcessEventVector
    dsimp only
    rw [fours, whole]
  · apply Written.ofVisit assigned distinct
    intro i after before
    have covered : assigned.2 i = _ := if_pos ⟨after, before⟩
    rw [covered, vectorPkt, if_neg not_false]
  · constructor
    · intro i after before
      have covered : assigned.2 i = _ := if_pos ⟨after, before⟩
      change (visit vec.mbufs (processPacket env) vec.nbElem 0 assigned).2 i = _
      rw [(visit_inside vec.mbufs _ vec.nbElem 0 assigned distinct i after before).2, covered,
        processPacket_port, vectorDst, if_neg not_false]
    · intro i elsewhere
      have outside : i < 0 ∨ 0 + vec.nbElem ≤ i := by
        by_contra inside
        exact elsewhere i (by omega) (by omega) rfl
      rw [slot_outside vec.mbufs _ vec.nbElem 0 assigned outside]
      exact if_neg (by omega)

/-- A packet of the tail. -/
theorem emProcessTail_spec (env : Env) (tables : EmTables) (pktsBurst : Nat → MbufPtr)
    (portid : BitVec 16) (packets : MbufHeap × (Nat → BitVec 16)) (j : Nat) :
    let pkt := packets.1 (pktsBurst j)
    let after := emProcessTail env tables pktsBurst portid true packets j
    Written pktsBurst (fun _ => processOwnPort env pkt) j 1 packets.1 after.1 ∧
      Written id (fun _ => emGetDstPort env tables pkt portid) j 1 packets.2 after.2 := by
  intro pkt after
  have only : ∀ i, j ≤ i → i < j + 1 → i = j := by
    intro i afterFirst beforeEnd
    omega
  constructor
  · constructor
    · intro i afterFirst beforeEnd
      rw [only i afterFirst beforeEnd]
      exact Function.update_self _ _ _
    · intro name elsewhere
      have other := elsewhere j (Nat.le_refl j) (Nat.lt_succ_self j)
      exact Function.update_of_ne (Ne.symm other) _ _
  · constructor
    · intro i afterFirst beforeEnd
      rw [only i afterFirst beforeEnd]
      exact Function.update_self _ _ _
    · intro i elsewhere
      have other := elsewhere j (Nat.le_refl j) (Nat.lt_succ_self j)
      exact Function.update_of_ne (Ne.symm other) _ _

section

variable (env : Env) {tables : EmTables} (lawful4 : tables.ipv4.Lawful)
  (lawful6 : tables.ipv6.Lawful)

include lawful4 lawful6

/-- The lookup of a group in terms of its type. -/
theorem emGroupPorts_eq (mbufs : MbufHeap) (pktsBurst : Nat → MbufPtr) (portid : BitVec 16)
    (j : Nat) {i : Nat} (inside : i < emHashLookupCount) :
    emGroupPorts env tables mbufs pktsBurst portid j i =
      emGroupPort env tables (groupType mbufs fun i => pktsBurst (j + i))
        (mbufs (pktsBurst (j + i))) portid := by
  have looked4 := getDstPortxN_eq env lawful4
    (fun i => getIpv45tuple tables (mbufs (pktsBurst (j + i)))) (fun _ => portid) inside
  have looked6 := getDstPortxN_eq env lawful6
    (fun i => getIpv65tuple tables (mbufs (pktsBurst (j + i)))) (fun _ => portid) inside
  unfold emGroupPorts emGroupPort
  dsimp only
  split
  · rw [emGetDstPortIpv4xN, looked4]
    rfl
  · split
    · rw [emGetDstPortIpv6xN, looked6]
      rfl
    · rfl

/-- A group that is processed on the ports found for it. -/
theorem emProcessGroup_spec {pktsBurst : Nat → MbufPtr} (portid : BitVec 16)
    (packets : MbufHeap × (Nat → BitVec 16)) {j : Nat}
    (distinct : Distinct pktsBurst j emHashLookupCount) :
    let looked := fun i => emGroupPort env tables
      (groupType packets.1 fun i => pktsBurst (j + i)) (packets.1 (pktsBurst i)) portid
    let after := emProcessGroup env tables pktsBurst portid true packets j
    Written pktsBurst (fun i => (processPacket env (packets.1 (pktsBurst i)) (looked i)).1)
        j emHashLookupCount packets.1 after.1 ∧
      Written id (fun i => (packets.1 (pktsBurst i)).checkedPort (looked i))
        j emHashLookupCount packets.2 after.2 := by
  intro looked after
  let ports := emGroupPorts env tables packets.1 pktsBurst portid j
  let assigned := (packets.1, assign (fun i => ports (i - j)) j emHashLookupCount packets.2)
  have processed : after = visit pktsBurst (processPacket env) emHashLookupCount j assigned :=
    step3Fours_spec env pktsBurst (emHashLookupCount / fwdStep) j assigned distinct
  have covered : ∀ i, j ≤ i → i < j + emHashLookupCount → assigned.2 i = looked i := by
    intro i afterFirst beforeEnd
    have inside : i - j < emHashLookupCount := Nat.sub_lt_left_of_lt_add afterFirst beforeEnd
    have isPort := emGroupPorts_eq env lawful4 lawful6 packets.1 pktsBurst portid j inside
    rw [Nat.add_sub_of_le afterFirst] at isPort
    exact (if_pos ⟨afterFirst, beforeEnd⟩).trans isPort
  rw [processed]
  constructor
  · apply Written.ofVisit assigned distinct
    intro i afterFirst beforeEnd
    rw [covered i afterFirst beforeEnd]
  · constructor
    · intro i afterFirst beforeEnd
      change (visit pktsBurst (processPacket env) emHashLookupCount j assigned).2 i = _
      rw [(visit_inside pktsBurst _ emHashLookupCount j assigned distinct i afterFirst
        beforeEnd).2, covered i afterFirst beforeEnd, processPacket_port]
    · intro i elsewhere
      have outside : i < j ∨ j + emHashLookupCount ≤ i := by
        by_contra inside
        exact elsewhere i (by omega) (by omega) rfl
      rw [slot_outside pktsBurst _ emHashLookupCount j assigned outside]
      exact if_neg (by omega)

/-- The groups of a vector whose packets come with its port. -/
theorem emProcessGroups_processed (mbufs : MbufHeap) {vec : RteEventVector}
    (dstPort : Nat → BitVec 16) (valid : vec.attrValid = true)
    (distinct : Distinct vec.mbufs 0 vec.nbElem) :
    ∀ count, count ≤ vec.nbElem / emHashLookupCount →
      VectorProcessed env vec (emVectorPort env tables mbufs vec) (EmVectorTail vec) mbufs dstPort
        (count * emHashLookupCount) ((List.range count).foldl
          (fun packets group => emProcessGroup env tables vec.mbufs vec.port true packets
            (group * emHashLookupCount)) (mbufs, dstPort)) := by
  have total := Nat.div_mul_le_self vec.nbElem emHashLookupCount
  intro count
  induction count with
  | zero =>
      intro _
      rw [Nat.zero_mul]
      exact ⟨Written.nil _ _ 0 mbufs, Written.nil _ _ 0 dstPort⟩
  | succ count induction =>
      intro inRange
      have processed := induction (Nat.le_of_succ_le inRange)
      have ends := Nat.mul_le_mul_right emHashLookupCount inRange
      rw [Nat.succ_mul] at ends
      rw [List.range_succ, List.foldl_append, List.foldl_cons, List.foldl_nil, Nat.succ_mul]
      generalize (List.range count).foldl _ (mbufs, dstPort) = packets at processed
      have fresh : ∀ i, count * emHashLookupCount ≤ i →
          i < count * emHashLookupCount + emHashLookupCount →
          packets.1 (vec.mbufs i) = mbufs (vec.mbufs i) :=
        fun i after inGroup => processed.cells.fresh distinct (by omega) (by omega)
      have sameType := groupType_congr (fun i => vec.mbufs (count * emHashLookupCount + i))
        fun i inside => fresh _ (Nat.le_add_right _ _) (Nat.add_lt_add_left inside _)
      have isLooked : ∀ i, count * emHashLookupCount ≤ i →
          i < count * emHashLookupCount + emHashLookupCount → ¬ EmVectorTail vec i ∧
          emGroupPort env tables
            (groupType packets.1 fun i => vec.mbufs (count * emHashLookupCount + i))
            (mbufs (vec.mbufs i)) vec.port = emVectorPort env tables mbufs vec i := by
        intro i after inGroup
        have quotient : i / emHashLookupCount = count := by
          simp only [emHashLookupCount] at *
          omega
        have inGroups : i < vec.nbElem / emHashLookupCount * emHashLookupCount := by omega
        constructor
        · rintro (notValid | behind)
          · rw [valid] at notValid
            cases notValid
          · omega
        · simp only [emVectorPort, valid, if_true, if_pos inGroups, quotient, sameType]
      rcases emProcessGroup_spec env lawful4 lawful6 vec.port packets
        (distinct.sub (Nat.zero_le (count * emHashLookupCount)) (by omega)) with ⟨cells, ports⟩
      apply processed.append distinct (by omega)
      · apply cells.congr
        intro i after inGroup
        rcases isLooked i after inGroup with ⟨notTail, isPort⟩
        simp only [vectorPkt, if_neg notTail, fresh i after inGroup, isPort]
      · apply ports.congr
        intro i after inGroup
        rcases isLooked i after inGroup with ⟨notTail, isPort⟩
        simp only [vectorDst, if_neg notTail, fresh i after inGroup, isPort]

omit lawful4 lawful6 in
/-- The rest of such a vector. -/
theorem emProcessTails_processed (mbufs : MbufHeap) {vec : RteEventVector}
    (dstPort : Nat → BitVec 16) (valid : vec.attrValid = true)
    (distinct : Distinct vec.mbufs 0 vec.nbElem) :
    ∀ count first packets, vec.nbElem / emHashLookupCount * emHashLookupCount ≤ first →
      first + count ≤ vec.nbElem →
      VectorProcessed env vec (emVectorPort env tables mbufs vec) (EmVectorTail vec) mbufs dstPort
        first packets →
      VectorProcessed env vec (emVectorPort env tables mbufs vec) (EmVectorTail vec) mbufs dstPort
        (first + count) ((List.range' first count).foldl
          (emProcessTail env tables vec.mbufs vec.port true) packets) := by
  intro count
  induction count with
  | zero =>
      intro first packets _ _ processed
      exact processed
  | succ count induction =>
      intro first packets behind inRange processed
      have fresh : packets.1 (vec.mbufs first) = mbufs (vec.mbufs first) :=
        processed.cells.fresh distinct (by omega) (by omega)
      have isTail : EmVectorTail vec first := Or.inr behind
      have notInGroups := Nat.not_lt_of_le behind
      rcases emProcessTail_spec env tables vec.mbufs vec.port packets first with ⟨cells, ports⟩
      rw [List.range'_succ, List.foldl_cons, Nat.add_comm count 1, ← Nat.add_assoc]
      apply induction (first + 1) _ (by omega) (by omega)
      apply processed.append distinct (by omega)
      · apply cells.congr
        intro i after before
        have same : i = first := by omega
        rw [same, vectorPkt, if_pos isTail, fresh]
      · apply ports.congr
        intro i after before
        have same : i = first := by omega
        rw [same, vectorDst, if_pos isTail, fresh]
        simp only [emVectorPort, valid, if_true, if_neg notInGroups]

theorem l3fwdEmProcessPackets_processed (mbufs : MbufHeap) {vec : RteEventVector}
    (dstPort : Nat → BitVec 16) (valid : vec.attrValid = true)
    (distinct : Distinct vec.mbufs 0 vec.nbElem) :
    VectorProcessed env vec (emVectorPort env tables mbufs vec) (EmVectorTail vec) mbufs dstPort
      vec.nbElem
      (l3fwdEmProcessPackets env tables mbufs vec.nbElem vec.mbufs dstPort vec.port true) := by
  have total := Nat.div_mul_le_self vec.nbElem emHashLookupCount
  have groups := emProcessGroups_processed env lawful4 lawful6 mbufs dstPort valid distinct _
    (Nat.le_refl _)
  have whole := emProcessTails_processed env mbufs dstPort valid distinct _ _ _ (Nat.le_refl _)
    (Nat.le_of_eq (Nat.add_sub_of_le total)) groups
  rw [Nat.add_sub_of_le total] at whole
  exact whole

end

/-- A single packet is in no group. -/
theorem emProcessVectorElem_eq (env : Env) (tables : EmTables) (mbufs : Nat → MbufPtr)
    (packets : MbufHeap × (Nat → BitVec 16)) (i : Nat) :
    emProcessVectorElem env tables mbufs packets i =
      emProcessTail env tables mbufs (packets.1 (mbufs i)).port true packets i := by
  apply Prod.ext
  · rfl
  · funext k
    change (if i ≤ k then Function.update (fun k => packets.2 (i + k)) 0 _ (k - i)
      else packets.2 k) = Function.update packets.2 i _ k
    rcases Nat.lt_trichotomy k i with before | same | after
    · rw [if_neg (Nat.not_le_of_lt before), Function.update_of_ne (Nat.ne_of_lt before)]
    · rw [same, if_pos (Nat.le_refl i), Nat.sub_self, Function.update_self, Function.update_self]
      rfl
    · have behind : k - i ≠ 0 := Nat.sub_ne_zero_of_lt after
      rw [if_pos (Nat.le_of_lt after), Function.update_of_ne behind,
        Function.update_of_ne (Nat.ne_of_gt after), Nat.add_sub_of_le (Nat.le_of_lt after)]

/-- Packets that come with ports of their own are all processed like those of a tail. -/
theorem emProcessVectorElems_processed (env : Env) (tables : EmTables) (mbufs : MbufHeap)
    {vec : RteEventVector} (dstPort : Nat → BitVec 16) (notValid : vec.attrValid = false)
    (distinct : Distinct vec.mbufs 0 vec.nbElem) :
    ∀ count, count ≤ vec.nbElem →
      VectorProcessed env vec (emVectorPort env tables mbufs vec) (EmVectorTail vec) mbufs dstPort
        count ((List.range count).foldl (emProcessVectorElem env tables vec.mbufs)
          (mbufs, dstPort)) := by
  intro count
  induction count with
  | zero =>
      intro _
      exact ⟨Written.nil _ _ 0 mbufs, Written.nil _ _ 0 dstPort⟩
  | succ count induction =>
      intro inRange
      have processed := induction (Nat.le_of_succ_le inRange)
      rw [List.range_succ, List.foldl_append, List.foldl_cons, List.foldl_nil]
      generalize (List.range count).foldl _ (mbufs, dstPort) = packets at processed
      have fresh : packets.1 (vec.mbufs count) = mbufs (vec.mbufs count) :=
        processed.cells.fresh distinct (by omega) (by omega)
      have isTail : EmVectorTail vec count := Or.inl notValid
      rw [emProcessVectorElem_eq]
      rcases emProcessTail_spec env tables vec.mbufs (packets.1 (vec.mbufs count)).port packets
        count with ⟨cells, ports⟩
      apply processed.append distinct (by omega)
      · apply cells.congr
        intro i after before
        have same : i = count := by omega
        rw [same, vectorPkt, if_pos isTail, fresh]
      · apply ports.congr
        intro i after before
        have same : i = count := by omega
        rw [same, vectorDst, if_pos isTail, fresh]
        simp only [emVectorPort, notValid, Bool.false_eq_true, if_false]

theorem l3fwdEmProcessEventVector_processed (env : Env) {tables : EmTables}
    (lawful4 : tables.ipv4.Lawful) (lawful6 : tables.ipv6.Lawful) (mbufs : MbufHeap)
    {vec : RteEventVector} (dstPort : Nat → BitVec 16)
    (distinct : Distinct vec.mbufs 0 vec.nbElem) :
    ∃ packets, l3fwdEmProcessEventVector env tables mbufs vec dstPort =
        processEventVector packets.1 vec packets.2 ∧
      VectorProcessed env vec (emVectorPort env tables mbufs vec) (EmVectorTail vec) mbufs dstPort
        vec.nbElem packets := by
  refine ⟨_, rfl, ?_⟩
  cases valid : vec.attrValid with
  | true => exact l3fwdEmProcessPackets_processed env lawful4 lawful6 mbufs dstPort valid distinct
  | false =>
      exact emProcessVectorElems_processed env tables mbufs dstPort valid distinct _ (Nat.le_refl _)

/-! ## What is sent -/

/-- The positions with packets that pass the checks, in order. -/
def goodPackets (mbufs : MbufHeap) (vec : RteEventVector) : List Nat :=
  (List.range vec.nbElem).filter fun i => ¬ (mbufs (vec.mbufs i)).Bad

theorem mem_goodPackets {mbufs : MbufHeap} {vec : RteEventVector} {i : Nat} :
    i ∈ goodPackets mbufs vec ↔ i < vec.nbElem ∧ ¬ (mbufs (vec.mbufs i)).Bad := by
  simp [goodPackets]

/-- The packets that pass the checks are left in the vector, in order. Each has the
addresses of the port that was found for it and is sent on this port. The others are
freed. -/
structure VectorForwards (env : Env) (mbufs : MbufHeap) (vec : RteEventVector)
    (looked : Nat → BitVec 16) (result : VectorState) : Prop where
  elems : result.vec.elems = (goodPackets mbufs vec).map vec.mbufs
  freed : result.freed =
    ((List.range vec.nbElem).filter fun i => (mbufs (vec.mbufs i)).Bad).map vec.mbufs
  addresses : ∀ i ∈ goodPackets mbufs vec, ∀ address, address < 12 →
    (result.mbufs (vec.mbufs i)).data address = lane 8 (env.valEth (looked i).toNat) address
  rest : ∀ i ∈ goodPackets mbufs vec, ∀ address, 12 ≤ address →
    (result.mbufs (vec.mbufs i)).data address =
      (rfc1812Process (mbufs (vec.mbufs i)).data (looked i) (mbufs (vec.mbufs i)).packetType).1
        address
  outPort : ∀ i ∈ goodPackets mbufs vec,
    result.vec.outPort result.mbufs (vec.mbufs i) = looked i

/-- Two results with the same packets, sent on the same ports. -/
structure SameVector (result other : VectorState) : Prop where
  elems : result.vec.elems = other.vec.elems
  freed : result.freed = other.freed
  data : ∀ mbuf ∈ result.vec.elems, (result.mbufs mbuf).data = (other.mbufs mbuf).data
  outPort : ∀ mbuf ∈ result.vec.elems,
    result.vec.outPort result.mbufs mbuf = other.vec.outPort other.mbufs mbuf

/-- What is sent depends on what was found only. -/
theorem VectorForwards.same {env : Env} {mbufs : MbufHeap} {vec : RteEventVector}
    {looked looked' : Nat → BitVec 16} {result other : VectorState}
    (forwards : VectorForwards env mbufs vec looked result)
    (forwards' : VectorForwards env mbufs vec looked' other)
    (equal : ∀ i, i < vec.nbElem → looked i = looked' i) : SameVector result other := by
  have isPacket : ∀ mbuf ∈ result.vec.elems, ∃ i ∈ goodPackets mbufs vec,
      vec.mbufs i = mbuf ∧ looked i = looked' i := by
    intro mbuf member
    rw [forwards.elems] at member
    rcases List.mem_map.mp member with ⟨i, good, same⟩
    exact ⟨i, good, same, equal i (mem_goodPackets.mp good).1⟩
  constructor
  · exact forwards.elems.trans forwards'.elems.symm
  · exact forwards.freed.trans forwards'.freed.symm
  · intro mbuf member
    rcases isPacket mbuf member with ⟨i, good, rfl, samePort⟩
    funext address
    rcases Nat.lt_or_ge address 12 with front | behind
    · rw [forwards.addresses i good address front, forwards'.addresses i good address front,
        samePort]
    · rw [forwards.rest i good address behind, forwards'.rest i good address behind, samePort]
  · intro mbuf member
    rcases isPacket mbuf member with ⟨i, good, rfl, samePort⟩
    rw [forwards.outPort i good, forwards'.outPort i good, samePort]

/-- Packets to two ports get the same addresses. -/
def SameAddresses (env : Env) (one other : BitVec 16) : Prop :=
  ∀ address, address < 12 →
    lane 8 (env.valEth one.toNat) address = lane 8 (env.valEth other.toNat) address

/-- Filters that keep the same in a range. -/
theorem filter_range_congr {count : Nat} {keep keep' : Nat → Prop} [DecidablePred keep]
    [DecidablePred keep'] (same : ∀ i, i < count → (keep i ↔ keep' i)) :
    (List.range count).filter (fun i => keep i) = (List.range count).filter fun i => keep' i := by
  apply List.filter_congr
  intro i member
  exact decide_eq_decide.mpr (same i (List.mem_range.mp member))

section

variable {env : Env} {vec : RteEventVector} {looked : Nat → BitVec 16} {tail : Nat → Prop}
  [DecidablePred tail] {mbufs : MbufHeap} {dstPort : Nat → BitVec 16}
  {packets : MbufHeap × (Nat → BitVec 16)}

/-- The addresses of a packet are those of the port that it was processed on. -/
theorem VectorProcessed.data (distinct : Distinct vec.mbufs 0 vec.nbElem)
    (processed : VectorProcessed env vec looked tail mbufs dstPort vec.nbElem packets)
    {i : Nat} (inside : i < vec.nbElem) (address : Nat) :
    ((processEventVector packets.1 vec packets.2).mbufs (vec.mbufs i)).data address =
      if address < 12 then
        lane 8 (env.valEth
          (if tail i then (mbufs (vec.mbufs i)).port else looked i).toNat) address
      else (rfc1812Process (mbufs (vec.mbufs i)).data (looked i)
        (mbufs (vec.mbufs i)).packetType).1 address := by
  have inRange : i < 0 + vec.nbElem := by rwa [Nat.zero_add]
  rw [(processEventVector_spec packets.1 vec packets.2 distinct).data,
    processed.cells.inside i (Nat.zero_le i) inRange, vectorPkt]
  by_cases isTail : tail i
  · rw [if_pos isTail, if_pos isTail]
    have data := processPacket_data env (mbufs (vec.mbufs i)) (mbufs (vec.mbufs i)).port address
    rw [rfc1812Process_data] at data ⊢
    exact data
  · rw [if_neg isTail, if_neg isTail]
    exact processPacket_data env _ _ address

theorem VectorProcessed.port
    (processed : VectorProcessed env vec looked tail mbufs dstPort vec.nbElem packets)
    {i : Nat} (inside : i < vec.nbElem) : packets.2 i = vectorDst vec looked tail mbufs i := by
  have inRange : i < 0 + vec.nbElem := by rwa [Nat.zero_add]
  exact processed.ports.inside i (Nat.zero_le i) inRange

/-- A packet of the tail is kept whatever the checks say, and has the addresses of the port
it came from. -/
theorem VectorProcessed.passes_of_forwards (distinct : Distinct vec.mbufs 0 vec.nbElem)
    (notBad : ∀ i, i < vec.nbElem → looked i ≠ badPort)
    (processed : VectorProcessed env vec looked tail mbufs dstPort vec.nbElem packets)
    (forwards : VectorForwards env mbufs vec looked (processEventVector packets.1 vec packets.2))
    {i : Nat} (inside : i < vec.nbElem) (isTail : tail i) :
    ¬ (mbufs (vec.mbufs i)).Bad ∧ SameAddresses env (mbufs (vec.mbufs i)).port (looked i) := by
  have keeps := processEventVector_spec packets.1 vec packets.2 distinct
  have atPort := processed.port inside
  rw [vectorDst, if_pos isTail] at atPort
  have kept : i ∈ keptPackets packets.2 vec.nbElem :=
    mem_keptPackets.mpr ⟨inside, fun bad => notBad i inside (atPort.symm.trans bad)⟩
  have left : vec.mbufs i ∈ (goodPackets mbufs vec).map vec.mbufs := by
    rw [← forwards.elems, keeps.elems]
    exact List.mem_map_of_mem kept
  rcases List.mem_map.mp left with ⟨k, good, same⟩
  have below := (mem_goodPackets.mp good).1
  have isI : k = i := distinct k i (Nat.zero_le k) (by omega) (Nat.zero_le i) (by omega) same
  rw [isI] at good
  refine ⟨(mem_goodPackets.mp good).2, ?_⟩
  intro address front
  have data := processed.data distinct inside address
  rw [if_pos front, if_pos isTail] at data
  exact data.symm.trans (forwards.addresses i good address front)

/-- If the packets of the tail pass the checks, exactly the bad packets have a bad port. -/
theorem VectorProcessed.verdict (notBad : ∀ i, i < vec.nbElem → looked i ≠ badPort)
    (processed : VectorProcessed env vec looked tail mbufs dstPort vec.nbElem packets)
    (passes : ∀ i, i < vec.nbElem → tail i → ¬ (mbufs (vec.mbufs i)).Bad) {i : Nat}
    (inside : i < vec.nbElem) : packets.2 i = badPort ↔ (mbufs (vec.mbufs i)).Bad := by
  rw [processed.port inside, vectorDst]
  by_cases isTail : tail i
  · rw [if_pos isTail]
    exact iff_of_false (notBad i inside) (passes i inside isTail)
  · rw [if_neg isTail, RteMbuf.checkedPort]
    by_cases bad : (mbufs (vec.mbufs i)).Bad
    · rw [if_pos bad]
      exact iff_of_true rfl bad
    · rw [if_neg bad]
      exact iff_of_false (notBad i inside) bad

theorem VectorProcessed.forwards_of_passes (distinct : Distinct vec.mbufs 0 vec.nbElem)
    (notBad : ∀ i, i < vec.nbElem → looked i ≠ badPort)
    (processed : VectorProcessed env vec looked tail mbufs dstPort vec.nbElem packets)
    (tails : ∀ i, i < vec.nbElem → tail i →
      ¬ (mbufs (vec.mbufs i)).Bad ∧ SameAddresses env (mbufs (vec.mbufs i)).port (looked i)) :
    VectorForwards env mbufs vec looked (processEventVector packets.1 vec packets.2) := by
  have keeps := processEventVector_spec packets.1 vec packets.2 distinct
  have verdict : ∀ i, i < vec.nbElem → (packets.2 i = badPort ↔ (mbufs (vec.mbufs i)).Bad) :=
    fun i inside => processed.verdict notBad (fun i inside isTail => (tails i inside isTail).1)
      inside
  have sameKept : keptPackets packets.2 vec.nbElem = goodPackets mbufs vec :=
    filter_range_congr fun i inside => not_congr (verdict i inside)
  have sameBad : badPackets packets.2 vec.nbElem = _ := filter_range_congr verdict
  constructor
  · rw [keeps.elems, sameKept]
  · rw [keeps.freed, sameBad]
  · intro i good address front
    have inside := (mem_goodPackets.mp good).1
    rw [processed.data distinct inside address, if_pos front]
    by_cases isTail : tail i
    · rw [if_pos isTail]
      exact (tails i inside isTail).2 address front
    · rw [if_neg isTail]
  · intro i good address behind
    rw [processed.data distinct (mem_goodPackets.mp good).1 address,
      if_neg (Nat.not_lt_of_le behind)]
  · intro i good
    rcases mem_goodPackets.mp good with ⟨inside, passes⟩
    rw [keeps.outPort i (sameKept ▸ good), processed.port inside, vectorDst]
    split
    · rfl
    · rw [RteMbuf.checkedPort, if_neg passes]

/-- Exactly the packets of the tail may go wrong: a bad one stays, a good one may have the
addresses of the port it came from. -/
theorem VectorProcessed.forwards_iff (distinct : Distinct vec.mbufs 0 vec.nbElem)
    (notBad : ∀ i, i < vec.nbElem → looked i ≠ badPort)
    (processed : VectorProcessed env vec looked tail mbufs dstPort vec.nbElem packets) :
    VectorForwards env mbufs vec looked (processEventVector packets.1 vec packets.2) ↔
      ∀ i, i < vec.nbElem → tail i →
        ¬ (mbufs (vec.mbufs i)).Bad ∧ SameAddresses env (mbufs (vec.mbufs i)).port (looked i) := by
  constructor
  · intro forwards i inside isTail
    exact processed.passes_of_forwards distinct notBad forwards inside isTail
  · exact processed.forwards_of_passes distinct notBad

end

/-- The sequential variant forwards every vector. The variant with lookups of several
packets at once forwards a vector if and only if each packet of the tail passes the
checks, and has come from a port with the addresses of the port found for it. -/
theorem l3fwdEmProcessEventVector_forwards_iff (env : Env) {tables : EmTables}
    (lawful4 : tables.ipv4.Lawful) (lawful6 : tables.ipv6.Lawful) {mbufs : MbufHeap}
    {vec : RteEventVector} (exist : vec.PortsExist mbufs)
    (distinct : Distinct vec.mbufs 0 vec.nbElem) (dstPort : Nat → BitVec 16) :
    let looked := emVectorPort env tables mbufs vec
    let looked' := Sequential.emVectorPort env tables mbufs vec
    let result := l3fwdEmProcessEventVector env tables mbufs vec dstPort
    let result' := Sequential.l3fwdEmProcessEventVector env tables mbufs vec dstPort
    VectorForwards env mbufs vec looked' result' ∧
    (VectorForwards env mbufs vec looked result ∧
        ((∀ i, i < vec.nbElem → looked i = looked' i) → SameVector result result') ↔
      ∀ i, i < vec.nbElem → EmVectorTail vec i →
        ¬ (mbufs (vec.mbufs i)).Bad ∧
          SameAddresses env (mbufs (vec.mbufs i)).port (looked i)) := by
  intro looked looked' result result'
  have sequential : VectorForwards env mbufs vec looked' result' := by
    rcases Sequential.vectorProcessed env tables mbufs dstPort distinct with
      ⟨packets, isResult, processed⟩
    change VectorForwards env mbufs vec looked'
      (Sequential.l3fwdEmProcessEventVector env tables mbufs vec dstPort)
    rw [isResult]
    apply (processed.forwards_iff distinct fun i inside =>
      ne_badPort_of_valid (Sequential.emVectorPort_lt env tables exist inside)).mpr
    intro i _ noTail
    cases noTail
  refine ⟨sequential, ?_⟩
  rcases l3fwdEmProcessEventVector_processed env lawful4 lawful6 mbufs dstPort distinct with
    ⟨packets, isResult, processed⟩
  have forwards_iff := processed.forwards_iff distinct fun i inside =>
    ne_badPort_of_valid (emVectorPort_lt env tables exist inside)
  rw [← isResult] at forwards_iff
  rw [← forwards_iff]
  constructor
  · exact fun both => both.1
  · exact fun forwards => ⟨forwards, fun equal => forwards.same sequential equal⟩

/-- Nine packets that are not IPv4, the last of them in no group. -/
theorem l3fwdEmProcessEventVector_forwards_iff_nine :
    let mbufs : MbufHeap := fun _ => default
    let vec : RteEventVector := ⟨9, true, 0#16, 0#16, id⟩
    let tables := oneInterfaceTables 5#8
    VectorForwards default mbufs vec (emVectorPort default tables mbufs vec)
      (l3fwdEmProcessEventVector default tables mbufs vec fun _ => 0#16) := by
  intro mbufs vec tables
  have exist : vec.PortsExist mbufs := by
    change 0 < rteMaxEthports
    decide
  have lawful4 : tables.ipv4.Lawful := fun _ _ _ _ => rfl
  have lawful6 : tables.ipv6.Lawful := fun _ _ _ _ => rfl
  apply (((l3fwdEmProcessEventVector_forwards_iff default lawful4 lawful6 exist (distinct_id 0 9)
    fun _ => 0#16).2).mpr ?_).1
  intro i inside isTail
  have isLast : i = 8 := by
    change i < 9 at inside
    rcases isTail with notValid | behind
    · cases notValid
    · have groups : vec.nbElem / emHashLookupCount * emHashLookupCount = 8 := by decide
      omega
  have isPort : emVectorPort default tables mbufs vec i = 0#16 := by
    rw [isLast]
    decide +kernel
  refine ⟨by decide, ?_⟩
  rw [isPort]
  exact fun _ _ => rfl

/-- A packet with a bad header stays in its vector. A good one is sent on the port that
was found, with the addresses of the port it came from. -/
theorem l3fwdEmProcessEventVector_wrong :
    let env : Env := { (default : Env) with
      enabledPortMask := 0xffffffff#32, valEth := fun port => BitVec.ofNat 128 port }
    let tables := oneInterfaceTables 5#8
    let vec : RteEventVector := ⟨1, false, 0#16, 0#16, fun _ => 7⟩
    let bad : MbufHeap := fun _ => { (default : RteMbuf) with packetType := 0x10#32 }
    let good : MbufHeap := fun _ => { (default : RteMbuf) with
      packetType := 0x110#32, data := fun _ => 0x45#8 }
    let badResult := l3fwdEmProcessEventVector env tables bad vec fun _ => 0#16
    let goodResult := l3fwdEmProcessEventVector env tables good vec fun _ => 0#16
    (badResult.vec.elems = [7] ∧
        ¬ VectorForwards env bad vec (emVectorPort env tables bad vec) badResult) ∧
      (goodResult.vec.outPort goodResult.mbufs 7 = 5#16 ∧ (goodResult.mbufs 7).data 0 = 0#8 ∧
        ¬ VectorForwards env good vec (emVectorPort env tables good vec) goodResult) := by
  intro env tables vec bad good badResult goodResult
  have stays : badResult.vec.elems = [7] := by decide +kernel
  have isPort : goodResult.vec.outPort goodResult.mbufs 7 = 5#16 := by decide +kernel
  have isByte : (goodResult.mbufs 7).data 0 = 0#8 := by decide +kernel
  refine ⟨⟨stays, ?_⟩, isPort, isByte, ?_⟩
  · intro forwards
    have noneGood : goodPackets bad vec = [] := by decide +kernel
    have empty := forwards.elems
    rw [stays, noneGood] at empty
    cases empty
  · intro forwards
    have oneGood : 0 ∈ goodPackets good vec := by decide +kernel
    have address := forwards.addresses 0 oneGood 0 (by decide)
    have byte : lane 8 (env.valEth (emVectorPort env tables good vec 0).toNat) 0 = 5#8 := by
      decide +kernel
    rw [byte] at address
    have different : (0#8 : BitVec 8) ≠ 5#8 := by decide
    exact different (isByte.symm.trans address)

end PacketForwarding.L3fwd
