import PacketForwarding.L3fwd.SendMulti

/-! # Destination ports by longest prefix match

The lookup of one packet, and the lookup of a burst that takes four packets at a
time through vector registers.
-/

namespace PacketForwarding.L3fwd

open Lanes Cells

/-! ## Lookup tables -/

/-- The lookup functions of `rte_lpm` and `rte_lpm6`, each for the table of the
lcore. A hit yields the next hop. -/
structure LpmTables where
  rteLpmLookup : BitVec 32 → Option (BitVec 32)
  rteLpm6Lookup : BitVec 128 → Option (BitVec 32)
  rteLpmLookupx4 : Register → BitVec 32 → Register

/-- What the library and the setup of the tables promise: four lookups at once are
four lookups with a default, and next hops are 8-bit interface numbers. -/
structure LpmTables.Lawful (tables : LpmTables) : Prop where
  lookupx4 : ∀ ip defv index, index < 4 →
    lane 32 (tables.rteLpmLookupx4 ip defv) index =
      (tables.rteLpmLookup (lane 32 ip index)).getD defv
  nextHop : ∀ ip hop, tables.rteLpmLookup ip = some hop → hop.toNat < 2 ^ 8
  nextHop6 : ∀ ip hop, tables.rteLpm6Lookup ip = some hop → hop.toNat < 2 ^ 8

/-! ## One packet -/

/-- Where the destination address of an IPv6 header lies. -/
def ipv6DstAddr : Nat := rteEtherHdrLen + 24

def RteMbuf.ipv4DstAddr (pkt : RteMbuf) : BitVec 32 :=
  load32 pkt.data Ipv4Hdr.dstAddr

def lpmGetIpv4DstPort (tables : LpmTables) (pkt : RteMbuf) (portid : BitVec 16) : BitVec 16 :=
  let dstIp := bswap32 pkt.ipv4DstAddr
  match tables.rteLpmLookup dstIp with
  | some nextHop => nextHop.setWidth 16
  | none => portid

def lpmGetIpv6DstPort (tables : LpmTables) (pkt : RteMbuf) (portid : BitVec 16) : BitVec 16 :=
  match tables.rteLpm6Lookup (load 16 pkt.data ipv6DstAddr) with
  | some nextHop => nextHop.setWidth 16
  | none => portid

def lpmGetDstPort (tables : LpmTables) (pkt : RteMbuf) (portid : BitVec 16) : BitVec 16 :=
  if rteEthIsIpv4Hdr pkt.packetType then
    lpmGetIpv4DstPort tables pkt portid
  else if rteEthIsIpv6Hdr pkt.packetType then
    lpmGetIpv6DstPort tables pkt portid
  else
    portid

/-- `lpmGetDstPort` for packets whose IPv4 destination is already computed. -/
def lpmGetDstPortWithIpv4 (tables : LpmTables) (pkt : RteMbuf) (dstIpv4 : BitVec 32)
    (portid : BitVec 16) : BitVec 16 :=
  if rteEthIsIpv4Hdr pkt.packetType then
    match tables.rteLpmLookup dstIpv4 with
    | some nextHop => nextHop.setWidth 16
    | none => portid
  else if rteEthIsIpv6Hdr pkt.packetType then
    match tables.rteLpm6Lookup (load 16 pkt.data ipv6DstAddr) with
    | some nextHop => nextHop.setWidth 16
    | none => portid
  else
    portid

/-! ## Four packets -/

/-- Read packet types and destination IPv4 addresses from 4 mbufs. -/
def processx4Step1 (mbufs : MbufHeap) (pkt : Nat → MbufPtr) (j : Nat) :
    Register × BitVec 32 :=
  let x := fun i => (mbufs (pkt (j + i))).ipv4DstAddr
  let ptype := fun i => (mbufs (pkt (j + i))).packetType
  (setEpi32 (x 3) (x 2) (x 1) (x 0),
    ptype 0 &&& rtePtypeL3Ipv4 &&& ptype 1 &&& ptype 2 &&& ptype 3)

def bswapMask : Register :=
  setEpi8 [12, 13, 14, 15, 8, 9, 10, 11, 4, 5, 6, 7, 0, 1, 2, 3]

/-- Write `dprt[j], ..., dprt[j + 3]`. -/
def writeFour (dprt : Nat → BitVec 16) (j : Nat) (values : Nat → BitVec 16) :
    Nat → BitVec 16 :=
  fun i => if j ≤ i ∧ i < j + fwdStep then values (i - j) else dprt i

/-- Look up four destination ports. If a lookup fails, use the incoming port. -/
def processx4Step2 (tables : LpmTables) (mbufs : MbufHeap) (dip : Register)
    (ipv4Flag : BitVec 32) (portid : BitVec 16) (pkt : Nat → MbufPtr) (j : Nat)
    (dprt : Nat → BitVec 16) : Nat → BitVec 16 :=
  let dip := shuffleEpi8 dip bswapMask
  -- if all 4 packets are IPv4
  if ipv4Flag ≠ 0 then
    let dst := tables.rteLpmLookupx4 dip (portid.setWidth 32)
    let dst := packsEpi32 dst dst
    writeFour dprt j fun i => lane 16 dst i
  else
    writeFour dprt j fun i =>
      lpmGetDstPortWithIpv4 tables (mbufs (pkt (j + i))) (lane 32 dip i) portid

/-! ## A burst -/

/-- Fill one entry of `dip` and `ipv4_flag`. -/
def gatherFour (mbufs : MbufHeap) (pktsBurst : Nat → MbufPtr) (j : Nat)
    (arrays : (Nat → Register) × (Nat → BitVec 32)) : (Nat → Register) × (Nat → BitVec 32) :=
  let step := processx4Step1 mbufs pktsBurst j
  (Function.update arrays.1 (j / fwdStep) step.1, Function.update arrays.2 (j / fwdStep) step.2)

/-- Classify last up to 3 packets one by one. -/
def lpmProcessTail (env : Env) (tables : LpmTables) (pktsBurst : Nat → MbufPtr)
    (portid : BitVec 16) (doStep3 : Bool) :
    Nat → Nat → MbufHeap × (Nat → BitVec 16) → MbufHeap × (Nat → BitVec 16)
  | 0, _, packets => packets
  | count + 1, j, packets =>
      let port := lpmGetDstPort tables (packets.1 (pktsBurst j)) portid
      let packets := (packets.1, Function.update packets.2 j port)
      let packets :=
        if doStep3 then visitOne pktsBurst (processPacket env) j packets else packets
      lpmProcessTail env tables pktsBurst portid doStep3 count (j + 1) packets

/-- Buffer optimized handling of packets. -/
def l3fwdLpmProcessPackets (env : Env) (tables : LpmTables) (mbufs : MbufHeap) (nbRx : Nat)
    (pktsBurst : Nat → MbufPtr) (portid : BitVec 16) (dstPort : Nat → BitVec 16)
    (doStep3 : Bool) : MbufHeap × (Nat → BitVec 16) :=
  let k := nbRx / fwdStep * fwdStep
  let (dip, ipv4Flag) := forFours (gatherFour mbufs pktsBurst) (nbRx / fwdStep) 0
    (default, default)
  let dstPort := forFours (fun j dstPort =>
      processx4Step2 tables mbufs (dip (j / fwdStep)) (ipv4Flag (j / fwdStep)) portid
        pktsBurst j dstPort)
    (nbRx / fwdStep) 0 dstPort
  let packets :=
    if doStep3 then
      forFours (processx4Step3 env pktsBurst) (nbRx / fwdStep) 0 (mbufs, dstPort)
    else
      (mbufs, dstPort)
  lpmProcessTail env tables pktsBurst portid doStep3 (nbRx % fwdStep) k packets

/-- Look up the destination ports of a burst, then process and send it. -/
def l3fwdLpmSendPackets (env : Env) (tables : LpmTables) (state : LcoreState) (nbRx : Nat)
    (pktsBurst : Nat → MbufPtr) (portid : BitVec 16) : Except Fault (LcoreState × TxStats) :=
  let packets := l3fwdLpmProcessPackets env tables state.mbufs nbRx pktsBurst portid
    env.stack false
  sendPacketsMulti env { state with mbufs := packets.1 } pktsBurst packets.2 nbRx

/-- What holds of all next hops and of the incoming port holds of the ports found. -/
theorem lpmGetDstPort_of {tables : LpmTables} {good : BitVec 16 → Prop}
    (nextHop : ∀ ip hop, tables.rteLpmLookup ip = some hop → good (hop.setWidth 16))
    (nextHop6 : ∀ ip hop, tables.rteLpm6Lookup ip = some hop → good (hop.setWidth 16))
    (pkt : RteMbuf) {portid : BitVec 16} (incoming : good portid) :
    good (lpmGetDstPort tables pkt portid) := by
  unfold lpmGetDstPort
  split
  · unfold lpmGetIpv4DstPort
    cases found : tables.rteLpmLookup (bswap32 pkt.ipv4DstAddr) with
    | some hop =>
        simp only [found]
        exact nextHop _ _ found
    | none =>
        simp only [found]
        exact incoming
  · split
    · unfold lpmGetIpv6DstPort
      cases found : tables.rteLpm6Lookup (load 16 pkt.data ipv6DstAddr) with
      | some hop => exact nextHop6 _ _ found
      | none => exact incoming
    · exact incoming

theorem toNat_setWidth_lt {hop : BitVec 32} {limit : Nat} (small : hop.toNat < limit) :
    (hop.setWidth 16).toNat < limit := by
  rw [BitVec.toNat_setWidth]
  exact Nat.lt_of_le_of_lt (Nat.mod_le _ _) small

/-- A bound on next hops and on the incoming port is one on the ports found. -/
theorem lpmGetDstPort_lt {tables : LpmTables} {limit : Nat}
    (nextHop : ∀ ip hop, tables.rteLpmLookup ip = some hop → hop.toNat < limit)
    (nextHop6 : ∀ ip hop, tables.rteLpm6Lookup ip = some hop → hop.toNat < limit)
    (pkt : RteMbuf) {portid : BitVec 16} (incoming : portid.toNat < limit) :
    (lpmGetDstPort tables pkt portid).toNat < limit :=
  @lpmGetDstPort_of tables (fun port => port.toNat < limit)
    (fun ip hop found => toNat_setWidth_lt (nextHop ip hop found))
    (fun ip hop found => toNat_setWidth_lt (nextHop6 ip hop found)) pkt portid incoming

/-! ## Four lookups at once -/

theorem lane_bswapMask (word byte : Nat) (wordLt : word < 4) (byteLt : byte < 4) :
    lane 8 bswapMask (4 * word + byte) = BitVec.ofNat 8 (4 * word + (3 - byte)) := by
  rw [bswapMask, setEpi8, lane_ofLanes 8 16 _ _ (by omega)]
  have checked : ∀ word : Fin 4, ∀ byte : Fin 4,
      ([12, 13, 14, 15, 8, 9, 10, 11, 4, 5, 6, 7, 0, 1, 2, 3] : List (BitVec 8)).getD
        (15 - (4 * word.val + byte.val)) 0#8 =
        BitVec.ofNat 8 (4 * word.val + (3 - byte.val)) := by
    decide
  exact checked ⟨word, wordLt⟩ ⟨byte, byteLt⟩

theorem lane_setEpi32 (x : Nat → BitVec 32) (i : Nat) (inside : i < 4) :
    lane 32 (setEpi32 (x 3) (x 2) (x 1) (x 0)) i = x i := by
  rw [setEpi32, lane_ofLanes 32 4 _ i inside]
  have position : i = 0 ∨ i = 1 ∨ i = 2 ∨ i = 3 := by omega
  rcases position with rfl | rfl | rfl | rfl <;> rfl

/-- The swapped addresses are the ones a lookup of one packet uses. -/
theorem lane_swapped (mbufs : MbufHeap) (pkt : Nat → MbufPtr) (j i : Nat) (inside : i < 4) :
    lane 32 (shuffleEpi8 (processx4Step1 mbufs pkt j).1 bswapMask) i =
      bswap32 (mbufs (pkt (j + i))).ipv4DstAddr := by
  rw [lane_shuffleEpi8_bswap _ _ (fun word wordLt byte byteLt =>
    lane_bswapMask word byte wordLt byteLt) i inside]
  simp only [processx4Step1]
  rw [lane_setEpi32 (fun i => (mbufs (pkt (j + i))).ipv4DstAddr) i inside]

/-- The flag is set only if all four packets are IPv4. -/
theorem isIpv4_of_flag (mbufs : MbufHeap) (pkt : Nat → MbufPtr) (j i : Nat) (inside : i < 4)
    (flag : (processx4Step1 mbufs pkt j).2 ≠ 0) :
    rteEthIsIpv4Hdr (mbufs (pkt (j + i))).packetType = true := by
  have position : i = 0 ∨ i = 1 ∨ i = 2 ∨ i = 3 := by omega
  have notZero : (mbufs (pkt (j + i))).packetType &&& rtePtypeL3Ipv4 ≠ 0#32 := by
    intro zero
    apply flag
    simp only [processx4Step1]
    apply BitVec.eq_of_getLsbD_eq
    intro bit bitLt
    have zeroBit := congrArg (fun value => value.getLsbD bit) zero
    rcases position with rfl | rfl | rfl | rfl
    all_goals
      simp only [BitVec.getLsbD_and] at zeroBit ⊢
      grind
  simpa [rteEthIsIpv4Hdr] using notZero

/-- The default of a lookup is kept by the truncation to 16 bits. -/
theorem setWidth_getD (found : Option (BitVec 32)) (portid : BitVec 16) :
    (found.getD (portid.setWidth 32)).setWidth 16 =
      match found with
      | some nextHop => nextHop.setWidth 16
      | none => portid := by
  cases found with
  | some nextHop => rfl
  | none =>
      apply BitVec.eq_of_toNat_eq
      have small := portid.isLt
      simp only [Option.getD_none, BitVec.toNat_setWidth]
      omega

theorem processx4Step2_spec {tables : LpmTables} (lawful : tables.Lawful) (mbufs : MbufHeap)
    (pkt : Nat → MbufPtr) (j : Nat) {portid : BitVec 16} (small : portid.toNat < 2 ^ 15)
    (dprt : Nat → BitVec 16) :
    processx4Step2 tables mbufs (processx4Step1 mbufs pkt j).1 (processx4Step1 mbufs pkt j).2
        portid pkt j dprt =
      writeFour dprt j fun i => lpmGetDstPort tables (mbufs (pkt (j + i))) portid := by
  have pointwise : ∀ values values' : Nat → BitVec 16,
      (∀ i, i < 4 → values i = values' i) →
      writeFour dprt j values = writeFour dprt j values' := by
    intro values values' agree
    funext i
    by_cases covered : j ≤ i ∧ i < j + fwdStep
    · rw [writeFour, writeFour, if_pos covered, if_pos covered]
      exact agree (i - j) (by simp only [fwdStep] at covered; omega)
    · rw [writeFour, writeFour, if_neg covered, if_neg covered]
  by_cases flag : (processx4Step1 mbufs pkt j).2 ≠ 0
  · rw [processx4Step2, if_pos flag]
    apply pointwise
    intro i inside
    have isIpv4 := isIpv4_of_flag mbufs pkt j i inside flag
    have looked := lawful.lookupx4 (shuffleEpi8 (processx4Step1 mbufs pkt j).1 bswapMask)
      (portid.setWidth 32) i inside
    rw [lane_swapped mbufs pkt j i inside] at looked
    have noSaturation : ((tables.rteLpmLookup
        (bswap32 (mbufs (pkt (j + i))).ipv4DstAddr)).getD (portid.setWidth 32)).toNat < 2 ^ 15 := by
      cases found : tables.rteLpmLookup (bswap32 (mbufs (pkt (j + i))).ipv4DstAddr) with
      | some hop =>
          have hopSmall := lawful.nextHop _ _ found
          simp only [Option.getD_some]
          omega
      | none =>
          simp only [Option.getD_none, BitVec.toNat_setWidth]
          omega
    rw [lane_packsEpi32 _ _ i inside, looked, saturate16_of_lt _ noSaturation, setWidth_getD,
      lpmGetDstPort, if_pos isIpv4, lpmGetIpv4DstPort]
  · rw [processx4Step2, if_neg flag]
    apply pointwise
    intro i inside
    rw [lane_swapped mbufs pkt j i inside]
    rfl

/-! ## A burst is looked up packet by packet -/

theorem writeFour_eq (ports : Nat → BitVec 16) (j : Nat) (dst : Nat → BitVec 16) :
    writeFour dst j (fun i => ports (j + i)) = assign ports j fwdStep dst := by
  funext i
  rw [writeFour, assign]
  by_cases covered : j ≤ i ∧ i < j + fwdStep
  · rw [if_pos covered, if_pos covered, Nat.add_sub_cancel' covered.1]
  · rw [if_neg covered, if_neg covered]

theorem gatherFours_spec (mbufs : MbufHeap) (pkt : Nat → MbufPtr) :
    ∀ rounds block arrays,
      (∀ g, block ≤ g → g < block + rounds →
        (forFours (gatherFour mbufs pkt) rounds (4 * block) arrays).1 g =
            (processx4Step1 mbufs pkt (4 * g)).1 ∧
          (forFours (gatherFour mbufs pkt) rounds (4 * block) arrays).2 g =
            (processx4Step1 mbufs pkt (4 * g)).2) ∧
      ∀ g, g < block →
        (forFours (gatherFour mbufs pkt) rounds (4 * block) arrays).1 g = arrays.1 g ∧
          (forFours (gatherFour mbufs pkt) rounds (4 * block) arrays).2 g = arrays.2 g
  | 0, block, arrays => ⟨fun g _ _ => by omega, fun _ _ => ⟨rfl, rfl⟩⟩
  | rounds + 1, block, arrays => by
      have entry : 4 * block / fwdStep = block := Nat.mul_div_cancel_left block (by decide)
      rcases gatherFours_spec mbufs pkt rounds (block + 1)
        (gatherFour mbufs pkt (4 * block) arrays) with ⟨inside, outside⟩
      have next : 4 * block + fwdStep = 4 * (block + 1) := by
        simp only [fwdStep]
        omega
      rw [forFours, next]
      refine ⟨?_, ?_⟩
      · intro g after before
        rcases Nat.eq_or_lt_of_le after with equal | later
        · subst equal
          rw [(outside block (by omega)).1, (outside block (by omega)).2]
          simp only [gatherFour, entry, Function.update_self, and_self]
        · exact inside g (by omega) (by omega)
      · intro g before
        rw [(outside g (by omega)).1, (outside g (by omega)).2]
        have apart : g ≠ block := by omega
        simp only [gatherFour, entry, Function.update_of_ne apart, and_self]

/-- The port that `lpmGetDstPort` finds for packet `i` of a burst. -/
def lpmPort (tables : LpmTables) (mbufs : MbufHeap) (pktsBurst : Nat → MbufPtr)
    (portid : BitVec 16) (i : Nat) : BitVec 16 :=
  lpmGetDstPort tables (mbufs (pktsBurst i)) portid

section

variable {tables : LpmTables} (lawful : tables.Lawful) (mbufs : MbufHeap)
  (pktsBurst : Nat → MbufPtr) {portid : BitVec 16} (small : portid.toNat < 2 ^ 15)

include lawful small

theorem lookupFours_spec {dip : Nat → Register} {ipv4Flag : Nat → BitVec 32} :
    ∀ rounds block dst,
      (∀ g, block ≤ g → g < block + rounds →
        dip g = (processx4Step1 mbufs pktsBurst (4 * g)).1 ∧
          ipv4Flag g = (processx4Step1 mbufs pktsBurst (4 * g)).2) →
      forFours (fun j dstPort => processx4Step2 tables mbufs (dip (j / fwdStep))
          (ipv4Flag (j / fwdStep)) portid pktsBurst j dstPort) rounds (4 * block) dst =
        assign (lpmPort tables mbufs pktsBurst portid) (4 * block) (4 * rounds) dst
  | 0, block, dst, _ => (assign_zero _ _ _).symm
  | rounds + 1, block, dst, gathered => by
      have entry : 4 * block / fwdStep = block := Nat.mul_div_cancel_left block (by decide)
      rcases gathered block (Nat.le_refl block) (by omega) with ⟨isDip, isFlag⟩
      have written := (processx4Step2_spec lawful mbufs pktsBurst (4 * block) small dst).trans
        (writeFour_eq (lpmPort tables mbufs pktsBurst portid) (4 * block) dst)
      have next : 4 * block + fwdStep = 4 * (block + 1) := by
        simp only [fwdStep]
        omega
      have total : fwdStep + 4 * rounds = 4 * (rounds + 1) := by
        simp only [fwdStep]
        omega
      rw [forFours, entry, isDip, isFlag, written, next,
        lookupFours_spec rounds (block + 1) _ fun g after before =>
          gathered g (by omega) (by omega),
        ← next, assign_add, total]

/-- The ports after all groups of four have been looked up. -/
theorem lookups_spec (rounds : Nat) (dst : Nat → BitVec 16) :
    let arrays := forFours (gatherFour mbufs pktsBurst) rounds 0 (default, default)
    forFours (fun j dstPort => processx4Step2 tables mbufs (arrays.1 (j / fwdStep))
        (arrays.2 (j / fwdStep)) portid pktsBurst j dstPort) rounds 0 dst =
      assign (lpmPort tables mbufs pktsBurst portid) 0 (4 * rounds) dst := by
  intro arrays
  refine lookupFours_spec lawful mbufs pktsBurst small rounds 0 dst ?_
  intro g after before
  exact (gatherFours_spec mbufs pktsBurst rounds 0 (default, default)).1 g after before

end

/-- Without processing, the tail is looked up and nothing else. -/
theorem lpmProcessTail_lookup (env : Env) (tables : LpmTables) (mbufs : MbufHeap)
    (pktsBurst : Nat → MbufPtr) (portid : BitVec 16) :
    ∀ count j dst, lpmProcessTail env tables pktsBurst portid false count j (mbufs, dst) =
      (mbufs, assign (lpmPort tables mbufs pktsBurst portid) j count dst)
  | 0, j, dst => by rw [lpmProcessTail, assign_zero]
  | count + 1, j, dst => by
      have port : lpmGetDstPort tables (mbufs (pktsBurst j)) portid =
          lpmPort tables mbufs pktsBurst portid j := rfl
      rw [lpmProcessTail]
      simp only [Bool.false_eq_true, if_false]
      rw [lpmProcessTail_lookup env tables mbufs pktsBurst portid count, port,
        update_eq_assign, assign_add, Nat.add_comm count 1]

/-- Groups of four are processed like single packets. -/
theorem step3Fours_spec (env : Env) (pktsBurst : Nat → MbufPtr) :
    ∀ rounds j packets, Distinct pktsBurst j (4 * rounds) →
      forFours (processx4Step3 env pktsBurst) rounds j packets =
        visit pktsBurst (processPacket env) (4 * rounds) j packets
  | 0, j, packets, _ => rfl
  | rounds + 1, j, packets, distinct => by
      have total : fwdStep + 4 * rounds = 4 * (rounds + 1) := by
        simp only [fwdStep]
        omega
      have firstFour : Distinct pktsBurst j fwdStep := distinct.sub (Nat.le_refl j) (by omega)
      have others : Distinct pktsBurst (j + fwdStep) (4 * rounds) :=
        distinct.sub (Nat.le_add_right j _) (by omega)
      rw [forFours, processx4Step3_eq env pktsBurst j packets firstFour,
        step3Fours_spec env pktsBurst rounds (j + fwdStep) _ others, ← visit_add, total]

/-- With processing, every packet of the tail is looked up as it was before. -/
theorem lpmProcessTail_process (env : Env) (tables : LpmTables) (mbufs : MbufHeap)
    (pktsBurst : Nat → MbufPtr) (portid : BitVec 16) :
    ∀ count j packets, Distinct pktsBurst j count →
      (∀ i, j ≤ i → i < j + count → packets.1 (pktsBurst i) = mbufs (pktsBurst i)) →
      lpmProcessTail env tables pktsBurst portid true count j packets =
        visit pktsBurst (processPacket env) count j
          (packets.1, assign (lpmPort tables mbufs pktsBurst portid) j count packets.2)
  | 0, j, packets, _, _ => by rw [lpmProcessTail, assign_zero, visit]
  | count + 1, j, (heap, dst), distinct, fresh => by
      have port : lpmGetDstPort tables (heap (pktsBurst j)) portid =
          lpmPort tables mbufs pktsBurst portid j := by
        rw [lpmPort, ← fresh j (Nat.le_refl j) (by omega)]
      have others : ∀ i, j + 1 ≤ i → i < j + 1 + count → pktsBurst i ≠ pktsBurst j := by
        intro i after before same
        have := distinct i j (by omega) (by omega) (by omega) (by omega) same
        omega
      rw [lpmProcessTail]
      simp only [if_true, port]
      rw [lpmProcessTail_process env tables mbufs pktsBurst portid count (j + 1) _
        (distinct.sub (Nat.le_succ j) (by omega)) (by
          intro i after before
          simp only [visitOne, Function.update_of_ne (others i after before)]
          exact fresh i (by omega) (by omega)), visit]
      refine congrArg (visit pktsBurst (processPacket env) count (j + 1)) ?_
      have atJ : assign (lpmPort tables mbufs pktsBurst portid) j (count + 1) dst j =
          lpmPort tables mbufs pktsBurst portid j := if_pos (by omega)
      apply Prod.ext
      · simp only [visitOne, Function.update_self, atJ]
      · funext i
        simp only [visitOne, atJ, Function.update_self]
        by_cases late : j + 1 ≤ i ∧ i < j + 1 + count
        · rw [assign, if_pos late, Function.update_of_ne (by omega), assign,
            if_pos (by omega)]
        · rw [assign, if_neg late]
          by_cases same : i = j
          · subst same
            rw [Function.update_self, Function.update_self]
          · rw [Function.update_of_ne same, Function.update_of_ne same,
              Function.update_of_ne same, assign, if_neg (by omega)]

/-- Ports that are assigned behind a visit may as well be assigned before it. -/
theorem visit_assign (pktsBurst : Nat → MbufPtr)
    (step : RteMbuf → BitVec 16 → RteMbuf × BitVec 16) (ports : Nat → BitVec 16)
    (count more : Nat) (mbufs : MbufHeap) (dst : Nat → BitVec 16) :
    visit pktsBurst step count 0 (mbufs, assign ports count more dst) =
      ((visit pktsBurst step count 0 (mbufs, dst)).1,
        assign ports count more (visit pktsBurst step count 0 (mbufs, dst)).2) := by
  rcases visit_congr_slots pktsBurst step count 0 mbufs dst (assign ports count more dst)
    (fun i _ below => if_neg (by omega)) with ⟨sameCells, sameSlots⟩
  apply Prod.ext
  · exact sameCells
  · funext i
    dsimp only
    rcases Nat.lt_or_ge i count with below | above
    · rw [sameSlots i (Nat.zero_le i) (by omega)]
      exact (if_neg (by omega)).symm
    · rw [slot_outside pktsBurst step count 0 _ (by omega)]
      exact if_congr Iff.rfl rfl
        (slot_outside pktsBurst step count 0 (mbufs, dst) (by omega)).symm

/-- Without processing, a burst is looked up packet by packet. -/
theorem l3fwdLpmProcessPackets_lookup (env : Env) {tables : LpmTables}
    (lawful : tables.Lawful) (mbufs : MbufHeap) (nbRx : Nat) (pktsBurst : Nat → MbufPtr)
    {portid : BitVec 16} (dstPort : Nat → BitVec 16) (small : portid.toNat < 2 ^ 15) :
    l3fwdLpmProcessPackets env tables mbufs nbRx pktsBurst portid dstPort false =
      (mbufs, assign (lpmPort tables mbufs pktsBurst portid) 0 nbRx dstPort) := by
  have split : 4 * (nbRx / 4) + nbRx % 4 = nbRx := Nat.div_add_mod nbRx 4
  have floor : nbRx / fwdStep * fwdStep = 4 * (nbRx / 4) := Nat.mul_comm _ _
  have lookups := lookups_spec lawful mbufs pktsBurst small (nbRx / 4) dstPort
  have tail := lpmProcessTail_lookup env tables mbufs pktsBurst portid (nbRx % 4)
    (4 * (nbRx / 4))
    (assign (lpmPort tables mbufs pktsBurst portid) 0 (4 * (nbRx / 4)) dstPort)
  have all := assign_add (lpmPort tables mbufs pktsBurst portid) 0 (4 * (nbRx / 4))
    (nbRx % 4) dstPort
  rw [Nat.zero_add, split] at all
  rw [all] at tail
  simp only [l3fwdLpmProcessPackets, floor, Bool.false_eq_true, if_false]
  exact (congrArg (fun dst => lpmProcessTail env tables pktsBurst portid false (nbRx % 4)
    (4 * (nbRx / 4)) (mbufs, dst)) lookups).trans tail

/-- The vector code looks up every packet of a burst as `lpmGetDstPort` does, and
with processing it leaves the packets as if each had been processed by itself. -/
theorem l3fwdLpmProcessPackets_eq (env : Env) (tables : LpmTables) (lawful : tables.Lawful)
    (mbufs : MbufHeap) (nbRx : Nat) (pktsBurst : Nat → MbufPtr) (portid : BitVec 16)
    (dstPort : Nat → BitVec 16) (small : portid.toNat < 2 ^ 15)
    (distinct : Distinct pktsBurst 0 nbRx) :
    let looked := l3fwdLpmProcessPackets env tables mbufs nbRx pktsBurst portid dstPort false
    (∀ i, i < nbRx →
      looked.2 i = lpmGetDstPort tables (mbufs (pktsBurst i)) portid) ∧
    looked.1 = mbufs ∧
    l3fwdLpmProcessPackets env tables mbufs nbRx pktsBurst portid dstPort true =
      visit pktsBurst (processPacket env) nbRx 0 looked := by
  intro looked
  have isLooked : looked = (mbufs,
      assign (lpmPort tables mbufs pktsBurst portid) 0 nbRx dstPort) :=
    l3fwdLpmProcessPackets_lookup env lawful mbufs nbRx pktsBurst dstPort small
  refine ⟨?_, ?_, ?_⟩
  · intro i below
    rw [isLooked]
    exact if_pos (by omega)
  · rw [isLooked]
  · let ports := lpmPort tables mbufs pktsBurst portid
    let fours := assign ports 0 (4 * (nbRx / 4)) dstPort
    have split : 4 * (nbRx / 4) + nbRx % 4 = nbRx := Nat.div_add_mod nbRx 4
    have floor : nbRx / fwdStep * fwdStep = 4 * (nbRx / 4) := Nat.mul_comm _ _
    have lookups := lookups_spec lawful mbufs pktsBurst small (nbRx / 4) dstPort
    have processed := step3Fours_spec env pktsBurst (nbRx / 4) 0 (mbufs, fours)
      (distinct.sub (Nat.le_refl 0) (by omega))
    have fresh : ∀ i, 4 * (nbRx / 4) ≤ i → i < 4 * (nbRx / 4) + nbRx % 4 →
        (visit pktsBurst (processPacket env) (4 * (nbRx / 4)) 0 (mbufs, fours)).1
          (pktsBurst i) = mbufs (pktsBurst i) := by
      intro i after before
      apply cell_outside
      intro other _ otherBefore same
      have := distinct other i (by omega) (by omega) (by omega) (by omega) same
      omega
    have tail := lpmProcessTail_process env tables mbufs pktsBurst portid (nbRx % 4)
      (4 * (nbRx / 4)) _ (distinct.sub (Nat.zero_le _) (by omega)) fresh
    have all := assign_add ports 0 (4 * (nbRx / 4)) (nbRx % 4) dstPort
    rw [Nat.zero_add, split] at all
    have joined := visit_add pktsBurst (processPacket env) (nbRx % 4) (4 * (nbRx / 4)) 0
      (mbufs, assign ports 0 nbRx dstPort)
    rw [split, Nat.zero_add, ← all, visit_assign] at joined
    rw [isLooked, ← all, joined, ← tail, ← processed]
    simp only [l3fwdLpmProcessPackets, floor, if_true]
    exact congrArg (fun dst => lpmProcessTail env tables pktsBurst portid true (nbRx % 4)
      (4 * (nbRx / 4)) (forFours (processx4Step3 env pktsBurst) (nbRx / 4) 0 (mbufs, dst)))
      lookups

/-- A table with one route, to interface 7. -/
def singleRouteTables (address : BitVec 32) : LpmTables where
  rteLpmLookup := fun ip => if ip = address then some 7#32 else none
  rteLpm6Lookup := fun _ => none
  rteLpmLookupx4 := fun ip defv => ofLanes 32 4 fun index =>
    if lane 32 ip index = address then 7#32 else defv

theorem singleRouteTables_hop {address ip hop : BitVec 32}
    (found : (singleRouteTables address).rteLpmLookup ip = some hop) : hop = 7#32 := by
  simp only [singleRouteTables] at found
  split at found
  · exact (Option.some.inj found).symm
  · cases found

theorem singleRouteTables_lawful (address : BitVec 32) :
    (singleRouteTables address).Lawful where
  lookupx4 := by
    intro ip defv index inside
    simp only [singleRouteTables]
    rw [lane_ofLanes 32 4 _ index inside]
    split <;> rfl
  nextHop := by
    intro ip hop found
    rw [singleRouteTables_hop found]
    decide
  nextHop6 := by
    intro ip hop found
    cases found

/-- Six packets, of which every second one is IPv4 and has the route. -/
theorem l3fwdLpmProcessPackets_eq_six :
    let env : Env := default
    let mbufs : MbufHeap := fun name => { (default : RteMbuf) with
      packetType := if name % 2 = 0 then 0x10#32 else 0#32 }
    let looked := l3fwdLpmProcessPackets env (singleRouteTables 0#32) mbufs 6 id 3#16
      (fun _ => 0#16) false
    looked.2 4 = 7#16 ∧ looked.2 5 = 3#16 ∧
      l3fwdLpmProcessPackets env (singleRouteTables 0#32) mbufs 6 id 3#16 (fun _ => 0#16) true =
        visit id (processPacket env) 6 0 looked := by
  intro env mbufs looked
  rcases l3fwdLpmProcessPackets_eq env (singleRouteTables 0#32) (singleRouteTables_lawful 0#32)
    mbufs 6 id 3#16 (fun _ => 0#16) (by decide) (fun _ _ _ _ _ _ same => same) with
    ⟨ports, _, processed⟩
  refine ⟨?_, ?_, processed⟩
  · exact (ports 4 (by decide)).trans (by decide +kernel)
  · exact (ports 5 (by decide)).trans (by decide +kernel)

end PacketForwarding.L3fwd
