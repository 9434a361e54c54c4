import PacketForwarding.L3fwd.Forwarders

/-! # The same routes in two kinds of tables

The forwarding information base is asked about a whole burst at once, and the longest
prefix match about one packet at a time. On packets of IPv4 and IPv6 they agree. A packet
of another type is left alone by the one and looked up as if it were IPv6 by the other.
-/

namespace PacketForwarding.L3fwd

open Lanes

/-! ## The hops of a burst -/

/-- Add the hop of one packet, from the array of its type. -/
def fibAssignHop (search : FibSearch) (portid : BitVec 16)
    (result : FibAssem × (Nat → BitVec 16)) (i : Nat) : FibAssem × (Nat → BitVec 16) :=
  let (nh, assem) := result.1.next search i
  (assem, Function.update result.2 i (if nh ≠ fibDefaultHop then nh else portid))

/-- Parse and look up the packets, then add IPv4 and IPv6 hops to one array. What the
arrays hold before is an argument. -/
def fibHops (tables : FibTables) (mbufs : MbufHeap) (search : FibSearch) (nbRx : Nat)
    (pktsBurst : Nat → MbufPtr) (portid : BitVec 16) (hops : Nat → BitVec 16) :
    Nat → BitVec 16 :=
  let search := (fibParsePackets mbufs pktsBurst search nbRx).lookup tables
  ((List.range nbRx).foldl (fibAssignHop search portid) (⟨0, 0⟩, hops)).2

/-- Bulk parse, fib lookup and send. -/
def fibSendPackets (build : Build) (env : Env) (tables : FibTables) (search : FibSearch)
    (state : LcoreState) (nbRx : Nat) (pktsBurst : Nat → MbufPtr) (portid : BitVec 16) :
    Except Fault LcoreState := do
  let hops := fibHops tables state.mbufs search nbRx pktsBurst portid env.stack
  match build with
  | .simd =>
      let (state, _) ← sendPacketsMulti env state pktsBurst hops nbRx
      return state
  | .generic =>
      let (state, _) ← (List.range nbRx).foldlM (fibSendSingle env pktsBurst) (state, hops)
      return state

section Burst

variable (tables : FibTables) (mbufs : MbufHeap) (search : FibSearch) (nbRx : Nat)
  (pktsBurst : Nat → MbufPtr) (portid : BitVec 16)

/-- The hop of each packet is the one that was found for it, or its default port. -/
theorem fibAssignHops_eq (port : Nat → BitVec 16) (hops : Nat → BitVec 16) {i : Nat}
    (inside : i < nbRx) :
    let looked := (fibParsePackets mbufs pktsBurst search nbRx).lookup tables
    ((List.range nbRx).foldl (fun result i => fibAssignHop looked (port i) result i)
        (⟨0, 0⟩, hops)).2 i =
      if fibNextHop tables mbufs pktsBurst search nbRx i ≠ fibDefaultHop then
        fibNextHop tables mbufs pktsBurst search nbRx i
      else
        port i := by
  intro looked
  have loop : ∀ count, count ≤ nbRx →
      let result := (List.range count).foldl
        (fun result i => fibAssignHop looked (port i) result i) (⟨0, 0⟩, hops)
      result.1 = fibPlace (fun i => mbufs (pktsBurst i)) count ∧
        ∀ i, i < count → result.2 i =
          if fibNextHop tables mbufs pktsBurst search nbRx i ≠ fibDefaultHop then
            fibNextHop tables mbufs pktsBurst search nbRx i
          else
            port i := by
    intro count
    induction count with
    | zero =>
        intro _
        exact ⟨rfl, fun _ impossible => absurd impossible (Nat.not_lt_zero _)⟩
    | succ count induction =>
        intro whole
        rcases induction (Nat.le_of_succ_le whole) with ⟨place, before⟩
        have next := fibPlace_next tables mbufs pktsBurst search whole
        dsimp only at place before ⊢
        rw [List.range_succ, List.foldl_append, List.foldl_cons, List.foldl_nil]
        generalize (List.range count).foldl
          (fun result i => fibAssignHop looked (port i) result i) (⟨0, 0⟩, hops) = result
          at place before ⊢
        rw [fibAssignHop, place, next]
        refine ⟨rfl, ?_⟩
        intro i inside
        dsimp only
        rcases Nat.lt_succ_iff_lt_or_eq.mp inside with earlier | same
        · rw [Function.update_of_ne (Nat.ne_of_lt earlier)]
          exact before i earlier
        · rw [same, Function.update_self]
  exact (loop nbRx (Nat.le_refl nbRx)).2 i inside

/-- In a burst from one port, the default is that port. -/
theorem fibHops_eq (hops : Nat → BitVec 16) {i : Nat} (inside : i < nbRx) :
    fibHops tables mbufs search nbRx pktsBurst portid hops i =
      if fibNextHop tables mbufs pktsBurst search nbRx i ≠ fibDefaultHop then
        fibNextHop tables mbufs pktsBurst search nbRx i
      else
        portid :=
  fibAssignHops_eq tables mbufs search nbRx pktsBurst (fun _ => portid) hops inside

end Burst

/-! ## The same routes -/

/-- How the forwarding information base says what the longest prefix match says. -/
def fibResult : Option (BitVec 32) → BitVec 64
  | some nextHop => nextHop.setWidth 64
  | none => fibDefaultHop.setWidth 64

/-- Both libraries find the same next hop of the same address. The default hop stands for
a miss and for nothing else. -/
structure SameRoutes (lpm : LpmTables) (fib : FibTables) : Prop where
  ipv4 : ∀ ips num i, i < num →
    fib.rteFibLookupBulk ips num i = fibResult (lpm.rteLpmLookup (ips i))
  ipv6 : ∀ ips num i, i < num →
    fib.rteFib6LookupBulk ips num i = fibResult (lpm.rteLpm6Lookup (ips i))
  nextHop : ∀ ip hop, lpm.rteLpmLookup ip = some hop → hop.setWidth 16 ≠ fibDefaultHop
  nextHop6 : ∀ ip hop, lpm.rteLpm6Lookup ip = some hop → hop.setWidth 16 ≠ fibDefaultHop

/-- A forwarding information base with the routes of some tables. -/
def LpmTables.fib (lpm : LpmTables) : FibTables where
  rteFibLookupBulk := fun ips _ i => fibResult (lpm.rteLpmLookup (ips i))
  rteFib6LookupBulk := fun ips _ i => fibResult (lpm.rteLpm6Lookup (ips i))

/-- A result is read back as the port of a hit and as the incoming port on a miss. -/
theorem fibResult_port (found : Option (BitVec 32)) (portid : BitVec 16) :
    (∀ hop, found = some hop → hop.setWidth 16 ≠ fibDefaultHop) →
    (if (fibResult found).setWidth 16 ≠ fibDefaultHop then (fibResult found).setWidth 16
      else portid) =
      match found with
      | some nextHop => nextHop.setWidth 16
      | none => portid := by
  intro real
  cases found with
  | some hop =>
      have truncated : (hop.setWidth 64).setWidth 16 = hop.setWidth 16 := by
        apply BitVec.eq_of_toNat_eq
        have small := hop.isLt
        simp only [BitVec.toNat_setWidth]
        omega
      simp only [fibResult, truncated]
      exact if_pos (real hop rfl)
  | none => exact if_neg (not_not_intro rfl)

/-- `lpm_get_dst_port` looks the packet up. -/
def RteMbuf.isIp (pkt : RteMbuf) : Bool :=
  rteEthIsIpv4Hdr pkt.packetType || rteEthIsIpv6Hdr pkt.packetType

section Agreement

variable {lpm : LpmTables} {fib : FibTables} (same : SameRoutes lpm fib) (mbufs : MbufHeap)
  (search : FibSearch) {nbRx : Nat} (pktsBurst : Nat → MbufPtr) (portid : BitVec 16)
  (hops : Nat → BitVec 16)

include same

theorem fibHops_ipv4 {i : Nat} (inside : i < nbRx)
    (isIpv4 : rteEthIsIpv4Hdr (mbufs (pktsBurst i)).packetType = true) :
    fibHops fib mbufs search nbRx pktsBurst portid hops i =
      lpmGetIpv4DstPort lpm (mbufs (pktsBurst i)) portid := by
  have parsed := fibParsePackets_spec mbufs pktsBurst search nbRx
  let looked := (fibParsePackets mbufs pktsBurst search nbRx).lookup fib
  have isType : looked.typeArr i ≠ 0#8 := (parsed.types i inside).mpr isIpv4
  have place := parsed.ipv4.place_lt inside isIpv4
  have hopsv4 : looked.hopsv4 = _ := if_pos (Nat.zero_lt_of_lt place)
  have found : fibNextHop fib mbufs pktsBurst search nbRx i =
      (fibResult (lpm.rteLpmLookup (bswap32 (mbufs (pktsBurst i)).ipv4DstAddr))).setWidth 16 := by
    change ((fibPlace (fun i => mbufs (pktsBurst i)) i).next looked i).1 = _
    rw [FibAssem.next_ipv4 isType, hopsv4]
    change (fib.rteFibLookupBulk _ _ (Nat.count _ i)).setWidth 16 = _
    rw [same.ipv4 _ _ _ place, parsed.ipv4.entries i inside isIpv4]
  rw [fibHops_eq fib mbufs search nbRx pktsBurst portid hops inside, found,
    fibResult_port _ _ fun hop => same.nextHop _ hop]
  rfl

theorem fibHops_other {i : Nat} (inside : i < nbRx)
    (notIpv4 : ¬ rteEthIsIpv4Hdr (mbufs (pktsBurst i)).packetType = true) :
    fibHops fib mbufs search nbRx pktsBurst portid hops i =
      lpmGetIpv6DstPort lpm (mbufs (pktsBurst i)) portid := by
  have parsed := fibParsePackets_spec mbufs pktsBurst search nbRx
  let looked := (fibParsePackets mbufs pktsBurst search nbRx).lookup fib
  have notType : ¬ looked.typeArr i ≠ 0#8 := fun isType =>
    notIpv4 ((parsed.types i inside).mp isType)
  have place := parsed.ipv6.place_lt inside notIpv4
  have hopsv6 : looked.hopsv6 = _ := if_pos (Nat.zero_lt_of_lt place)
  have found : fibNextHop fib mbufs pktsBurst search nbRx i =
      (fibResult (lpm.rteLpm6Lookup
        (load 16 (mbufs (pktsBurst i)).data ipv6DstAddr))).setWidth 16 := by
    change ((fibPlace (fun i => mbufs (pktsBurst i)) i).next looked i).1 = _
    rw [FibAssem.next_ipv6 notType, hopsv6]
    change (fib.rteFib6LookupBulk _ _ (Nat.count _ i)).setWidth 16 = _
    rw [same.ipv6 _ _ _ place, parsed.ipv6.entries i inside notIpv4]
  rw [fibHops_eq fib mbufs search nbRx pktsBurst portid hops inside, found,
    fibResult_port _ _ fun hop => same.nextHop6 _ hop]
  rfl

/-- The hops are those of the other tables if what is no IP at all finds the way back to
the incoming port. -/
theorem fibHops_agree_iff :
    (∀ i, i < nbRx → fibHops fib mbufs search nbRx pktsBurst portid hops i =
      lpmGetDstPort lpm (mbufs (pktsBurst i)) portid) ↔
    ∀ i, i < nbRx → (mbufs (pktsBurst i)).isIp = true ∨
      lpmGetIpv6DstPort lpm (mbufs (pktsBurst i)) portid = portid := by
  apply forall_congr'
  intro i
  apply imp_congr_right
  intro inside
  unfold RteMbuf.isIp lpmGetDstPort
  by_cases isIpv4 : rteEthIsIpv4Hdr (mbufs (pktsBurst i)).packetType = true
  · rw [fibHops_ipv4 same mbufs search pktsBurst portid hops inside isIpv4]
    simp [isIpv4]
  · rw [fibHops_other same mbufs search pktsBurst portid hops inside isIpv4]
    by_cases isIpv6 : rteEthIsIpv6Hdr (mbufs (pktsBurst i)).packetType = true
    · simp [isIpv4, isIpv6]
    · simp [isIpv4, isIpv6]

end Agreement

/-! ## What is looked up -/

/-- The addresses that are handed to `rte_fib_lookup_bulk`. -/
def FibSearch.ipv4LookedUp (search : FibSearch) : List (BitVec 32) :=
  (List.range search.ipv4Cnt).map search.ipv4Arr

/-- The addresses that are handed to `rte_fib6_lookup_bulk`. -/
def FibSearch.ipv6LookedUp (search : FibSearch) : List (BitVec 128) :=
  (List.range search.ipv6Cnt).map search.ipv6Arr

/-- The addresses that `lpm_get_dst_port` looks up in the IPv4 table. -/
def lpmIpv4LookedUp (mbufs : MbufHeap) (pktsBurst : Nat → MbufPtr) (nbRx : Nat) :
    List (BitVec 32) :=
  ((List.range nbRx).filter fun i => rteEthIsIpv4Hdr (mbufs (pktsBurst i)).packetType).map
    fun i => bswap32 (mbufs (pktsBurst i)).ipv4DstAddr

/-- The addresses that `lpm_get_dst_port` looks up in the IPv6 table. -/
def lpmIpv6LookedUp (mbufs : MbufHeap) (pktsBurst : Nat → MbufPtr) (nbRx : Nat) :
    List (BitVec 128) :=
  ((List.range nbRx).filter fun i => !rteEthIsIpv4Hdr (mbufs (pktsBurst i)).packetType &&
    rteEthIsIpv6Hdr (mbufs (pktsBurst i)).packetType).map
    fun i => load 16 (mbufs (pktsBurst i)).data ipv6DstAddr

section LookedUp

variable (mbufs : MbufHeap) (search : FibSearch) (nbRx : Nat) (pktsBurst : Nat → MbufPtr)

theorem fibParsePackets_ipv4LookedUp :
    (fibParsePackets mbufs pktsBurst search nbRx).ipv4LookedUp =
      lpmIpv4LookedUp mbufs pktsBurst nbRx := by
  have gathered := (fibParsePackets_spec mbufs pktsBurst search nbRx).ipv4.list
  simp only [Bool.decide_eq_true] at gathered
  exact gathered

/-- Whatever is not IPv4 is looked up in the IPv6 table. -/
theorem fibParsePackets_ipv6LookedUp :
    (fibParsePackets mbufs pktsBurst search nbRx).ipv6LookedUp =
      ((List.range nbRx).filter fun i =>
        !rteEthIsIpv4Hdr (mbufs (pktsBurst i)).packetType).map
        fun i => load 16 (mbufs (pktsBurst i)).data ipv6DstAddr := by
  have gathered := (fibParsePackets_spec mbufs pktsBurst search nbRx).ipv6.list
  simp only [Bool.not_eq_true, Bool.decide_eq_false] at gathered
  exact gathered

/-- Only IPv6 is looked up in the IPv6 table if there is nothing else left. -/
theorem fibParsePackets_ipv6LookedUp_iff :
    (fibParsePackets mbufs pktsBurst search nbRx).ipv6LookedUp =
      lpmIpv6LookedUp mbufs pktsBurst nbRx ↔
    ∀ i, i < nbRx → (mbufs (pktsBurst i)).isIp = true := by
  rw [fibParsePackets_ipv6LookedUp]
  constructor
  · intro same i inside
    let others := (List.range nbRx).filter fun i =>
      !rteEthIsIpv4Hdr (mbufs (pktsBurst i)).packetType
    have counts := congrArg List.length same
    rw [lpmIpv6LookedUp, List.length_map, List.length_map] at counts
    -- the IPv6 packets are as many as the others, so they are all of them
    have whole : others.filter (fun i => rteEthIsIpv6Hdr (mbufs (pktsBurst i)).packetType) =
        others := by
      apply List.filter_sublist.eq_of_length
      rw [counts, List.filter_filter]
      simp only [Bool.and_comm]
    unfold RteMbuf.isIp
    cases isIpv4 : rteEthIsIpv4Hdr (mbufs (pktsBurst i)).packetType with
    | true => rfl
    | false =>
        have member : i ∈ others := by simp [others, inside, isIpv4]
        exact List.filter_eq_self.mp whole i member
  · intro allIp
    refine congrArg (List.map _) (List.filter_congr ?_)
    intro i member
    have isIp := allIp i (List.mem_range.mp member)
    unfold RteMbuf.isIp at isIp
    cases isIpv4 : rteEthIsIpv4Hdr (mbufs (pktsBurst i)).packetType with
    | true => rfl
    | false =>
        rw [isIpv4, Bool.false_or] at isIp
        rw [isIp]
        rfl

end LookedUp

/-- A burst meets the forwarding information base as `lpm_get_dst_port` meets its tables:
with the same addresses looked up and the same ports found. -/
structure FibLikeLpm (lpm : LpmTables) (fib : FibTables) (mbufs : MbufHeap) (search : FibSearch)
    (nbRx : Nat) (pktsBurst : Nat → MbufPtr) (portid : BitVec 16) (hops : Nat → BitVec 16) :
    Prop where
  hops : ∀ i, i < nbRx → fibHops fib mbufs search nbRx pktsBurst portid hops i =
    lpmGetDstPort lpm (mbufs (pktsBurst i)) portid
  ipv4 : (fibParsePackets mbufs pktsBurst search nbRx).ipv4LookedUp =
    lpmIpv4LookedUp mbufs pktsBurst nbRx
  ipv6 : (fibParsePackets mbufs pktsBurst search nbRx).ipv6LookedUp =
    lpmIpv6LookedUp mbufs pktsBurst nbRx

/-- A burst is treated alike if and only if all of it is IPv4 or IPv6. Its hops alone are
the same if and only if the lookup of each other packet yields the incoming port. -/
theorem fibHops_likeLpm_iff {lpm : LpmTables} {fib : FibTables} (same : SameRoutes lpm fib)
    (mbufs : MbufHeap) (search : FibSearch) (nbRx : Nat) (pktsBurst : Nat → MbufPtr)
    (portid : BitVec 16) (hops : Nat → BitVec 16) :
    (FibLikeLpm lpm fib mbufs search nbRx pktsBurst portid hops ↔
      ∀ i, i < nbRx → (mbufs (pktsBurst i)).isIp = true) ∧
    ((∀ i, i < nbRx → fibHops fib mbufs search nbRx pktsBurst portid hops i =
        lpmGetDstPort lpm (mbufs (pktsBurst i)) portid) ↔
      ∀ i, i < nbRx → (mbufs (pktsBurst i)).isIp = true ∨
        lpmGetIpv6DstPort lpm (mbufs (pktsBurst i)) portid = portid) := by
  have agree := @fibHops_agree_iff lpm fib same mbufs search nbRx pktsBurst portid hops
  refine ⟨?_, agree⟩
  constructor
  · intro alike
    exact (fibParsePackets_ipv6LookedUp_iff mbufs search nbRx pktsBurst).mp alike.ipv6
  · intro allIp
    exact {
      hops := agree.mpr fun i inside => Or.inl (allIp i inside)
      ipv4 := fibParsePackets_ipv4LookedUp mbufs search nbRx pktsBurst
      ipv6 := (fibParsePackets_ipv6LookedUp_iff mbufs search nbRx pktsBurst).mpr allIp }

/-- Tables that send every IPv6 destination to port 2. -/
def onlyIpv6 : LpmTables where
  rteLpmLookup := fun _ => none
  rteLpm6Lookup := fun _ => some 2#32
  rteLpmLookupx4 := fun ip _ => ip

theorem onlyIpv6_fib : SameRoutes onlyIpv6 onlyIpv6.fib where
  ipv4 := fun _ _ _ _ => rfl
  ipv6 := fun _ _ _ _ => rfl
  nextHop := by
    intro ip hop found
    cases found
  nextHop6 := by
    intro ip hop found
    cases found
    decide

/-- An IPv4 packet and an IPv6 packet from port 1. -/
theorem fibHops_likeLpm_iff_two :
    FibLikeLpm onlyIpv6 onlyIpv6.fib
      (fun m => { (default : RteMbuf) with packetType := if m = 0 then 0x10#32 else 0x40#32 })
      default 2 id 1#16 (fun _ => 0#16) := by
  refine (fibHops_likeLpm_iff onlyIpv6_fib _ default 2 id 1#16 fun _ => 0#16).1.mpr ?_
  decide

/-- A packet that is no IP, say an ARP request, from port 1 is sent to port 2. -/
theorem fibHops_arp :
    SameRoutes onlyIpv6 onlyIpv6.fib ∧
    rteEthIsIpv4Hdr (default : RteMbuf).packetType = false ∧
    rteEthIsIpv6Hdr (default : RteMbuf).packetType = false ∧
    fibHops onlyIpv6.fib (fun _ => default) default 1 id 1#16 (fun _ => 0#16) 0 = 2#16 ∧
    lpmGetDstPort onlyIpv6 default 1#16 = 1#16 := by
  refine ⟨onlyIpv6_fib, by decide, by decide, ?_, by decide⟩
  rw [fibHops_other onlyIpv6_fib (fun _ => default) default id 1#16 (fun _ => 0#16)
    Nat.zero_lt_one (by decide)]
  decide

end PacketForwarding.L3fwd
