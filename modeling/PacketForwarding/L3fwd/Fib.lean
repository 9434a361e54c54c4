import PacketForwarding.Foundation.Gather
import PacketForwarding.L3fwd.Lpm

/-! # Destination ports from the forwarding information base

A burst is split into IPv4 addresses and IPv6 addresses, each part is looked up at
once, and the next hops are put together again. Whatever is not IPv4 counts as IPv6.
-/

namespace PacketForwarding.L3fwd

open Lanes Cells

/-! ## Lookup tables -/

/-- The bulk lookups of `rte_fib` and `rte_fib6`, each for the table of the lcore: the
next hops of the first addresses of an array. -/
structure FibTables where
  rteFibLookupBulk : (Nat → BitVec 32) → Nat → Nat → BitVec 64
  rteFib6LookupBulk : (Nat → BitVec 128) → Nat → Nat → BitVec 64

/-- A non-existent port that denotes a default hop. -/
def fibDefaultHop : BitVec 16 := 999#16

/-- The next hop is a port that exists, or stands for the incoming port. -/
def FibHopExists (nh : BitVec 16) : Prop :=
  nh = fibDefaultHop ∨ nh.toNat < rteMaxEthports

/-- What the setup checks of every route: its port exists. -/
structure FibTables.PortsExist (tables : FibTables) : Prop where
  ipv4 : ∀ ips num i, i < num → FibHopExists ((tables.rteFibLookupBulk ips num i).setWidth 16)
  ipv6 : ∀ ips num i, i < num → FibHopExists ((tables.rteFib6LookupBulk ips num i).setWidth 16)

/-! ## Splitting a burst -/

def fibPrefetchOffset : Nat := 4

/-- The arrays of a lookup. `typeArr` is 1 for IPv4. -/
structure FibSearch where
  ipv4Arr : Nat → BitVec 32
  ipv4Cnt : Nat
  ipv6Arr : Nat → BitVec 128
  ipv6Cnt : Nat
  typeArr : Nat → BitVec 8
  hopsv4 : Nat → BitVec 64
  hopsv6 : Nat → BitVec 64
  deriving Inhabited

/-- Parse packet type and IP address. -/
def fibParsePacket (mbufs : MbufHeap) (pkts : Nat → MbufPtr) (search : FibSearch) (i : Nat) :
    FibSearch :=
  let mbuf := mbufs (pkts i)
  if rteEthIsIpv4Hdr mbuf.packetType then
    { search with
      ipv4Arr := Function.update search.ipv4Arr search.ipv4Cnt (bswap32 mbuf.ipv4DstAddr)
      typeArr := Function.update search.typeArr i 1#8
      ipv4Cnt := search.ipv4Cnt + 1 }
  else
    { search with
      ipv6Arr := Function.update search.ipv6Arr search.ipv6Cnt (load 16 mbuf.data ipv6DstAddr)
      typeArr := Function.update search.typeArr i 0#8
      ipv6Cnt := search.ipv6Cnt + 1 }

/-- Parse `num` packets, the last ones without a prefetch. -/
def fibParsePackets (mbufs : MbufHeap) (pkts : Nat → MbufPtr) (search : FibSearch) (num : Nat) :
    FibSearch :=
  let search := { search with ipv4Cnt := 0, ipv6Cnt := 0 }
  let i := num - fibPrefetchOffset
  let search := (List.range' 0 i).foldl (fibParsePacket mbufs pkts) search
  -- parse remaining packet info
  (List.range' i (num - i)).foldl (fibParsePacket mbufs pkts) search

/-- Look up each part of the burst that is not empty. -/
def FibSearch.lookup (tables : FibTables) (search : FibSearch) : FibSearch :=
  { search with
    hopsv4 :=
      if 0 < search.ipv4Cnt then tables.rteFibLookupBulk search.ipv4Arr search.ipv4Cnt
      else search.hopsv4
    hopsv6 :=
      if 0 < search.ipv6Cnt then tables.rteFib6LookupBulk search.ipv6Arr search.ipv6Cnt
      else search.hopsv6 }

/-- How many next hops of either kind have been assigned. -/
structure FibAssem where
  ipv4ArrAssem : Nat
  ipv6ArrAssem : Nat

/-- The next hop of packet `i`. -/
def FibAssem.next (search : FibSearch) (assem : FibAssem) (i : Nat) : BitVec 16 × FibAssem :=
  if search.typeArr i ≠ 0#8 then
    ((search.hopsv4 assem.ipv4ArrAssem).setWidth 16,
      { assem with ipv4ArrAssem := assem.ipv4ArrAssem + 1 })
  else
    ((search.hopsv6 assem.ipv6ArrAssem).setWidth 16,
      { assem with ipv6ArrAssem := assem.ipv6ArrAssem + 1 })

theorem FibAssem.next_ipv4 {search : FibSearch} {i : Nat} (isIpv4 : search.typeArr i ≠ 0#8)
    (assem : FibAssem) :
    assem.next search i = ((search.hopsv4 assem.ipv4ArrAssem).setWidth 16,
      { assem with ipv4ArrAssem := assem.ipv4ArrAssem + 1 }) :=
  if_pos isIpv4

theorem FibAssem.next_ipv6 {search : FibSearch} {i : Nat} (notIpv4 : ¬ search.typeArr i ≠ 0#8)
    (assem : FibAssem) :
    assem.next search i = ((search.hopsv6 assem.ipv6ArrAssem).setWidth 16,
      { assem with ipv6ArrAssem := assem.ipv6ArrAssem + 1 }) :=
  if_neg notIpv4

/-! ## What was split is put together again -/

/-- The place of packet `i` among the packets of its kind. -/
def fibPlace (pkt : Nat → RteMbuf) (i : Nat) : FibAssem where
  ipv4ArrAssem := Nat.count (fun i => rteEthIsIpv4Hdr (pkt i).packetType = true) i
  ipv6ArrAssem := Nat.count (fun i => ¬ rteEthIsIpv4Hdr (pkt i).packetType = true) i

/-- The first `count` packets are in the arrays of their kinds. -/
structure FibParsed (pkt : Nat → RteMbuf) (count : Nat) (search : FibSearch) : Prop where
  types : ∀ i, i < count →
    (search.typeArr i ≠ 0#8 ↔ rteEthIsIpv4Hdr (pkt i).packetType = true)
  ipv4 : Gathered (fun i => rteEthIsIpv4Hdr (pkt i).packetType = true)
    (fun i => bswap32 (pkt i).ipv4DstAddr) count search.ipv4Cnt search.ipv4Arr
  ipv6 : Gathered (fun i => ¬ rteEthIsIpv4Hdr (pkt i).packetType = true)
    (fun i => load 16 (pkt i).data ipv6DstAddr) count search.ipv6Cnt search.ipv6Arr

theorem typeArr_update {p : Nat → Prop} {typeArr : Nat → BitVec 8} {count : Nat}
    {new : BitVec 8} (before : ∀ i, i < count → (typeArr i ≠ 0#8 ↔ p i))
    (last : new ≠ 0#8 ↔ p count) :
    ∀ i, i < count + 1 → (Function.update typeArr count new i ≠ 0#8 ↔ p i) := by
  intro i inside
  rcases Nat.lt_succ_iff_lt_or_eq.mp inside with earlier | same
  · rw [Function.update_of_ne (Nat.ne_of_lt earlier)]
    exact before i earlier
  · rw [same, Function.update_self]
    exact last

theorem fibParsePacket_spec (mbufs : MbufHeap) (pkts : Nat → MbufPtr) {search : FibSearch}
    {count : Nat} (parsed : FibParsed (fun i => mbufs (pkts i)) count search) :
    FibParsed (fun i => mbufs (pkts i)) (count + 1)
      (fibParsePacket mbufs pkts search count) := by
  unfold fibParsePacket
  dsimp only
  split
  · rename_i isIpv4
    refine ⟨typeArr_update parsed.types ?_, parsed.ipv4.take isIpv4,
      parsed.ipv6.skip (not_not_intro isIpv4)⟩
    exact iff_of_true (by decide) isIpv4
  · rename_i notIpv4
    refine ⟨typeArr_update parsed.types ?_, parsed.ipv4.skip notIpv4,
      parsed.ipv6.take notIpv4⟩
    exact iff_of_false (by decide) notIpv4

theorem fibParsePackets_spec (mbufs : MbufHeap) (pkts : Nat → MbufPtr) (search : FibSearch)
    (num : Nat) :
    FibParsed (fun i => mbufs (pkts i)) num (fibParsePackets mbufs pkts search num) := by
  have loop : ∀ count first search, FibParsed (fun i => mbufs (pkts i)) first search →
      FibParsed (fun i => mbufs (pkts i)) (first + count)
        ((List.range' first count).foldl (fibParsePacket mbufs pkts) search) := by
    intro count
    induction count with
    | zero =>
        intro first search parsed
        exact parsed
    | succ count induction =>
        intro first search parsed
        rw [List.range'_succ, List.foldl_cons, Nat.add_comm count 1, ← Nat.add_assoc]
        exact induction (first + 1) _ (fibParsePacket_spec mbufs pkts parsed)
  have started : FibParsed (fun i => mbufs (pkts i)) 0
      { search with ipv4Cnt := 0, ipv6Cnt := 0 } :=
    ⟨fun _ impossible => absurd impossible (Nat.not_lt_zero _), .nil _ _, .nil _ _⟩
  have early := loop (num - fibPrefetchOffset) 0 _ started
  rw [Nat.zero_add] at early
  have all := loop (num - (num - fibPrefetchOffset)) _ _ early
  rw [Nat.add_sub_of_le (Nat.sub_le num fibPrefetchOffset)] at all
  exact all

/-- The next hop that the lookup has for packet `i` of a burst. -/
def fibNextHop (tables : FibTables) (mbufs : MbufHeap) (pkts : Nat → MbufPtr)
    (search : FibSearch) (num i : Nat) : BitVec 16 :=
  let search := (fibParsePackets mbufs pkts search num).lookup tables
  ((fibPlace (fun i => mbufs (pkts i)) i).next search i).1

/-- From the place of a packet, the assembly goes on to the place of the next one. -/
theorem fibPlace_next (tables : FibTables) (mbufs : MbufHeap) (pkts : Nat → MbufPtr)
    (search : FibSearch) {num i : Nat} (inside : i < num) :
    let looked := (fibParsePackets mbufs pkts search num).lookup tables
    (fibPlace (fun i => mbufs (pkts i)) i).next looked i =
      (fibNextHop tables mbufs pkts search num i, fibPlace (fun i => mbufs (pkts i)) (i + 1)) := by
  intro looked
  have kind := (fibParsePackets_spec mbufs pkts search num).types i inside
  refine Prod.ext rfl ?_
  by_cases isIpv4 : rteEthIsIpv4Hdr (mbufs (pkts i)).packetType = true
  · have isType : looked.typeArr i ≠ 0#8 := kind.mpr isIpv4
    simp [FibAssem.next, isType, fibPlace, Nat.count_succ, isIpv4]
  · have notType : ¬ looked.typeArr i ≠ 0#8 := fun isType => isIpv4 (kind.mp isType)
    simp [FibAssem.next, not_not.mp notType, fibPlace, Nat.count_succ, isIpv4]

/-- Every next hop was written by a lookup. -/
theorem fibNextHop_exists {tables : FibTables} (exist : tables.PortsExist) (mbufs : MbufHeap)
    (pkts : Nat → MbufPtr) (search : FibSearch) {num i : Nat} (inside : i < num) :
    FibHopExists (fibNextHop tables mbufs pkts search num i) := by
  have parsed := fibParsePackets_spec mbufs pkts search num
  let looked := (fibParsePackets mbufs pkts search num).lookup tables
  have kind : looked.typeArr i ≠ 0#8 ↔ rteEthIsIpv4Hdr (mbufs (pkts i)).packetType = true :=
    parsed.types i inside
  change FibHopExists ((fibPlace (fun i => mbufs (pkts i)) i).next looked i).1
  by_cases isIpv4 : rteEthIsIpv4Hdr (mbufs (pkts i)).packetType = true
  · have place := parsed.ipv4.place_lt inside isIpv4
    have hops : looked.hopsv4 = _ := if_pos (Nat.zero_lt_of_lt place)
    rw [FibAssem.next_ipv4 (kind.mpr isIpv4), hops]
    exact exist.ipv4 _ _ _ place
  · have place := parsed.ipv6.place_lt inside isIpv4
    have hops : looked.hopsv6 = _ := if_pos (Nat.zero_lt_of_lt place)
    rw [FibAssem.next_ipv6 fun isType => isIpv4 (kind.mp isType), hops]
    exact exist.ipv6 _ _ _ place

end PacketForwarding.L3fwd
