import PacketForwarding.L3fwd.EmVector
import PacketForwarding.L3fwd.EventSingle
import PacketForwarding.L3fwd.FibPorts
import PacketForwarding.L3fwd.LpmReads

/-! # Which slots of an event vector are touched

The functions that process a vector are run with a trace of the slots of its array that they
read or write. All of them begin at slot 0. Apart from two prefetches, they end with the last
packet, and they leave the packets of other slots alone.
-/

namespace PacketForwarding.L3fwd

open Lanes Cells

namespace SlotReads

/-! ## Filtering -/

/-- A bad packet is freed. A good one behind a bad one is moved. -/
def filterStep (filter : BadFilter) (i : Nat) : Traced Nat BadFilter := do
  if filter.dstPort i = badPort then
    Traced.touch i
  else if filter.free ≠ 0 then
    Traced.touchAll [i, filter.pos]
  return filter.step i

def filterBadPackets (mbufs : Nat → MbufPtr) (dstPort : Nat → BitVec 16) (nbPkts : Nat) :
    Traced Nat BadFilter :=
  (List.range nbPkts).foldlM filterStep ⟨mbufs, dstPort, 0, 0, 0, []⟩

/-- Without a common port, every packet that is left gets its own. -/
def processEventVector (mbufs : MbufHeap) (vec : RteEventVector) (dstPort : Nat → BitVec 16) :
    Traced Nat VectorState := do
  let filter ← filterBadPackets vec.mbufs dstPort vec.nbElem
  let left := vec.nbElem - filter.free
  if processDstPort filter.dstPort left = badPort then
    Traced.touchAll (List.range left)
  return L3fwd.processEventVector mbufs vec dstPort

/-! ## Longest prefix match -/

/-- `dst_port[i] = lpm_process_event_pkt(lconf, mbufs[i])` -/
def lpmProcessEventPkt (env : Env) (tables : LpmTables) (vec : RteEventVector)
    (packets : MbufHeap × (Nat → BitVec 16)) (i : Nat) :
    Traced Nat (MbufHeap × (Nat → BitVec 16)) := do
  Traced.touch i
  let pkt := L3fwd.lpmProcessEventPkt .generic env tables (packets.1 (vec.mbufs i))
  return (Function.update packets.1 (vec.mbufs i) pkt, Function.update packets.2 i pkt.port)

def lpmVectorPackets (build : Build) (env : Env) (tables : LpmTables) (mbufs : MbufHeap)
    (vec : RteEventVector) (dstPort : Nat → BitVec 16) :
    Traced Nat (MbufHeap × (Nat → BitVec 16)) :=
  match build with
  | .simd =>
      if vec.attrValid then
        PktReads.l3fwdLpmProcessPackets env tables mbufs vec.nbElem vec.mbufs vec.port dstPort
          true
      else
        (List.range vec.nbElem).foldlM (PktReads.lpmVectorPacket env tables vec) (mbufs, dstPort)
  | .generic =>
      (List.range vec.nbElem).foldlM (lpmProcessEventPkt env tables vec) (mbufs, dstPort)

/-! ## Forwarding information base -/

/-- Parse a packet, after a prefetch of a later one. -/
def fibParseEarly (mbufs : MbufHeap) (pkts : Nat → MbufPtr) (search : FibSearch) (i : Nat) :
    Traced Nat FibSearch := do
  Traced.touch (i + fibPrefetchOffset)
  Traced.touch i
  return fibParsePacket mbufs pkts search i

def fibParseLate (mbufs : MbufHeap) (pkts : Nat → MbufPtr) (search : FibSearch) (i : Nat) :
    Traced Nat FibSearch := do
  Traced.touch i
  return fibParsePacket mbufs pkts search i

def fibParsePackets (mbufs : MbufHeap) (pkts : Nat → MbufPtr) (search : FibSearch) (num : Nat) :
    Traced Nat FibSearch := do
  -- prefetch first packets
  Traced.touchAll (List.range (min fibPrefetchOffset num))
  let search := { search with ipv4Cnt := 0, ipv6Cnt := 0 }
  let i := num - fibPrefetchOffset
  let search ← (List.range' 0 i).foldlM (fibParseEarly mbufs pkts) search
  (List.range' i (num - i)).foldlM (fibParseLate mbufs pkts) search

/-- Only the default hop asks the packet for its port, in a vector without a port. -/
def fibAssignHop (mbufs : MbufHeap) (vec : RteEventVector) (search : FibSearch)
    (result : FibAssem × (Nat → BitVec 16)) (i : Nat) :
    Traced Nat (FibAssem × (Nat → BitVec 16)) := do
  if (result.1.next search i).1 = fibDefaultHop ∧ vec.attrValid = false then
    Traced.touch i
  return L3fwd.fibAssignHop search (vec.defaultHop mbufs i) result i

/-- `process_packet(vec->mbufs[i], &hops[i])` -/
def fibProcessPacket (build : Build) (env : Env) (vec : RteEventVector)
    (packets : MbufHeap × (Nat → BitVec 16)) (i : Nat) :
    Traced Nat (MbufHeap × (Nat → BitVec 16)) := do
  Traced.touch i
  return visitOne vec.mbufs (L3fwd.fibProcessPacket build env) i packets

def fibVectorPackets (build : Build) (env : Env) (tables : FibTables) (search : FibSearch)
    (mbufs : MbufHeap) (vec : RteEventVector) (hops : Nat → BitVec 16) :
    Traced Nat (MbufHeap × (Nat → BitVec 16)) := do
  let search ← fibParsePackets mbufs vec.mbufs search vec.nbElem
  let (_, hops) ← (List.range vec.nbElem).foldlM
    (fibAssignHop mbufs vec (search.lookup tables)) (⟨0, 0⟩, hops)
  match build with
  | .simd =>
      let k := vec.nbElem / fwdStep * fwdStep
      let packets ← (List.range (vec.nbElem / fwdStep)).foldlM
        (PktReads.processx4Step3 env vec.mbufs) (mbufs, hops)
      (List.range' k (vec.nbElem - k)).foldlM (fibProcessPacket .simd env vec) packets
  | .generic =>
      (List.range vec.nbElem).foldlM (fibProcessPacket .generic env vec) (mbufs, hops)

/-! ## Exact match -/

/-- The types of a group are read, then the group behind is prefetched, and each of the
lookup and the processing reads the group again. -/
def emProcessGroup (env : Env) (tables : EmTables) (pktsBurst : Nat → MbufPtr)
    (portid : BitVec 16) (nbRx : Nat) (packets : MbufHeap × (Nat → BitVec 16)) (group : Nat) :
    Traced Nat (MbufHeap × (Nat → BitVec 16)) := do
  let j := group * emHashLookupCount
  let pos := j + emHashLookupCount
  Traced.touchAll (List.range' j emHashLookupCount)
  Traced.touchAll (List.range' pos (min emHashLookupCount (nbRx - pos)))
  Traced.touchAll (List.range' j emHashLookupCount)
  Traced.touchAll (List.range' j emHashLookupCount)
  return L3fwd.emProcessGroup env tables pktsBurst portid true packets j

def emProcessTail (env : Env) (tables : EmTables) (pktsBurst : Nat → MbufPtr)
    (portid : BitVec 16) (packets : MbufHeap × (Nat → BitVec 16)) (j : Nat) :
    Traced Nat (MbufHeap × (Nat → BitVec 16)) := do
  Traced.touchAll [j, j]
  return L3fwd.emProcessTail env tables pktsBurst portid true packets j

def l3fwdEmProcessPackets (env : Env) (tables : EmTables) (mbufs : MbufHeap) (nbRx : Nat)
    (pktsBurst : Nat → MbufPtr) (dstPort : Nat → BitVec 16) (portid : BitVec 16) :
    Traced Nat (MbufHeap × (Nat → BitVec 16)) := do
  let n := nbRx / emHashLookupCount * emHashLookupCount
  Traced.touchAll (List.range (min emHashLookupCount nbRx))
  let packets ← (List.range (nbRx / emHashLookupCount)).foldlM
    (emProcessGroup env tables pktsBurst portid nbRx) (mbufs, dstPort)
  (List.range' n (nbRx - n)).foldlM (emProcessTail env tables pktsBurst portid) packets

def emProcessVectorElem (env : Env) (tables : EmTables) (mbufs : Nat → MbufPtr)
    (packets : MbufHeap × (Nat → BitVec 16)) (i : Nat) :
    Traced Nat (MbufHeap × (Nat → BitVec 16)) := do
  -- for its port
  Traced.touch i
  let (heap, ports) ← (l3fwdEmProcessPackets env tables packets.1 1 (fun k => mbufs (i + k))
    (fun k => packets.2 (i + k)) (packets.1 (mbufs i)).port).relabel fun k => i + k
  return (heap, fun k => if i ≤ k then ports (k - i) else packets.2 k)

def emVectorPackets (env : Env) (tables : EmTables) (mbufs : MbufHeap) (vec : RteEventVector)
    (dstPort : Nat → BitVec 16) : Traced Nat (MbufHeap × (Nat → BitVec 16)) :=
  if vec.attrValid then
    l3fwdEmProcessPackets env tables mbufs vec.nbElem vec.mbufs dstPort vec.port
  else
    (List.range vec.nbElem).foldlM (emProcessVectorElem env tables vec.mbufs) (mbufs, dstPort)

/-- The first packet is prefetched even if there is none. -/
def Sequential.emVectorPackets (env : Env) (tables : EmTables) (mbufs : MbufHeap)
    (vec : RteEventVector) (dstPorts : Nat → BitVec 16) :
    Traced Nat (MbufHeap × (Nat → BitVec 16)) := do
  Traced.touch 0
  Traced.touchAll ((List.range vec.nbElem).flatMap fun i =>
    if i + 1 < vec.nbElem then [i + 1, i] else [i])
  let dstPorts := assign (L3fwd.Sequential.emVectorPort env tables mbufs vec) 0 vec.nbElem dstPorts
  let j := vec.nbElem / fwdStep * fwdStep
  let packets ← (List.range (vec.nbElem / fwdStep)).foldlM
    (PktReads.processx4Step3 env vec.mbufs) (mbufs, dstPorts)
  (List.range' j (vec.nbElem - j)).foldlM (fibProcessPacket .simd env vec) packets

/-! ## Without the traces -/

theorem filterBadPackets_value (mbufs : Nat → MbufPtr) (dstPort : Nat → BitVec 16)
    (nbPkts : Nat) :
    (filterBadPackets mbufs dstPort nbPkts).value =
      L3fwd.filterBadPackets mbufs dstPort nbPkts := by
  have step : ∀ filter i, (filterStep filter i).value = BadFilter.step filter i := by
    intro filter i
    rw [filterStep]
    split
    · rfl
    · split
      · rfl
      · rfl
  rw [filterBadPackets, Traced.value_foldlM]
  simp only [step]
  rfl

theorem processEventVector_value (mbufs : MbufHeap) (vec : RteEventVector)
    (dstPort : Nat → BitVec 16) :
    (processEventVector mbufs vec dstPort).value = L3fwd.processEventVector mbufs vec dstPort := by
  rw [processEventVector]
  dsimp only
  rw [Traced.value_bind]
  split
  · rfl
  · rfl

/-- Visiting slots in order is a loop over them. -/
theorem foldl_visitOne {β : Type} (cell : Nat → MbufPtr) (step : RteMbuf → β → RteMbuf × β) :
    ∀ count first state, (List.range' first count).foldl
        (fun state i => visitOne cell step i state) state = visit cell step count first state := by
  intro count
  induction count with
  | zero => exact fun _ _ => rfl
  | succ count induction =>
      intro first state
      rw [List.range'_succ, List.foldl_cons, induction]
      rfl

/-- Groups of four, then the rest, as both lookups process a vector. -/
theorem fours_value (env : Env) (vec : RteEventVector) (packets : MbufHeap × (Nat → BitVec 16)) :
    let fours := vec.nbElem / fwdStep
    ((List.range' (fours * fwdStep) (vec.nbElem - fours * fwdStep)).foldlM
        (fibProcessPacket .simd env vec)
        ((List.range fours).foldlM (PktReads.processx4Step3 env vec.mbufs) packets).value).value =
      visit vec.mbufs (processPacket env) (vec.nbElem - fours * fwdStep) (fours * fwdStep)
        (forFours (processx4Step3 env vec.mbufs) fours 0 packets) := by
  intro fours
  have groups := PktReads.value_groups (PktReads.processx4Step3 env vec.mbufs)
    (processx4Step3 env vec.mbufs) (fun _ _ => rfl) fours packets
  rw [Traced.value_foldlM, groups, ← foldl_visitOne]
  rfl

theorem lpmVectorPackets_value (env : Env) (tables : LpmTables) (mbufs : MbufHeap)
    (vec : RteEventVector) (dstPort : Nat → BitVec 16) :
    let packets := (lpmVectorPackets .simd env tables mbufs vec dstPort).value
    L3fwd.processEventVector packets.1 vec packets.2 =
      lpmProcessEventVector env tables mbufs vec dstPort := by
  rw [← PktReads.lpmProcessEventVector_value, PktReads.lpmProcessEventVector]
  cases valid : vec.attrValid with
  | true => simp only [lpmVectorPackets, valid, if_true, Traced.value_bind, Traced.value_pure]
  | false =>
      simp only [lpmVectorPackets, valid, Bool.false_eq_true, if_false, Traced.value_bind,
        Traced.value_pure]

theorem fibParsePackets_value (mbufs : MbufHeap) (pkts : Nat → MbufPtr) (search : FibSearch)
    (num : Nat) :
    (fibParsePackets mbufs pkts search num).value =
      L3fwd.fibParsePackets mbufs pkts search num := by
  rw [fibParsePackets, L3fwd.fibParsePackets]
  dsimp only
  rw [Traced.value_bind, Traced.value_bind, Traced.value_foldlM, Traced.value_foldlM]
  rfl

theorem fibAssignHops_value (tables : FibTables) (search : FibSearch) (mbufs : MbufHeap)
    (vec : RteEventVector) (hops : Nat → BitVec 16) :
    let looked := (fibParsePackets mbufs vec.mbufs search vec.nbElem).value.lookup tables
    ((List.range vec.nbElem).foldlM (fibAssignHop mbufs vec looked) (⟨0, 0⟩, hops)).value.2 =
      fibVectorHops tables search mbufs vec hops := by
  intro looked
  have step : ∀ result i, (fibAssignHop mbufs vec looked result i).value =
      L3fwd.fibAssignHop looked (vec.defaultHop mbufs i) result i := by
    intro result i
    rw [fibAssignHop]
    split
    · rfl
    · rfl
  rw [Traced.value_foldlM]
  simp only [step]
  rw [fibVectorHops, ← fibParsePackets_value]

theorem fibVectorPackets_value (build : Build) (env : Env) (tables : FibTables)
    (search : FibSearch) (mbufs : MbufHeap) (vec : RteEventVector) (hops : Nat → BitVec 16) :
    let packets := (fibVectorPackets build env tables search mbufs vec hops).value
    L3fwd.processEventVector packets.1 vec packets.2 =
      fibProcessEventVector build env tables search mbufs vec hops := by
  intro packets
  have assigned := fibAssignHops_value tables search mbufs vec hops
  dsimp only at assigned
  have isPackets : packets = match build with
      | .simd =>
          visit vec.mbufs (processPacket env)
            (vec.nbElem - vec.nbElem / fwdStep * fwdStep) (vec.nbElem / fwdStep * fwdStep)
            (forFours (processx4Step3 env vec.mbufs) (vec.nbElem / fwdStep) 0
              (mbufs, fibVectorHops tables search mbufs vec hops))
      | .generic =>
          (List.range vec.nbElem).foldl (fun packets i =>
            visitOne vec.mbufs (L3fwd.fibProcessPacket .generic env) i packets)
            (mbufs, fibVectorHops tables search mbufs vec hops) := by
    rw [← assigned]
    cases build with
    | simd => exact fours_value env vec _
    | generic => exact Traced.value_foldlM _ _ _
  rw [isPackets]
  cases build with
  | simd => rfl
  | generic => rfl

theorem l3fwdEmProcessPackets_value (env : Env) (tables : EmTables) (mbufs : MbufHeap)
    (nbRx : Nat) (pktsBurst : Nat → MbufPtr) (dstPort : Nat → BitVec 16) (portid : BitVec 16) :
    (l3fwdEmProcessPackets env tables mbufs nbRx pktsBurst dstPort portid).value =
      L3fwd.l3fwdEmProcessPackets env tables mbufs nbRx pktsBurst dstPort portid true := by
  rw [l3fwdEmProcessPackets, L3fwd.l3fwdEmProcessPackets]
  rw [Traced.value_bind, Traced.value_bind, Traced.value_foldlM, Traced.value_foldlM]
  rfl

theorem emVectorPackets_value (env : Env) (tables : EmTables) (mbufs : MbufHeap)
    (vec : RteEventVector) (dstPort : Nat → BitVec 16) :
    let packets := (emVectorPackets env tables mbufs vec dstPort).value
    L3fwd.processEventVector packets.1 vec packets.2 =
      l3fwdEmProcessEventVector env tables mbufs vec dstPort := by
  have elem : ∀ packets i, (emProcessVectorElem env tables vec.mbufs packets i).value =
      L3fwd.emProcessVectorElem env tables vec.mbufs packets i := by
    intro packets i
    rw [L3fwd.emProcessVectorElem, ← l3fwdEmProcessPackets_value]
    rfl
  rw [emVectorPackets, l3fwdEmProcessEventVector]
  cases valid : vec.attrValid with
  | true => simp only [if_true, l3fwdEmProcessPackets_value]
  | false => simp only [Bool.false_eq_true, if_false, Traced.value_foldlM, elem]

theorem Sequential.emVectorPackets_value (env : Env) (tables : EmTables) (mbufs : MbufHeap)
    (vec : RteEventVector) (dstPorts : Nat → BitVec 16) :
    let packets := (Sequential.emVectorPackets env tables mbufs vec dstPorts).value
    L3fwd.processEventVector packets.1 vec packets.2 =
      L3fwd.Sequential.l3fwdEmProcessEventVector env tables mbufs vec dstPorts := by
  intro packets
  have isPackets : packets = _ := fours_value env vec
    (mbufs, assign (L3fwd.Sequential.emVectorPort env tables mbufs vec) 0 vec.nbElem dstPorts)
  rw [isPackets, L3fwd.Sequential.l3fwdEmProcessEventVector]

/-! ## Which slots are touched -/

theorem filterLoop_below (mbufs : Nat → MbufPtr) (dstPort : Nat → BitVec 16) {nbPkts : Nat} :
    ∀ count, count ≤ nbPkts → (filterBadPackets mbufs dstPort count).Only (· < nbPkts) := by
  intro count
  induction count with
  | zero => exact fun _ => Traced.only_pure _
  | succ count induction =>
      intro inside
      have value := filterBadPackets_value mbufs dstPort count
      have filtered := filterBadPackets_spec mbufs dstPort count
      rw [← value] at filtered
      rw [filterBadPackets, List.range_succ, List.foldlM_append, Traced.only_bind_iff]
      refine ⟨induction (Nat.le_of_succ_le inside), ?_⟩
      rw [← filterBadPackets]
      generalize (filterBadPackets mbufs dstPort count).value = filter at filtered ⊢
      simp only [List.foldlM_cons, List.foldlM_nil, bind_pure]
      rw [filterStep]
      split
      · exact (Traced.only_bind_iff _ _).mpr
          ⟨(Traced.only_touch_iff count).mpr inside, Traced.only_pure _⟩
      · split
        · rename_i some
          have place := (filtered.place some).1
          have free := filtered.free
          refine (Traced.only_bind_iff _ _).mpr ⟨?_, Traced.only_pure _⟩
          simp only [Traced.only_touchAll_iff, List.forall_mem_cons, List.not_mem_nil,
            false_implies, implies_true, and_true]
          omega
        · exact Traced.only_pure _

theorem processEventVector_below (mbufs : MbufHeap) (vec : RteEventVector)
    (dstPort : Nat → BitVec 16) :
    (processEventVector mbufs vec dstPort).Only (· < vec.nbElem) := by
  rw [processEventVector, Traced.only_bind_iff]
  refine ⟨filterLoop_below vec.mbufs dstPort vec.nbElem (Nat.le_refl _), ?_⟩
  dsimp only
  split
  · refine (Traced.only_bind_iff _ _).mpr ⟨?_, Traced.only_pure _⟩
    intro slot member
    exact Nat.lt_of_lt_of_le (List.mem_range.mp member) (Nat.sub_le _ _)
  · exact Traced.only_pure _

theorem fibProcessPackets_below {bound : Nat} {env : Env} {vec : RteEventVector} (build : Build)
    {items : List Nat} (inside : ∀ i ∈ items, i < bound)
    (packets : MbufHeap × (Nat → BitVec 16)) :
    (items.foldlM (fibProcessPacket build env vec) packets).Only (· < bound) := by
  apply Traced.only_foldlM
  intro i member packets
  exact (Traced.only_bind_iff _ _).mpr
    ⟨(Traced.only_touch_iff i).mpr (inside i member), Traced.only_pure _⟩

/-- What is behind the whole groups is inside. -/
theorem rest_below {size count : Nat} :
    ∀ i ∈ List.range' (count / size * size) (count - count / size * size), i < count := by
  intro i member
  have whole := Nat.div_mul_le_self count size
  have inside := (List.mem_range'_1.mp member).2
  omega

/-- The groups of four read a vector with vector instructions to the last packet but inside. -/
theorem lpmVectorPackets_below_iff (build : Build) (env : Env) (tables : LpmTables)
    (mbufs : MbufHeap) (vec : RteEventVector) (dstPort : Nat → BitVec 16) :
    (lpmVectorPackets build env tables mbufs vec dstPort).Only (· < vec.nbElem) ↔
      (build = .simd → vec.attrValid = true → vec.nbElem < 8 ∨ vec.nbElem % 4 = 0) := by
  cases build with
  | simd =>
      have reads := PktReads.lpmProcessEventVector_below_iff env tables mbufs vec dstPort
      rw [PktReads.lpmProcessEventVector] at reads
      rw [lpmVectorPackets]
      cases valid : vec.attrValid with
      | true =>
          simp only [valid, if_true, Traced.only_bind_iff, Traced.only_pure_iff, and_true]
            at reads ⊢
          simpa using reads
      | false =>
          simp only [valid, Bool.false_eq_true, if_false, Traced.only_bind_iff,
            Traced.only_pure_iff, and_true] at reads ⊢
          simpa using reads
  | generic =>
      refine iff_of_true ?_ fun impossible => Build.noConfusion impossible
      apply Traced.only_foldlM
      intro i member packets
      exact (Traced.only_bind_iff _ _).mpr
        ⟨(Traced.only_touch_iff i).mpr (List.mem_range.mp member), Traced.only_pure _⟩

theorem fibParsePackets_below (mbufs : MbufHeap) (pkts : Nat → MbufPtr) (search : FibSearch)
    (num : Nat) : (fibParsePackets mbufs pkts search num).Only (· < num) := by
  rw [fibParsePackets, Traced.only_bind_iff, Traced.only_bind_iff]
  refine ⟨?_, ?_, ?_⟩
  · intro slot member
    exact Nat.lt_of_lt_of_le (List.mem_range.mp member) (Nat.min_le_right _ _)
  · apply Traced.only_foldlM
    intro i member search
    have early := (List.mem_range'_1.mp member).2
    rw [fibParseEarly, Traced.only_bind_iff, Traced.only_bind_iff, Traced.only_touch_iff,
      Traced.only_touch_iff]
    simp only [fibPrefetchOffset] at early ⊢
    exact ⟨by omega, by omega, Traced.only_pure _⟩
  · apply Traced.only_foldlM
    intro i member search
    have late := (List.mem_range'_1.mp member).2
    rw [fibParseLate, Traced.only_bind_iff, Traced.only_touch_iff]
    exact ⟨by omega, Traced.only_pure _⟩

theorem fibVectorPackets_below (build : Build) (env : Env) (tables : FibTables)
    (search : FibSearch) (mbufs : MbufHeap) (vec : RteEventVector) (hops : Nat → BitVec 16) :
    (fibVectorPackets build env tables search mbufs vec hops).Only (· < vec.nbElem) := by
  rw [fibVectorPackets, Traced.only_bind_iff, Traced.only_bind_iff]
  refine ⟨fibParsePackets_below mbufs vec.mbufs search vec.nbElem, ?_, ?_⟩
  · apply Traced.only_foldlM
    intro i member result
    rw [fibAssignHop]
    split
    · exact (Traced.only_bind_iff _ _).mpr
        ⟨(Traced.only_touch_iff i).mpr (List.mem_range.mp member), Traced.only_pure _⟩
    · exact Traced.only_pure _
  · cases build with
    | simd =>
        exact (Traced.only_bind_iff _ _).mpr
          ⟨PktReads.processx4Step3_below env vec.mbufs _,
            fibProcessPackets_below .simd rest_below _⟩
    | generic =>
        exact fibProcessPackets_below .generic (fun i member => List.mem_range.mp member) _

theorem l3fwdEmProcessPackets_below (env : Env) (tables : EmTables) (mbufs : MbufHeap)
    (nbRx : Nat) (pktsBurst : Nat → MbufPtr) (dstPort : Nat → BitVec 16) (portid : BitVec 16) :
    (l3fwdEmProcessPackets env tables mbufs nbRx pktsBurst dstPort portid).Only (· < nbRx) := by
  rw [l3fwdEmProcessPackets, Traced.only_bind_iff, Traced.only_bind_iff]
  refine ⟨?_, ?_, ?_⟩
  · intro slot member
    exact Nat.lt_of_lt_of_le (List.mem_range.mp member) (Nat.min_le_right _ _)
  · apply Traced.only_foldlM
    intro group member packets
    have isGroup := List.mem_range.mp member
    have inGroup : ∀ slot ∈ List.range' (group * emHashLookupCount) emHashLookupCount,
        slot < nbRx := by
      intro slot slotMember
      have inside := List.mem_range'_1.mp slotMember
      simp only [emHashLookupCount] at isGroup inside
      omega
    have ahead : ∀ slot ∈ List.range' (group * emHashLookupCount + emHashLookupCount)
        (min emHashLookupCount (nbRx - (group * emHashLookupCount + emHashLookupCount))),
        slot < nbRx := by
      intro slot slotMember
      have inside := List.mem_range'_1.mp slotMember
      omega
    simp only [emProcessGroup, Traced.only_bind_iff, Traced.only_touchAll_iff]
    exact ⟨inGroup, ahead, inGroup, inGroup, Traced.only_pure _⟩
  · apply Traced.only_foldlM
    intro j member packets
    have inside := rest_below j member
    rw [emProcessTail, Traced.only_bind_iff, Traced.only_touchAll_iff]
    simp only [List.forall_mem_cons]
    exact ⟨⟨inside, inside, List.forall_mem_nil _⟩, Traced.only_pure _⟩

theorem emVectorPackets_below (env : Env) (tables : EmTables) (mbufs : MbufHeap)
    (vec : RteEventVector) (dstPort : Nat → BitVec 16) :
    (emVectorPackets env tables mbufs vec dstPort).Only (· < vec.nbElem) := by
  rw [emVectorPackets]
  split
  · exact l3fwdEmProcessPackets_below env tables mbufs vec.nbElem vec.mbufs dstPort vec.port
  · apply Traced.only_foldlM
    intro i member packets
    have inside := List.mem_range.mp member
    have one := l3fwdEmProcessPackets_below env tables packets.1 1 (fun k => vec.mbufs (i + k))
      (fun k => packets.2 (i + k)) (packets.1 (vec.mbufs i)).port
    rw [emProcessVectorElem, Traced.only_bind_iff, Traced.only_bind_iff, Traced.only_relabel_iff]
    refine ⟨(Traced.only_touch_iff i).mpr inside, ?_, Traced.only_pure _⟩
    intro k kMember
    have atFirst := one k kMember
    dsimp only at atFirst ⊢
    omega

/-- Nothing but the first prefetch can be outside. -/
theorem Sequential.emVectorPackets_below_iff (env : Env) (tables : EmTables) (mbufs : MbufHeap)
    (vec : RteEventVector) (dstPorts : Nat → BitVec 16) :
    (Sequential.emVectorPackets env tables mbufs vec dstPorts).Only (· < vec.nbElem) ↔
      1 ≤ vec.nbElem := by
  have lookups : ∀ slot ∈ (List.range vec.nbElem).flatMap fun i =>
      if i + 1 < vec.nbElem then [i + 1, i] else [i], slot < vec.nbElem := by
    intro slot member
    rcases List.mem_flatMap.mp member with ⟨i, isRound, isSlot⟩
    have inside := List.mem_range.mp isRound
    split at isSlot
    · simp only [List.mem_cons, List.not_mem_nil, or_false] at isSlot
      omega
    · rw [List.mem_singleton] at isSlot
      omega
  simp only [Sequential.emVectorPackets, Traced.only_bind_iff, Traced.only_touch_iff,
    Traced.only_touchAll_iff]
  exact and_iff_left ⟨lookups, PktReads.processx4Step3_below env vec.mbufs _,
    fibProcessPackets_below .simd rest_below _⟩

/-! ## Every packet is touched -/

/-- Slot `slot` is in a whole group or behind the groups. -/
theorem group_or_rest {size count slot : Nat} (positive : 0 < size) (inside : slot < count) :
    (∃ group ∈ List.range (count / size), slot ∈ List.range' (group * size) size) ∨
      slot ∈ List.range' (count / size * size) (count - count / size * size) := by
  have split := Nat.div_add_mod' slot size
  have remainder := Nat.mod_lt slot positive
  rcases Nat.lt_or_ge slot (count / size * size) with early | late
  · refine Or.inl ⟨slot / size, List.mem_range.mpr ?_, List.mem_range'_1.mpr ?_⟩
    · exact Nat.div_lt_of_lt_mul (by rwa [Nat.mul_comm])
    · omega
  · exact Or.inr (List.mem_range'_1.mpr ⟨late, by omega⟩)

/-- A pass over the groups and the rest touches every packet. -/
theorem touched_of_passes {σ : Type} {groupStep restStep : σ → Nat → Traced Nat σ}
    {size count slot : Nat} (positive : 0 < size) (inside : slot < count)
    (groups : ∀ group, slot ∈ List.range' (group * size) size →
      ∀ state, slot ∈ (groupStep state group).touched)
    (rest : ∀ state, slot ∈ (restStep state slot).touched) (start : σ) :
    slot ∈ (((List.range (count / size)).foldlM groupStep start) >>=
      (List.range' (count / size * size) (count - count / size * size)).foldlM
        restStep).touched := by
  rw [Traced.touched_bind, List.mem_append]
  rcases group_or_rest positive inside with ⟨group, member, inGroup⟩ | inRest
  · exact Or.inl (Traced.touched_foldlM_of_mem member (groups group inGroup) start)
  · exact Or.inr (Traced.touched_foldlM_of_mem inRest rest _)

theorem mem_readFour {slot j : Nat} (member : slot ∈ List.range' j fwdStep) :
    slot ∈ (PktReads.readFour j).touched := by
  have inside := List.mem_range'_1.mp member
  simp only [fwdStep] at inside
  simp only [PktReads.readFour, Traced.touched_touchAll, List.mem_cons, List.not_mem_nil, or_false]
  omega

section Touched

variable (env : Env) (mbufs : MbufHeap) (vec : RteEventVector) {slot : Nat}
  (inside : slot < vec.nbElem)

include inside

theorem lpmVectorPackets_touched (build : Build) (tables : LpmTables) (dstPort : Nat → BitVec 16) :
    slot ∈ (lpmVectorPackets build env tables mbufs vec dstPort).touched := by
  have member := List.mem_range.mpr inside
  cases build with
  | simd =>
      rw [lpmVectorPackets]
      split
      · rw [PktReads.l3fwdLpmProcessPackets]
        simp only [if_true, Traced.touched_bind, List.mem_append]
        refine Or.inr (Or.inr ?_)
        have positive : 0 < fwdStep := by decide
        rcases group_or_rest positive inside with ⟨group, isGroup, inGroup⟩ | inRest
        · refine Or.inl (Traced.touched_foldlM_of_mem isGroup (fun packets => ?_) _)
          rw [PktReads.processx4Step3, Traced.touched_bind, List.mem_append]
          exact Or.inl (mem_readFour inGroup)
        · have whole := Nat.div_add_mod' vec.nbElem fwdStep
          have length : vec.nbElem - vec.nbElem / fwdStep * fwdStep = vec.nbElem % fwdStep := by
            omega
          rw [length] at inRest
          exact Or.inr (Or.inl inRest)
      · apply Traced.touched_foldlM_of_mem member
        intro packets
        exact List.mem_cons_self
  | generic =>
      apply Traced.touched_foldlM_of_mem member
      intro packets
      exact List.mem_cons_self

theorem fibVectorPackets_touched (build : Build) (tables : FibTables) (search : FibSearch)
    (hops : Nat → BitVec 16) :
    slot ∈ (fibVectorPackets build env tables search mbufs vec hops).touched := by
  rw [fibVectorPackets, Traced.touched_bind, List.mem_append, Traced.touched_bind,
    List.mem_append]
  refine Or.inr (Or.inr ?_)
  cases build with
  | simd =>
      have positive : 0 < fwdStep := by decide
      apply touched_of_passes positive inside
      · intro group inGroup packets
        rw [PktReads.processx4Step3, Traced.touched_bind, List.mem_append]
        exact Or.inl (mem_readFour inGroup)
      · exact fun packets => List.mem_cons_self
  | generic =>
      apply Traced.touched_foldlM_of_mem (List.mem_range.mpr inside)
      exact fun packets => List.mem_cons_self

theorem emVectorPackets_touched (tables : EmTables) (dstPort : Nat → BitVec 16) :
    slot ∈ (emVectorPackets env tables mbufs vec dstPort).touched := by
  rw [emVectorPackets]
  split
  · rw [l3fwdEmProcessPackets, Traced.touched_bind, List.mem_append]
    refine Or.inr ?_
    have positive : 0 < emHashLookupCount := by decide
    apply touched_of_passes positive inside
    · intro group inGroup packets
      rw [emProcessGroup, Traced.touched_bind, List.mem_append]
      exact Or.inl inGroup
    · exact fun packets => List.mem_cons_self
  · apply Traced.touched_foldlM_of_mem (List.mem_range.mpr inside)
    exact fun packets => List.mem_cons_self

theorem Sequential.emVectorPackets_touched (tables : EmTables) (dstPorts : Nat → BitVec 16) :
    slot ∈ (Sequential.emVectorPackets env tables mbufs vec dstPorts).touched := by
  rw [Sequential.emVectorPackets, Traced.touched_bind, List.mem_append, Traced.touched_bind,
    List.mem_append]
  refine Or.inr (Or.inl (List.mem_flatMap.mpr ⟨slot, List.mem_range.mpr inside, ?_⟩))
  split
  · exact List.mem_cons_of_mem _ List.mem_cons_self
  · exact List.mem_cons_self

end Touched

/-! ## Packets outside the vector -/

/-- The packet of this name is as it was. -/
def Leaves (mbufs : MbufHeap) (name : MbufPtr) (packets : MbufHeap × (Nat → BitVec 16)) : Prop :=
  packets.1 name = mbufs name

theorem processx4Step3_leaves {mbufs : MbufHeap} {name : MbufPtr} (env : Env)
    {pkts : Nat → MbufPtr} {j : Nat} (apart : ∀ i, j ≤ i → i < j + fwdStep → pkts i ≠ name)
    {packets : MbufHeap × (Nat → BitVec 16)} (leaves : Leaves mbufs name packets) :
    Leaves mbufs name (processx4Step3 env pkts j packets) := by
  unfold Leaves processx4Step3
  dsimp only
  rw [cell_outside pkts _ fwdStep j _ apart, cell_outside pkts _ fwdStep j _ apart]
  exact leaves

/-- A group of eight is processed in two groups of four. -/
theorem emProcessGroup_eq (env : Env) (tables : EmTables) (pkts : Nat → MbufPtr)
    (portid : BitVec 16) (packets : MbufHeap × (Nat → BitVec 16)) (j : Nat) :
    L3fwd.emProcessGroup env tables pkts portid true packets j =
      processx4Step3 env pkts (j + fwdStep) (processx4Step3 env pkts j (packets.1,
        assign (fun i => emGroupPorts env tables packets.1 pkts portid j (i - j)) j
          emHashLookupCount packets.2)) := by
  have two : emHashLookupCount / fwdStep = 2 := by decide
  rw [L3fwd.emProcessGroup, two]
  simp only [if_true, forFours]

section Outside

variable (env : Env) {mbufs : MbufHeap} {name : MbufPtr} {pkts : Nat → MbufPtr} {count : Nat}
  (apart : ∀ i, i < count → pkts i ≠ name)

include apart

theorem fours_leaves {packets : MbufHeap × (Nat → BitVec 16)} (leaves : Leaves mbufs name packets) :
    Leaves mbufs name ((List.range (count / fwdStep)).foldlM
      (PktReads.processx4Step3 env pkts) packets).value := by
  apply Traced.value_foldlM_keeps leaves
  intro group member packets kept
  have isGroup := List.mem_range.mp member
  refine processx4Step3_leaves env ?_ kept
  intro i _ before
  apply apart
  simp only [fwdStep] at isGroup before
  omega

theorem l3fwdLpmProcessPackets_leaves (tables : LpmTables) (portid : BitVec 16)
    {heap : MbufHeap} (leaves : heap name = mbufs name) (dstPort : Nat → BitVec 16) :
    Leaves mbufs name
      (PktReads.l3fwdLpmProcessPackets env tables heap count pkts portid dstPort true).value := by
  have starts : ∀ ports, Leaves mbufs name (heap, ports) := fun _ => leaves
  rw [PktReads.l3fwdLpmProcessPackets]
  simp only [if_true, Traced.value_bind]
  apply Traced.value_foldlM_keeps
  · exact fours_leaves env apart (starts _)
  · intro j member packets kept
    have inside := (List.mem_range'_1.mp member).2
    rw [Nat.div_add_mod'] at inside
    exact (Function.update_of_ne (apart j inside).symm _ _).trans kept

theorem l3fwdEmProcessPackets_leaves (tables : EmTables) (portid : BitVec 16)
    {heap : MbufHeap} (leaves : heap name = mbufs name) (dstPort : Nat → BitVec 16) :
    Leaves mbufs name
      (l3fwdEmProcessPackets env tables heap count pkts dstPort portid).value := by
  have starts : Leaves mbufs name (heap, dstPort) := leaves
  rw [l3fwdEmProcessPackets]
  simp only [Traced.value_bind]
  apply Traced.value_foldlM_keeps
  · apply Traced.value_foldlM_keeps starts
    intro group member packets kept
    have isGroup := List.mem_range.mp member
    have inGroup : ∀ i, group * emHashLookupCount ≤ i →
        i < group * emHashLookupCount + emHashLookupCount → pkts i ≠ name := by
      intro i _ before
      apply apart
      simp only [emHashLookupCount] at isGroup before
      omega
    change Leaves mbufs name (L3fwd.emProcessGroup env tables pkts portid true packets
      (group * emHashLookupCount))
    rw [emProcessGroup_eq]
    have early := fun packets (kept : Leaves mbufs name packets) =>
      processx4Step3_leaves env (fun i after before => inGroup i after
        (Nat.lt_of_lt_of_le before (Nat.add_le_add_left (by decide) _))) kept
    refine processx4Step3_leaves env (fun i after before => ?_) (early _ kept)
    exact inGroup i (Nat.le_of_add_right_le after)
      (Nat.lt_of_lt_of_eq before (Nat.add_assoc _ _ _))
  · intro j member packets kept
    exact (Function.update_of_ne (apart j (rest_below j member)).symm _ _).trans kept

end Outside

section Vectors

variable (env : Env) {mbufs : MbufHeap} {name : MbufPtr} {vec : RteEventVector}
  (apart : ∀ i, i < vec.nbElem → vec.mbufs i ≠ name)

include apart

theorem lpmVectorPackets_leaves (build : Build) (tables : LpmTables) (dstPort : Nat → BitVec 16) :
    Leaves mbufs name (lpmVectorPackets build env tables mbufs vec dstPort).value := by
  have starts : Leaves mbufs name (mbufs, dstPort) := rfl
  cases build with
  | simd =>
      rw [lpmVectorPackets]
      split
      · exact l3fwdLpmProcessPackets_leaves env apart tables vec.port rfl dstPort
      · apply Traced.value_foldlM_keeps starts
        intro i member packets kept
        have one : ∀ j, j < 1 → vec.mbufs (i + j) ≠ name := by
          intro j inside
          have isFirst : j = 0 := by omega
          rw [isFirst]
          exact apart i (List.mem_range.mp member)
        exact l3fwdLpmProcessPackets_leaves env one tables _ kept (portsFrom packets.2 i)
  | generic =>
      apply Traced.value_foldlM_keeps starts
      intro i member packets kept
      have other := (apart i (List.mem_range.mp member)).symm
      change Function.update packets.1 (vec.mbufs i) _ name = mbufs name
      rw [Function.update_of_ne other]
      exact kept

theorem fibProcessPackets_leaves (build : Build) {items : List Nat}
    (inside : ∀ i ∈ items, i < vec.nbElem) {packets : MbufHeap × (Nat → BitVec 16)}
    (leaves : Leaves mbufs name packets) :
    Leaves mbufs name (items.foldlM (fibProcessPacket build env vec) packets).value := by
  apply Traced.value_foldlM_keeps leaves
  intro i member packets kept
  exact (Function.update_of_ne (apart i (inside i member)).symm _ _).trans kept

theorem fibVectorPackets_leaves (build : Build) (tables : FibTables) (search : FibSearch)
    (hops : Nat → BitVec 16) :
    Leaves mbufs name (fibVectorPackets build env tables search mbufs vec hops).value := by
  have starts : ∀ ports, Leaves mbufs name (mbufs, ports) := fun _ => rfl
  rw [fibVectorPackets, Traced.value_bind, Traced.value_bind]
  cases build with
  | simd =>
      exact fibProcessPackets_leaves env apart .simd rest_below
        (fours_leaves env apart (starts _))
  | generic =>
      exact fibProcessPackets_leaves env apart .generic
        (fun i member => List.mem_range.mp member) (starts _)

theorem emVectorPackets_leaves (tables : EmTables) (dstPort : Nat → BitVec 16) :
    Leaves mbufs name (emVectorPackets env tables mbufs vec dstPort).value := by
  have starts : Leaves mbufs name (mbufs, dstPort) := rfl
  rw [emVectorPackets]
  split
  · exact l3fwdEmProcessPackets_leaves env apart tables vec.port rfl dstPort
  · apply Traced.value_foldlM_keeps starts
    intro i member packets kept
    have one : ∀ j, j < 1 → vec.mbufs (i + j) ≠ name := by
      intro j inside
      have isFirst : j = 0 := by omega
      rw [isFirst]
      exact apart i (List.mem_range.mp member)
    exact l3fwdEmProcessPackets_leaves env one tables (packets.1 (vec.mbufs i)).port kept
      fun k => packets.2 (i + k)

theorem Sequential.emVectorPackets_leaves (tables : EmTables) (dstPorts : Nat → BitVec 16) :
    Leaves mbufs name (Sequential.emVectorPackets env tables mbufs vec dstPorts).value := by
  have starts : ∀ ports, Leaves mbufs name (mbufs, ports) := fun _ => rfl
  rw [Sequential.emVectorPackets, Traced.value_bind, Traced.value_bind]
  exact fibProcessPackets_leaves env apart .simd rest_below (fours_leaves env apart (starts _))

end Vectors

end SlotReads

end PacketForwarding.L3fwd
