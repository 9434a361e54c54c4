import PacketForwarding.Foundation.Traced
import PacketForwarding.L3fwd.EventVector
import PacketForwarding.L3fwd.FibLookup
import PacketForwarding.L3fwd.LpmPaths

/-! # Which addresses the forwarding information base path reads

Without vector instructions, a packet is checked first and then gets the addresses of its
hop, which the checks may just have made a bad port. The functions that process packets in
this way are run with a trace of the entries they read.
-/

namespace PacketForwarding.L3fwd

open Lanes Cells

/-! ## Event vectors -/

/-- The port of a packet whose next hop is the default: that of the vector, if it has one. -/
def RteEventVector.defaultHop (vec : RteEventVector) (mbufs : MbufHeap) (i : Nat) : BitVec 16 :=
  if vec.attrValid then vec.port else (mbufs (vec.mbufs i)).port

/-- The ports looked up for the packets of a vector. -/
def fibVectorHops (tables : FibTables) (search : FibSearch) (mbufs : MbufHeap)
    (vec : RteEventVector) (hops : Nat → BitVec 16) : Nat → BitVec 16 :=
  let search := (fibParsePackets mbufs vec.mbufs search vec.nbElem).lookup tables
  ((List.range vec.nbElem).foldl (fun result i =>
    fibAssignHop search (vec.defaultHop mbufs i) result i) (⟨0, 0⟩, hops)).2

/-- What the arrays hold before is an argument. -/
def fibProcessEventVector (build : Build) (env : Env) (tables : FibTables) (search : FibSearch)
    (mbufs : MbufHeap) (vec : RteEventVector) (hops : Nat → BitVec 16) : VectorState :=
  let hops := fibVectorHops tables search mbufs vec hops
  let packets := match build with
    | .simd =>
        let fours := vec.nbElem / fwdStep
        let packets := forFours (processx4Step3 env vec.mbufs) fours 0 (mbufs, hops)
        visit vec.mbufs (processPacket env) (vec.nbElem - fours * fwdStep) (fours * fwdStep)
          packets
    | .generic =>
        (List.range vec.nbElem).foldl (fun packets i =>
          visitOne vec.mbufs (fibProcessPacket .generic env) i packets) (mbufs, hops)
  processEventVector packets.1 vec packets.2

/-! ## The functions with their traces -/

/-- An entry of the arrays of addresses that is read. -/
inductive EthRead
  | destEthAddr (index : Nat)
  | portsEthAddr (index : Nat)

namespace EthRead

/-- Both arrays have `rteMaxEthports` entries. -/
def Inside : EthRead → Prop
  | destEthAddr index => index < rteMaxEthports
  | portsEthAddr index => index < rteMaxEthports

instance : DecidablePred Inside
  | destEthAddr index => inferInstanceAs (Decidable (index < rteMaxEthports))
  | portsEthAddr index => inferInstanceAs (Decidable (index < rteMaxEthports))

def processPacket (env : Env) (pkt : RteMbuf) (hop : BitVec 16) :
    Traced EthRead (RteMbuf × BitVec 16) := do
  let (data, hop) := rfc1812Process pkt.data hop pkt.packetType
  Traced.touch (destEthAddr hop.toNat)
  Traced.touch (portsEthAddr hop.toNat)
  return ({ pkt with data := setEthAddrs env data hop }, hop)

/-- `process_packet(pkts[j], &hops[j])` in a loop. -/
def processRound (env : Env) (pkts : Nat → MbufPtr) (packets : MbufHeap × (Nat → BitVec 16))
    (j : Nat) : Traced EthRead (MbufHeap × (Nat → BitVec 16)) := do
  let (pkt, hop) ← processPacket env (packets.1 (pkts j)) (packets.2 j)
  return (Function.update packets.1 (pkts j) pkt, Function.update packets.2 j hop)

/-- What `fib_send_single` reads. Sending a packet reads no addresses. -/
def fibSendSingle (env : Env) (mbufs : MbufHeap) (pkts : Nat → MbufPtr) (hops : Nat → BitVec 16)
    (nbTx : Nat) : Traced EthRead (MbufHeap × (Nat → BitVec 16)) :=
  (List.range nbTx).foldlM (processRound env pkts) (mbufs, hops)

def fibForwardPkt (env : Env) (pkt : RteMbuf) (nh : BitVec 16) : Traced EthRead RteMbuf := do
  let hop := if nh ≠ fibDefaultHop then nh else pkt.port
  let (pkt, hop) ← processPacket env pkt hop
  return { pkt with port := if hop ≠ badPort then hop else pkt.port }

def fibAssignEvent (env : Env) (search : FibSearch) (taken : Nat → MbufPtr)
    (state : FibAssem × MbufHeap) (i : Nat) : Traced EthRead (FibAssem × MbufHeap) := do
  let (nh, assem) := state.1.next search i
  let pkt ← fibForwardPkt env (state.2 (taken i)) nh
  return (assem, Function.update state.2 (taken i) pkt)

/-- The burst of `fib_event_loop`. -/
def fibProcessBurst (env : Env) (tables : FibTables) (txMode : TxMode) (search : FibSearch)
    (mbufs : MbufHeap) (taken : Nat → MbufPtr) (nbDeq : Nat) : Traced EthRead MbufHeap := do
  let (mbufs, search) := fibParseEvents txMode mbufs taken search nbDeq
  let search := search.lookup tables
  let (_, mbufs) ← (List.range' 0 nbDeq).foldlM (fibAssignEvent env search taken) (⟨0, 0⟩, mbufs)
  return mbufs

def fibProcessEventVector (env : Env) (tables : FibTables) (search : FibSearch)
    (mbufs : MbufHeap) (vec : RteEventVector) (hops : Nat → BitVec 16) :
    Traced EthRead VectorState := do
  let hops := fibVectorHops tables search mbufs vec hops
  let packets ← (List.range vec.nbElem).foldlM (processRound env vec.mbufs) (mbufs, hops)
  return processEventVector packets.1 vec packets.2

/-! ## Without the traces -/

theorem fibProcessBurst_value (env : Env) (tables : FibTables) (txMode : TxMode)
    (search : FibSearch) (mbufs : MbufHeap) (taken : Nat → MbufPtr) (nbDeq : Nat) :
    (fibProcessBurst env tables txMode search mbufs taken nbDeq).value =
      L3fwd.fibProcessBurst .generic env tables txMode search mbufs taken nbDeq := by
  rw [fibProcessBurst, L3fwd.fibProcessBurst]
  dsimp only
  rw [Traced.value_bind, Traced.value_foldlM]
  rfl

theorem fibProcessEventVector_value (env : Env) (tables : FibTables) (search : FibSearch)
    (mbufs : MbufHeap) (vec : RteEventVector) (hops : Nat → BitVec 16) :
    (fibProcessEventVector env tables search mbufs vec hops).value =
      L3fwd.fibProcessEventVector .generic env tables search mbufs vec hops := by
  rw [fibProcessEventVector, L3fwd.fibProcessEventVector]
  rw [Traced.value_bind, Traced.value_foldlM]
  rfl

/-- Sending leaves to the next round what `processRound` leaves. -/
theorem processRound_value (env : Env) (pkts : Nat → MbufPtr)
    (result : LcoreState × (Nat → BitVec 16)) (j : Nat) :
    Outcome (fun next => (next.1.mbufs, next.2) =
        (processRound env pkts (result.1.mbufs, result.2) j).value) True
      (L3fwd.fibSendSingle env pkts result j) := by
  rcases result with ⟨state, hops⟩
  rw [L3fwd.fibSendSingle]
  dsimp only
  split
  · rfl
  · apply (sendSinglePacket_mbufs env _ _ _).bind
    rintro ⟨next, sent⟩ same
    exact Prod.ext same rfl

/-- However many rounds return, they leave the packets and the hops as the trace has them. -/
theorem fibSendSingle_value (env : Env) (pkts : Nat → MbufPtr) :
    ∀ (rounds : List Nat) (result : LcoreState × (Nat → BitVec 16)),
      Outcome (fun last => (last.1.mbufs, last.2) =
          (rounds.foldlM (processRound env pkts) (result.1.mbufs, result.2)).value) True
        (rounds.foldlM (L3fwd.fibSendSingle env pkts) result) := by
  intro rounds
  induction rounds with
  | nil => exact fun _ => rfl
  | cons j rounds induction =>
      intro result
      rw [List.foldlM_cons, List.foldlM_cons, Traced.value_bind]
      apply (processRound_value env pkts result j).bind
      intro next processed
      rw [← processed]
      exact induction next

/-! ## Which entries are read -/

/-- Of a packet with a valid hop, the entries that are read exist if and only if it passes
the checks. -/
theorem processPacket_inside_iff (env : Env) (pkt : RteMbuf) {hop : BitVec 16}
    (valid : hop.toNat < rteMaxEthports) :
    (processPacket env pkt hop).Only Inside ↔ ¬ pkt.Bad := by
  have port : (rfc1812Process pkt.data hop pkt.packetType).2 = pkt.checkedPort hop :=
    rfc1812Process_port pkt.data hop pkt.packetType
  have reads : (processPacket env pkt hop).Only Inside ↔
      (pkt.checkedPort hop).toNat < rteMaxEthports := by
    rw [processPacket, ← port]
    simp [Inside]
  rw [reads, RteMbuf.checkedPort]
  split
  · rename_i bad
    exact iff_of_false (by decide) (not_not_intro bad)
  · rename_i good
    exact iff_of_true valid good

theorem sameVerdict_fibProcessPacket (env : Env) (pkt : RteMbuf) (hop : BitVec 16) :
    SameVerdict pkt (processPacket env pkt hop).value.1 := by
  have checked := sameVerdict_rfc1812 pkt hop
  exact checked.trans _ _ _ (sameVerdict_setEthAddrs env _ _)

/-- Before the remaining rounds: their hops are valid, and the checks find of every packet
what they found at the start. -/
structure RoundsAhead (mbufs : MbufHeap) (rounds : List Nat)
    (packets : MbufHeap × (Nat → BitVec 16)) : Prop where
  nodup : rounds.Nodup
  valid : ∀ j ∈ rounds, (packets.2 j).toNat < rteMaxEthports
  verdict : ∀ name, SameVerdict (mbufs name) (packets.1 name)

namespace RoundsAhead

variable {env : Env} {mbufs : MbufHeap} {pkts : Nat → MbufPtr} {j : Nat} {rest : List Nat}
  {packets : MbufHeap × (Nat → BitVec 16)}

theorem next (ahead : RoundsAhead mbufs (j :: rest) packets) :
    RoundsAhead mbufs rest (processRound env pkts packets j).value := by
  rcases List.nodup_cons.mp ahead.nodup with ⟨once, nodup⟩
  refine ⟨nodup, ?_, ?_⟩
  · intro i member
    have apart : i ≠ j := fun same => once (same ▸ member)
    change (Function.update packets.2 j _ i).toNat < rteMaxEthports
    rw [Function.update_of_ne apart]
    exact ahead.valid i (List.mem_cons_of_mem j member)
  · intro name
    change SameVerdict (mbufs name) (Function.update packets.1 (pkts j) _ name)
    by_cases here : name = pkts j
    · subst here
      rw [Function.update_self]
      exact (ahead.verdict _).trans _ _ _ (sameVerdict_fibProcessPacket env _ _)
    · rw [Function.update_of_ne here]
      exact ahead.verdict name

theorem inside_iff (ahead : RoundsAhead mbufs (j :: rest) packets) :
    (processRound env pkts packets j).Only Inside ↔ ¬ (mbufs (pkts j)).Bad := by
  have inside := processPacket_inside_iff env (packets.1 (pkts j))
    (ahead.valid j List.mem_cons_self)
  rw [processRound, Traced.only_bind_iff, inside, (ahead.verdict (pkts j)).bad_iff]
  exact and_iff_left (Traced.only_pure _)

end RoundsAhead

theorem processRounds_inside_iff (env : Env) (mbufs : MbufHeap) (pkts : Nat → MbufPtr)
    (hops : Nat → BitVec 16) (num : Nat)
    (valid : ∀ i, i < num → (hops i).toNat < rteMaxEthports) :
    ((List.range num).foldlM (processRound env pkts) (mbufs, hops)).Only Inside ↔
      ∀ i, i < num → ¬ (mbufs (pkts i)).Bad := by
  have starts : RoundsAhead mbufs (List.range num) (mbufs, hops) :=
    ⟨List.nodup_range, fun i member => valid i (List.mem_range.mp member),
      fun name => SameVerdict.refl (mbufs name)⟩
  have rounds := @Traced.only_foldlM_iff _ _ _ Inside (processRound env pkts)
    (fun j => ¬ (mbufs (pkts j)).Bad) (RoundsAhead mbufs) (fun _ _ _ ahead => ahead.next)
    (fun _ _ _ ahead => ahead.inside_iff) (List.range num) (mbufs, hops) starts
  rw [rounds]
  simp only [List.mem_range]

/-! ## Events -/

theorem fibHop_valid {nh : BitVec 16} (found : FibHopExists nh) {port : BitVec 16}
    (valid : port.toNat < rteMaxEthports) :
    (if nh ≠ fibDefaultHop then nh else port).toNat < rteMaxEthports := by
  split
  · rename_i notDefault
    exact found.resolve_left notDefault
  · exact valid

section Forward

variable (env : Env) {pkt : RteMbuf} {nh : BitVec 16} (found : FibHopExists nh)
  (valid : pkt.port.toNat < rteMaxEthports)

include found valid

theorem fibForwardPkt_inside_iff : (fibForwardPkt env pkt nh).Only Inside ↔ ¬ pkt.Bad := by
  rw [fibForwardPkt, Traced.only_bind_iff,
    processPacket_inside_iff env pkt (fibHop_valid found valid)]
  exact and_iff_left (Traced.only_pure _)

theorem fibForwardPkt_port :
    (fibForwardPkt env pkt nh).value.port.toNat < rteMaxEthports := by
  have hopValid := fibHop_valid found valid
  change (if (fibProcessPacket .generic env pkt (if nh ≠ fibDefaultHop then nh else pkt.port)).2 ≠
      badPort then
    (fibProcessPacket .generic env pkt (if nh ≠ fibDefaultHop then nh else pkt.port)).2
  else
    pkt.port).toNat < rteMaxEthports
  generalize (if nh ≠ fibDefaultHop then nh else pkt.port) = hop at hopValid ⊢
  rw [fibProcessPacket_port]
  by_cases bad : pkt.Bad
  · rw [RteMbuf.checkedPort, if_pos bad]
    exact valid
  · rw [RteMbuf.checkedPort, if_neg bad, if_pos (ne_badPort_of_valid hopValid)]
    exact hopValid

end Forward

theorem sameVerdict_fibForwardPkt (env : Env) (pkt : RteMbuf) (nh : BitVec 16) :
    SameVerdict pkt (fibForwardPkt env pkt nh).value := by
  have processed := sameVerdict_fibProcessPacket env pkt
    (if nh ≠ fibDefaultHop then nh else pkt.port)
  exact ⟨processed.packetType, processed.versionIhl, processed.totalLength⟩

/-- Before the remaining rounds: as many next hops have been assigned as there were rounds,
the ports of the packets are valid, and the checks find what they found at the start. -/
structure EventsAhead (mbufs : MbufHeap) (taken : Nat → MbufPtr) (num : Nat)
    (rounds : List Nat) (state : FibAssem × MbufHeap) : Prop where
  position : ∃ first count, first + count = num ∧ rounds = List.range' first count ∧
    state.1 = fibPlace (fun i => mbufs (taken i)) first
  ports : ∀ i, i < num → (state.2 (taken i)).port.toNat < rteMaxEthports
  verdict : ∀ name, SameVerdict (mbufs name) (state.2 name)

namespace EventsAhead

variable {env : Env} {mbufs : MbufHeap} {taken : Nat → MbufPtr} {num i : Nat}
  {rest : List Nat} {state : FibAssem × MbufHeap}

/-- The round takes the next hop that was found for its packet. -/
theorem step (tables : FibTables) (search : FibSearch)
    (ahead : EventsAhead mbufs taken num (i :: rest) state) :
    let looked := (fibParsePackets mbufs taken search num).lookup tables
    i < num ∧ state.1.next looked i = (fibNextHop tables mbufs taken search num i,
        fibPlace (fun i => mbufs (taken i)) (i + 1)) ∧
      ∃ count, i + 1 + count = num ∧ rest = List.range' (i + 1) count := by
  intro looked
  rcases ahead.position with ⟨first, count, total, isRange, place⟩
  cases count with
  | zero => cases isRange
  | succ count =>
      rw [List.range'_succ] at isRange
      cases isRange
      have inside : i < num := by omega
      refine ⟨inside, ?_, count, by omega, rfl⟩
      rw [place]
      exact fibPlace_next tables mbufs taken search inside

variable {tables : FibTables} (exist : tables.PortsExist) (search : FibSearch)

include exist

theorem next (ahead : EventsAhead mbufs taken num (i :: rest) state) :
    EventsAhead mbufs taken num rest
      (fibAssignEvent env ((fibParsePackets mbufs taken search num).lookup tables) taken
        state i).value := by
  rcases ahead.step tables search with ⟨inside, found, count, total, isRest⟩
  have hop := fibNextHop_exists exist mbufs taken search inside
  rw [fibAssignEvent, found]
  refine ⟨⟨i + 1, count, total, isRest, rfl⟩, ?_, ?_⟩
  · intro other otherInside
    change (Function.update state.2 (taken i) _ (taken other)).port.toNat < rteMaxEthports
    by_cases here : taken other = taken i
    · rw [here, Function.update_self]
      exact fibForwardPkt_port env hop (ahead.ports i inside)
    · rw [Function.update_of_ne here]
      exact ahead.ports other otherInside
  · intro name
    change SameVerdict (mbufs name) (Function.update state.2 (taken i) _ name)
    by_cases here : name = taken i
    · subst here
      rw [Function.update_self]
      exact (ahead.verdict _).trans _ _ _ (sameVerdict_fibForwardPkt env _ _)
    · rw [Function.update_of_ne here]
      exact ahead.verdict name

theorem inside_iff (ahead : EventsAhead mbufs taken num (i :: rest) state) :
    (fibAssignEvent env ((fibParsePackets mbufs taken search num).lookup tables) taken
        state i).Only Inside ↔ ¬ (mbufs (taken i)).Bad := by
  rcases ahead.step tables search with ⟨inside, found, -⟩
  have hop := fibNextHop_exists exist mbufs taken search inside
  rw [fibAssignEvent, found, Traced.only_bind_iff,
    fibForwardPkt_inside_iff env hop (ahead.ports i inside), (ahead.verdict (taken i)).bad_iff]
  exact and_iff_left (Traced.only_pure _)

end EventsAhead

theorem fibProcessBurst_inside_iff (env : Env) {tables : FibTables} (exist : tables.PortsExist)
    (txMode : TxMode) (search : FibSearch) (mbufs : MbufHeap) (taken : Nat → MbufPtr) (num : Nat)
    (ports : ∀ i, i < num → (mbufs (taken i)).port.toNat < rteMaxEthports) :
    (fibProcessBurst env tables txMode search mbufs taken num).Only Inside ↔
      ∀ i, i < num → ¬ (mbufs (taken i)).Bad := by
  rcases fibParseEvents_eq txMode mbufs taken search num with ⟨marked, isParsed⟩
  have starts : EventsAhead mbufs taken num (List.range' 0 num)
      (⟨0, 0⟩, (fibParseEvents txMode mbufs taken search num).1) := by
    refine ⟨⟨0, num, Nat.zero_add num, rfl, (fibPlace_zero _).symm⟩, ?_, ?_⟩
    · intro i inside
      rcases marked (taken i) with ⟨txq, isMarked⟩
      dsimp only
      rw [isMarked]
      exact ports i inside
    · intro name
      rcases marked name with ⟨txq, isMarked⟩
      dsimp only
      rw [isMarked]
      exact ⟨rfl, rfl, rfl⟩
  have rounds := @Traced.only_foldlM_iff _ _ _ Inside
    (fibAssignEvent env ((fibParsePackets mbufs taken search num).lookup tables) taken)
    (fun i => ¬ (mbufs (taken i)).Bad) (EventsAhead mbufs taken num)
    (fun _ _ _ ahead => ahead.next exist search)
    (fun _ _ _ ahead => ahead.inside_iff exist search) (List.range' 0 num) _ starts
  rw [fibProcessBurst]
  dsimp only
  rw [isParsed, Traced.only_bind_iff, rounds, ← List.range_eq_range']
  simp only [List.mem_range]
  exact and_iff_left (Traced.only_pure _)

/-! ## Vectors -/

theorem fibVectorHops_valid {tables : FibTables} (exist : tables.PortsExist) (search : FibSearch)
    (mbufs : MbufHeap) (vec : RteEventVector) (hops : Nat → BitVec 16)
    (ports : ∀ i, i < vec.nbElem → (vec.defaultHop mbufs i).toNat < rteMaxEthports) :
    ∀ i, i < vec.nbElem →
      (fibVectorHops tables search mbufs vec hops i).toNat < rteMaxEthports := by
  intro i inside
  have hop := fibAssignHops_eq tables mbufs search vec.nbElem vec.mbufs (vec.defaultHop mbufs)
    hops inside
  rw [fibVectorHops, hop]
  exact fibHop_valid (fibNextHop_exists exist mbufs vec.mbufs search inside) (ports i inside)

end EthRead

/-- In each of the three functions, with valid hops the entries that are read exist if and
only if every packet passes the checks. -/
theorem fibEthReads_inside_iff (env : Env) (mbufs : MbufHeap) :
    (∀ pkts hops nbTx, (∀ i, i < nbTx → (hops i).toNat < rteMaxEthports) →
      ((EthRead.fibSendSingle env mbufs pkts hops nbTx).Only EthRead.Inside ↔
        ∀ i, i < nbTx → ¬ (mbufs (pkts i)).Bad)) ∧
    ∀ tables : FibTables, tables.PortsExist → ∀ search,
      (∀ txMode taken nbDeq, (∀ i, i < nbDeq → (mbufs (taken i)).port.toNat < rteMaxEthports) →
        ((EthRead.fibProcessBurst env tables txMode search mbufs taken nbDeq).Only EthRead.Inside ↔
          ∀ i, i < nbDeq → ¬ (mbufs (taken i)).Bad)) ∧
      ∀ vec hops, (∀ i, i < vec.nbElem → (vec.defaultHop mbufs i).toNat < rteMaxEthports) →
        ((EthRead.fibProcessEventVector env tables search mbufs vec hops).Only EthRead.Inside ↔
          ∀ i, i < vec.nbElem → ¬ (mbufs (vec.mbufs i)).Bad) := by
  refine ⟨?_, fun tables exist search => ⟨?_, ?_⟩⟩
  · intro pkts hops nbTx valid
    exact EthRead.processRounds_inside_iff env mbufs pkts hops nbTx valid
  · intro txMode taken nbDeq ports
    exact EthRead.fibProcessBurst_inside_iff env exist txMode search mbufs taken nbDeq ports
  · intro vec hops ports
    have valid := EthRead.fibVectorHops_valid exist search mbufs vec hops ports
    rw [EthRead.fibProcessEventVector, Traced.only_bind_iff,
      EthRead.processRounds_inside_iff env mbufs vec.mbufs _ vec.nbElem valid]
    exact and_iff_left (Traced.only_pure _)

/-- A packet that is not IPv4 is sent to port 3. -/
theorem fibEthReads_inside_iff_other :
    (EthRead.fibSendSingle default (fun _ => default) id (fun _ => 3#16) 1).Only
      EthRead.Inside := by
  rcases fibEthReads_inside_iff default (fun _ => default) with ⟨single, _⟩
  refine (single id (fun _ => 3#16) 1 (fun _ _ => by decide)).mpr ?_
  intro i _
  decide

/-- For a packet with a bad header, the entries at the bad port are read. -/
theorem fibEthReads_bad :
    let mbufs : MbufHeap := fun _ => { (default : RteMbuf) with packetType := rtePtypeL3Ipv4 }
    EthRead.destEthAddr 0xffff ∈
        (EthRead.fibSendSingle default mbufs id (fun _ => 3#16) 1).touched ∧
      ¬ (EthRead.fibSendSingle default mbufs id (fun _ => 3#16) 1).Only EthRead.Inside := by
  intro mbufs
  have isBad : rfc1812Bad (mbufs 0).data (mbufs 0).packetType := by decide
  have port := rfc1812Process_port (mbufs 0).data 3#16 (mbufs 0).packetType
  rw [if_pos isBad] at port
  have read : EthRead.destEthAddr 0xffff ∈
      (EthRead.fibSendSingle default mbufs id (fun _ => 3#16) 1).touched := by
    change _ ∈ [EthRead.destEthAddr (rfc1812Process (mbufs 0).data 3#16 (mbufs 0).packetType).2.toNat,
      .portsEthAddr (rfc1812Process (mbufs 0).data 3#16 (mbufs 0).packetType).2.toNat]
    rw [port]
    exact List.mem_cons_self
  refine ⟨read, ?_⟩
  intro inside
  exact absurd (inside _ read) (by decide)

end PacketForwarding.L3fwd
