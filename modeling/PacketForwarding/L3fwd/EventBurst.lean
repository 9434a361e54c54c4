import PacketForwarding.L3fwd.EmEvents
import PacketForwarding.L3fwd.Fib

/-! # The event loops that take bursts of events

A worker processes all events of a dequeue and then enqueues all of them, again and
again until every one is accepted. Nothing between the two looks at the outcome of the
RFC1812 checks.
-/

namespace PacketForwarding.L3fwd

open Lanes Cells

/-! ## Bursts and workers -/

/-- The events of a dequeue with their packets, how many the first enqueue accepts, and
how many each further one, up to where shutdown ends the retries. -/
structure EventBurst where
  events : List (RteEvent × RteMbuf)
  accepted : Nat
  retried : List Nat

namespace EventBurst

def eventArr (burst : EventBurst) : List RteEvent := burst.events.map Prod.fst

/-- The packets are in the mbufs of their events. -/
def fill (burst : EventBurst) (mbufs : MbufHeap) : MbufHeap :=
  burst.events.foldl (fun mbufs event => Function.update mbufs event.1.mbuf event.2) mbufs

end EventBurst

namespace TxMode

/-- What an event is told before it is enqueued. -/
def setEvent : TxMode → RteEvent → RteEvent
  | .enq txQId, ev => { ev with queueId := txQId, op := .forward }
  | .direct, ev => ev

/-- What a packet is told before it is enqueued. -/
def setTxq : TxMode → RteMbuf → RteMbuf
  | .enq _, pkt => pkt
  | .direct, pkt => { pkt with txq := 0 }

end TxMode

/-- The processing of a burst: which mbufs it goes through, if it can reach them, and
what it does to them. Apart from that, the port that is looked up for each position. -/
structure BurstWorker where
  reads : List RteEvent → Option (Nat → MbufPtr)
  process : MbufHeap → (Nat → MbufPtr) → List RteEvent → MbufHeap
  txMode : TxMode
  dstPort : MbufHeap → (Nat → MbufPtr) → Nat → Nat → BitVec 16

/-- What the retry loop hands over from `nbEnq` on. -/
def enqueueRetry (events : List RteEvent) : Nat → List Nat → List RteEvent
  | _, [] => []
  | nbEnq, more :: rest =>
      if nbEnq < events.length then
        events.drop nbEnq ++ enqueueRetry events (nbEnq + more) rest
      else
        []

/-- Everything that is handed over for transmission, as often as it is handed over. -/
def BurstWorker.handedOver (worker : BurstWorker) (burst : EventBurst) : List RteEvent :=
  let events := burst.eventArr.map worker.txMode.setEvent
  events ++ enqueueRetry events burst.accepted burst.retried

/-- One turn of the loop: the mbufs that were processed, and all packets behind it. -/
def BurstWorker.exec (worker : BurstWorker) (mbufs : MbufHeap) (burst : EventBurst) :
    Option ((Nat → MbufPtr) × MbufHeap) := do
  let taken ← worker.reads burst.eventArr
  some (taken, worker.process (burst.fill mbufs) taken burst.eventArr)

/-! ## Longest prefix match -/

/-- `events[i].mbuf` -/
def eventMbufs (events : List RteEvent) (i : Nat) : MbufPtr :=
  (events.getD i default).mbuf

def lpmProcessBurst (build : Build) (env : Env) (tables : LpmTables) (txMode : TxMode)
    (mbufs : MbufHeap) (taken : Nat → MbufPtr) (nbDeq : Nat) : MbufHeap :=
  (visit taken
    (fun pkt (_ : Unit) => (lpmProcessEventPkt build env tables (txMode.setTxq pkt), ()))
    nbDeq 0 (mbufs, fun _ => ())).1

def lpmBurstWorker (build : Build) (env : Env) (tables : LpmTables) (txMode : TxMode) :
    BurstWorker where
  reads := fun events => some (eventMbufs events)
  process := fun mbufs taken events =>
    lpmProcessBurst build env tables txMode mbufs taken events.length
  txMode := txMode
  dstPort := fun mbufs taken _ i =>
    lpmGetDstPort tables (mbufs (taken i)) (mbufs (taken i)).port

/-! ## Exact match -/

/-- What a worker finds in memory: the first word of an event, and the `mbuf` member of
what lies at an address, if it can be read. -/
structure EventMemory where
  metadata : RteEvent → BitVec 64
  mbufAt : BitVec 64 → Option MbufPtr

/-- The `j`-th word of an array of events. Each event has two, and the second one is its
mbuf. -/
def EventMemory.word (memory : EventMemory) (events : List RteEvent) (j : Nat) : BitVec 64 :=
  let ev := events.getD (j / 2) default
  if j % 2 = 0 then memory.metadata ev else BitVec.ofNat 64 ev.mbuf

/-- `ev[j]->mbuf` for all `j`, where `ev` is the array of events taken for an array of
pointers to events. -/
def EventMemory.reads (memory : EventMemory) (events : List RteEvent) :
    Option (Nat → MbufPtr) :=
  if ∀ j ∈ List.range events.length, (memory.mbufAt (memory.word events j)).isSome then
    some fun j => (memory.mbufAt (memory.word events j)).getD 0
  else
    none

/-- The loop behind the processing. -/
def emSetTxq (txMode : TxMode) (mbufs : MbufHeap) (events : List RteEvent) : MbufHeap :=
  events.foldl (fun mbufs ev => Function.update mbufs ev.mbuf (txMode.setTxq (mbufs ev.mbuf)))
    mbufs

def emBurstWorker (env : Env) (tables : EmTables) (memory : EventMemory) (txMode : TxMode) :
    BurstWorker where
  reads := memory.reads
  process := fun mbufs taken events =>
    emSetTxq txMode (l3fwdEmProcessEvents env tables mbufs events.length taken env.stack) events
  txMode := txMode
  dstPort := emEventPort env tables

def Sequential.emBurstWorker (env : Env) (tables : EmTables) (memory : EventMemory)
    (txMode : TxMode) : BurstWorker where
  reads := memory.reads
  process := fun mbufs taken events =>
    emSetTxq txMode (Sequential.l3fwdEmProcessEvents env tables mbufs events.length taken) events
  txMode := txMode
  dstPort := fun mbufs taken _ i =>
    Sequential.emGetDstPort env tables (mbufs (taken i)) (mbufs (taken i)).port

/-! ## Forwarding information base -/

/-- `process_packet` of the path. Without vector instructions the checks come first. -/
def fibProcessPacket (build : Build) (env : Env) (pkt : RteMbuf) (hop : BitVec 16) :
    RteMbuf × BitVec 16 :=
  match build with
  | .simd => processPacket env pkt hop
  | .generic =>
      let (data, hop) := rfc1812Process pkt.data hop pkt.packetType
      ({ pkt with data := setEthAddrs env data hop }, hop)

/-- Get an event ready and parse its packet. -/
def fibParseEvent (txMode : TxMode) (taken : Nat → MbufPtr) (state : MbufHeap × FibSearch)
    (i : Nat) : MbufHeap × FibSearch :=
  let mbufs := Function.update state.1 (taken i) (txMode.setTxq (state.1 (taken i)))
  (mbufs, fibParsePacket mbufs taken state.2 i)

def fibParseEvents (txMode : TxMode) (mbufs : MbufHeap) (taken : Nat → MbufPtr)
    (search : FibSearch) (nbDeq : Nat) : MbufHeap × FibSearch :=
  let search := { search with ipv4Cnt := 0, ipv6Cnt := 0 }
  let i := nbDeq - fibPrefetchOffset
  let state := (List.range' 0 i).foldl (fibParseEvent txMode taken) (mbufs, search)
  (List.range' i (nbDeq - i)).foldl (fibParseEvent txMode taken) state

/-- A packet with its next hop. If it turns out to be bad, its port stays. -/
def fibForwardPkt (build : Build) (env : Env) (pkt : RteMbuf) (nh : BitVec 16) : RteMbuf :=
  let hop := if nh ≠ fibDefaultHop then nh else pkt.port
  let (pkt, hop) := fibProcessPacket build env pkt hop
  { pkt with port := if hop ≠ badPort then hop else pkt.port }

/-- Assign the port that was looked up to the packet of an event. -/
def fibAssignEvent (build : Build) (env : Env) (search : FibSearch) (taken : Nat → MbufPtr)
    (state : FibAssem × MbufHeap) (i : Nat) : FibAssem × MbufHeap :=
  let (nh, assem) := state.1.next search i
  (assem, Function.update state.2 (taken i) (fibForwardPkt build env (state.2 (taken i)) nh))

/-- What the arrays hold before the burst is an argument. -/
def fibProcessBurst (build : Build) (env : Env) (tables : FibTables) (txMode : TxMode)
    (search : FibSearch) (mbufs : MbufHeap) (taken : Nat → MbufPtr) (nbDeq : Nat) : MbufHeap :=
  let (mbufs, search) := fibParseEvents txMode mbufs taken search nbDeq
  let search := search.lookup tables
  ((List.range' 0 nbDeq).foldl (fibAssignEvent build env search taken) (⟨0, 0⟩, mbufs)).2

def fibBurstWorker (build : Build) (env : Env) (tables : FibTables) (txMode : TxMode)
    (search : FibSearch) : BurstWorker where
  reads := fun events => some (eventMbufs events)
  process := fun mbufs taken events =>
    fibProcessBurst build env tables txMode search mbufs taken events.length
  txMode := txMode
  dstPort := fun mbufs taken nbDeq i =>
    let nh := fibNextHop tables mbufs taken search nbDeq i
    if nh ≠ fibDefaultHop then nh else (mbufs (taken i)).port

/-! ## What is enqueued -/

namespace EventBurst

/-- The mbufs of a burst are different, and its packets came from ports that exist. -/
structure WellFormed (burst : EventBurst) : Prop where
  nodup : (burst.eventArr.map RteEvent.mbuf).Nodup
  ports : ∀ event ∈ burst.events, event.2.port.toNat < rteMaxEthports

/-- Every packet passes the RFC1812 checks. -/
def Clean (burst : EventBurst) : Prop :=
  ∀ event ∈ burst.events, ¬ event.2.Bad

end EventBurst

namespace BurstWorker

/-- The processing reaches the mbuf of every event. -/
def Reaches (worker : BurstWorker) (burst : EventBurst) : Prop :=
  ∃ taken, worker.reads burst.eventArr = some taken ∧
    ∀ ev ∈ burst.eventArr, ∃ i, i < burst.eventArr.length ∧ taken i = ev.mbuf

/-- The packet of an event was processed, passed the checks, and its port is the valid
one that was looked up for it. -/
def Passed (worker : BurstWorker) (burst : EventBurst) (before : MbufHeap)
    (taken : Nat → MbufPtr) (after : MbufHeap) (ev : RteEvent) : Prop :=
  ¬ (before ev.mbuf).Bad ∧ ∃ i, i < burst.eventArr.length ∧ taken i = ev.mbuf ∧
    (after ev.mbuf).port = worker.dstPort before taken burst.eventArr.length i ∧
    (after ev.mbuf).port.toNat < rteMaxEthports

/-- Every event that a run hands over for transmission carries a packet that passed. -/
def Forwards (worker : BurstWorker) : MbufHeap → List EventBurst → Prop
  | _, [] => True
  | mbufs, burst :: rest =>
      ∃ taken after, worker.exec mbufs burst = some (taken, after) ∧
        (∀ ev ∈ worker.handedOver burst, worker.Passed burst (burst.fill mbufs) taken after ev) ∧
        worker.Forwards after rest

/-- On different mbufs, a packet that passes the checks gets a port that is looked up
and valid. -/
def Lawful (worker : BurstWorker) : Prop :=
  ∀ mbufs taken events, Distinct taken 0 events.length →
    (∀ i, i < events.length → (mbufs (taken i)).port.toNat < rteMaxEthports) →
    ∀ i, i < events.length → ¬ (mbufs (taken i)).Bad →
      (worker.process mbufs taken events (taken i)).port =
          worker.dstPort mbufs taken events.length i ∧
        (worker.dstPort mbufs taken events.length i).toNat < rteMaxEthports

end BurstWorker

/-! ## The workers keep the ports that pass -/

theorem RteMbuf.checkedPort_of_passed {pkt : RteMbuf} (passed : ¬ pkt.Bad) (port : BitVec 16) :
    pkt.checkedPort port = port :=
  if_neg passed

namespace TxMode

theorem setTxq_bad (txMode : TxMode) (pkt : RteMbuf) : (txMode.setTxq pkt).Bad ↔ pkt.Bad := by
  cases txMode with
  | enq txQId => rfl
  | direct => rfl

theorem setTxq_port (txMode : TxMode) (pkt : RteMbuf) : (txMode.setTxq pkt).port = pkt.port := by
  cases txMode with
  | enq txQId => rfl
  | direct => rfl

theorem setEvent_mbuf (txMode : TxMode) (ev : RteEvent) : (txMode.setEvent ev).mbuf = ev.mbuf := by
  cases txMode with
  | enq txQId => rfl
  | direct => rfl

end TxMode

theorem lpmProcessEventPkt_port (build : Build) (env : Env) (tables : LpmTables)
    (pkt : RteMbuf) :
    (lpmProcessEventPkt build env tables pkt).port =
      pkt.checkedPort (lpmGetDstPort tables pkt pkt.port) := by
  cases build with
  | simd => exact processOwnPort_port env _
  | generic =>
      let port := lpmGetDstPort tables pkt pkt.port
      have verdict := sameVerdict_setEthAddrs env { pkt with port := port } port
      exact (rfc1812Process_port _ port pkt.packetType).trans (verdict.checkedPort port)

theorem lpmBurstWorker_lawful (build : Build) (env : Env) {tables : LpmTables}
    (nextHop : ∀ ip hop, tables.rteLpmLookup ip = some hop → hop.toNat < rteMaxEthports)
    (nextHop6 : ∀ ip hop, tables.rteLpm6Lookup ip = some hop → hop.toNat < rteMaxEthports)
    (txMode : TxMode) : (lpmBurstWorker build env tables txMode).Lawful := by
  intro mbufs taken events distinct ports i inside passed
  have looked : ∀ pkt, lpmGetDstPort tables (txMode.setTxq pkt) (txMode.setTxq pkt).port =
      lpmGetDstPort tables pkt pkt.port := by
    intro pkt
    cases txMode with
    | enq txQId => rfl
    | direct => rfl
  have notBad := (txMode.setTxq_bad (mbufs (taken i))).not.mpr passed
  constructor
  · change (lpmProcessBurst build env tables txMode mbufs taken events.length (taken i)).port = _
    rw [lpmProcessBurst, (visit_inside taken _ _ 0 _ distinct i (Nat.zero_le i) (by omega)).1]
    rw [lpmProcessEventPkt_port, RteMbuf.checkedPort_of_passed notBad, looked]
    rfl
  · exact lpmGetDstPort_lt nextHop nextHop6 _ (ports i inside)

theorem emSetTxq_port (txMode : TxMode) :
    ∀ (events : List RteEvent) (mbufs : MbufHeap) (name : MbufPtr),
      (emSetTxq txMode mbufs events name).port = (mbufs name).port
  | [], _, _ => rfl
  | ev :: rest, mbufs, name => by
      have later := emSetTxq_port txMode rest
        (Function.update mbufs ev.mbuf (txMode.setTxq (mbufs ev.mbuf))) name
      refine later.trans ?_
      by_cases same : name = ev.mbuf
      · rw [same, Function.update_self, TxMode.setTxq_port]
      · rw [Function.update_of_ne same]

theorem emBurstWorker_lawful (env : Env) {tables : EmTables} (lawful4 : tables.ipv4.Lawful)
    (lawful6 : tables.ipv6.Lawful) (memory : EventMemory) (txMode : TxMode) :
    (emBurstWorker env tables memory txMode).Lawful := by
  intro mbufs taken events distinct ports i inside passed
  have written := l3fwdEmProcessEvents_spec env lawful4 lawful6 mbufs env.stack distinct
  constructor
  · refine (emSetTxq_port txMode events _ (taken i)).trans ?_
    rw [written.inside i (Nat.zero_le i) (by omega), processOwnPort_port]
    exact RteMbuf.checkedPort_of_passed passed _
  · exact emEventPort_lt env tables events.length (ports i inside)

theorem Sequential.processEventPkt_port (env : Env) (tables : EmTables) {pkt : RteMbuf}
    (passed : ¬ pkt.Bad)
    (valid : (Sequential.emGetDstPort env tables pkt pkt.port).toNat < rteMaxEthports) :
    (processEventPkt env tables pkt).port = Sequential.emGetDstPort env tables pkt pkt.port := by
  let looked := { pkt with port := Sequential.emGetDstPort env tables pkt pkt.port }
  have passedToo : ¬ looked.Bad := passed
  have port := processOwnPort_port env looked
  rw [RteMbuf.checkedPort_of_passed passedToo] at port
  have notBad : (processOwnPort env looked).port ≠ badPort := by
    rw [port]
    exact ne_badPort_of_valid valid
  unfold processEventPkt
  dsimp only
  rw [if_neg notBad]
  exact port

theorem Sequential.emBurstWorker_lawful (env : Env) (tables : EmTables) (memory : EventMemory)
    (txMode : TxMode) : (Sequential.emBurstWorker env tables memory txMode).Lawful := by
  intro mbufs taken events distinct ports i inside passed
  have valid := Sequential.emGetDstPort_lt env tables (mbufs (taken i)) (ports i inside)
  refine ⟨?_, valid⟩
  refine (emSetTxq_port txMode events _ (taken i)).trans ?_
  rw [Sequential.l3fwdEmProcessEvents,
    (visit_inside taken _ _ 0 _ distinct i (Nat.zero_le i) (by omega)).1]
  exact Sequential.processEventPkt_port env tables passed valid

theorem fibProcessPacket_port (build : Build) (env : Env) (pkt : RteMbuf) (hop : BitVec 16) :
    (fibProcessPacket build env pkt hop).2 = pkt.checkedPort hop := by
  cases build with
  | simd => exact processPacket_port env pkt hop
  | generic => exact rfc1812Process_port pkt.data hop pkt.packetType

/-- Getting events ready in between does not change what is parsed. -/
theorem fibParseEvents_spec (txMode : TxMode) (mbufs : MbufHeap) (taken : Nat → MbufPtr) :
    ∀ (indices : List Nat) (marked : MbufHeap) (search : FibSearch),
      (∀ name, ∃ txq, marked name = { mbufs name with txq := txq }) →
      (∀ name, ∃ txq, (indices.foldl (fibParseEvent txMode taken) (marked, search)).1 name =
        { mbufs name with txq := txq }) ∧
      (indices.foldl (fibParseEvent txMode taken) (marked, search)).2 =
        indices.foldl (fibParsePacket mbufs taken) search := by
  intro indices
  induction indices with
  | nil =>
      intro marked search same
      exact ⟨same, rfl⟩
  | cons i rest induction =>
      intro marked search same
      let next := Function.update marked (taken i) (txMode.setTxq (marked (taken i)))
      have nextSame : ∀ name, ∃ txq, next name = { mbufs name with txq := txq } := by
        intro name
        by_cases here : name = taken i
        · subst here
          rcases same (taken i) with ⟨txq, isMarked⟩
          simp only [next, Function.update_self, isMarked]
          cases txMode with
          | enq txQId => exact ⟨txq, rfl⟩
          | direct => exact ⟨0, rfl⟩
        · simp only [next, Function.update_of_ne here]
          exact same name
      have parsed : fibParsePacket next taken search i = fibParsePacket mbufs taken search i := by
        rcases nextSame (taken i) with ⟨txq, isNext⟩
        simp only [fibParsePacket, isNext, RteMbuf.ipv4DstAddr]
      have later := induction next (fibParsePacket next taken search i) nextSame
      rw [parsed] at later
      rw [List.foldl_cons, List.foldl_cons]
      have step : fibParseEvent txMode taken (marked, search) i =
          (next, fibParsePacket mbufs taken search i) := Prod.ext rfl parsed
      rw [step]
      exact later

/-- The two parsing loops are one, and apart from their queues leave the packets alone. -/
theorem fibParseEvents_eq (txMode : TxMode) (mbufs : MbufHeap) (taken : Nat → MbufPtr)
    (search : FibSearch) (num : Nat) :
    (∀ name, ∃ txq, (fibParseEvents txMode mbufs taken search num).1 name =
      { mbufs name with txq := txq }) ∧
    (fibParseEvents txMode mbufs taken search num).2 =
      fibParsePackets mbufs taken search num := by
  let start : FibSearch := { search with ipv4Cnt := 0, ipv6Cnt := 0 }
  let early := List.range' 0 (num - fibPrefetchOffset)
  let late := List.range' (num - fibPrefetchOffset) (num - (num - fibPrefetchOffset))
  have parsed := fibParseEvents_spec txMode mbufs taken (early ++ late) mbufs start
    fun name => ⟨(mbufs name).txq, rfl⟩
  rw [List.foldl_append, List.foldl_append] at parsed
  exact parsed

theorem fibPlace_zero (pkt : Nat → RteMbuf) : fibPlace pkt 0 = ⟨0, 0⟩ := by
  simp [fibPlace]

/-- The loop that assigns the ports visits every packet with its next hop. -/
theorem fibAssignEvents_spec (build : Build) (env : Env) (tables : FibTables) (mbufs : MbufHeap)
    (taken : Nat → MbufPtr) (search : FibSearch) {num : Nat} :
    let looked := (fibParsePackets mbufs taken search num).lookup tables
    ∀ count first marked, first + count ≤ num →
      ((List.range' first count).foldl (fibAssignEvent build env looked taken)
          (fibPlace (fun i => mbufs (taken i)) first, marked)).2 =
        (visit taken (fun pkt nh => (fibForwardPkt build env pkt nh, nh)) count first
          (marked, fibNextHop tables mbufs taken search num)).1 := by
  intro looked count
  induction count with
  | zero =>
      intro first marked _
      rfl
  | succ count induction =>
      intro first marked inRange
      have atFirst : first < num := by omega
      have place := fibPlace_next tables mbufs taken search atFirst
      have step : fibAssignEvent build env looked taken
            (fibPlace (fun i => mbufs (taken i)) first, marked) first =
          (fibPlace (fun i => mbufs (taken i)) (first + 1), Function.update marked (taken first)
            (fibForwardPkt build env (marked (taken first))
              (fibNextHop tables mbufs taken search num first))) := by
        unfold fibAssignEvent
        rw [place]
      rw [List.range'_succ, List.foldl_cons, step, induction (first + 1) _ (by omega), visit,
        visitOne, Function.update_eq_self]

theorem fibBurstWorker_lawful (build : Build) (env : Env) {tables : FibTables}
    (exist : tables.PortsExist) (txMode : TxMode) (search : FibSearch) :
    (fibBurstWorker build env tables txMode search).Lawful := by
  intro mbufs taken events distinct ports i inside passed
  let num := events.length
  rcases fibParseEvents_eq txMode mbufs taken search num with ⟨marked, isParsed⟩
  have isBurst : (fibBurstWorker build env tables txMode search).process mbufs taken events =
      (visit taken (fun pkt nh => (fibForwardPkt build env pkt nh, nh)) num 0
        ((fibParseEvents txMode mbufs taken search num).1,
          fibNextHop tables mbufs taken search num)).1 := by
    have assigned := fibAssignEvents_spec build env tables mbufs taken search num 0
      (fibParseEvents txMode mbufs taken search num).1 (Nat.le_of_eq (Nat.zero_add num))
    rw [← assigned, ← isParsed, fibPlace_zero]
    rfl
  rcases marked (taken i) with ⟨txq, isMarked⟩
  let nh := fibNextHop tables mbufs taken search num i
  let hop := if nh ≠ fibDefaultHop then nh else (mbufs (taken i)).port
  have valid : hop.toNat < rteMaxEthports := by
    rcases fibNextHop_exists exist mbufs taken search inside with isDefault | isPort
    · have noHop : ¬ nh ≠ fibDefaultHop := not_not_intro isDefault
      simp only [hop, if_neg noHop]
      exact ports i inside
    · simp only [hop]
      split
      · exact isPort
      · exact ports i inside
  refine ⟨?_, valid⟩
  rw [isBurst, (visit_inside taken _ num 0 _ distinct i (Nat.zero_le i) (by omega)).1, isMarked]
  let looked : RteMbuf := { mbufs (taken i) with txq := txq }
  have kept : (fibProcessPacket build env looked hop).2 = hop :=
    (fibProcessPacket_port build env looked hop).trans
      (RteMbuf.checkedPort_of_passed passed hop)
  have notBad : (fibProcessPacket build env looked hop).2 ≠ badPort := by
    rw [kept]
    exact ne_badPort_of_valid valid
  exact (if_pos notBad).trans kept

/-! ## When every enqueued packet has passed -/

theorem fill_of_not_mem :
    ∀ {events : List (RteEvent × RteMbuf)} (mbufs : MbufHeap) {name : MbufPtr},
      name ∉ (events.map Prod.fst).map RteEvent.mbuf →
      events.foldl (fun mbufs event => Function.update mbufs event.1.mbuf event.2) mbufs name =
        mbufs name
  | [], _, _, _ => rfl
  | event :: rest, mbufs, name, absent => by
      simp only [List.map_cons, List.mem_cons, not_or] at absent
      rw [List.foldl_cons, fill_of_not_mem _ absent.2, Function.update_of_ne absent.1]

theorem fill_of_mem :
    ∀ {events : List (RteEvent × RteMbuf)} (mbufs : MbufHeap) {event : RteEvent × RteMbuf},
      ((events.map Prod.fst).map RteEvent.mbuf).Nodup → event ∈ events →
      events.foldl (fun mbufs event => Function.update mbufs event.1.mbuf event.2) mbufs
        event.1.mbuf = event.2
  | head :: rest, mbufs, event, nodup, member => by
      simp only [List.map_cons, List.nodup_cons] at nodup
      rw [List.foldl_cons]
      rcases List.mem_cons.mp member with same | inRest
      · rw [same, fill_of_not_mem _ nodup.1, Function.update_self]
      · exact fill_of_mem _ nodup.2 inRest

theorem mem_of_enqueueRetry {events : List RteEvent} {ev : RteEvent} :
    ∀ {retried : List Nat} {nbEnq : Nat}, ev ∈ enqueueRetry events nbEnq retried → ev ∈ events
  | more :: rest, nbEnq, member => by
      rw [enqueueRetry] at member
      split at member
      · rcases List.mem_append.mp member with now | later
        · exact List.mem_of_mem_drop now
        · exact mem_of_enqueueRetry later
      · cases member

/-- Exactly the events of a burst are handed over. -/
theorem BurstWorker.mem_handedOver {worker : BurstWorker} {burst : EventBurst}
    {ev : RteEvent} :
    ev ∈ worker.handedOver burst ↔ ∃ event ∈ burst.events, worker.txMode.setEvent event.1 = ev := by
  have isEvent : ev ∈ burst.eventArr.map worker.txMode.setEvent ↔
      ∃ event ∈ burst.events, worker.txMode.setEvent event.1 = ev := by
    simp [EventBurst.eventArr]
  rw [← isEvent, handedOver, List.mem_append]
  exact ⟨fun handed => handed.elim id mem_of_enqueueRetry, Or.inl⟩

theorem EventBurst.WellFormed.fill_event {burst : EventBurst} (wellFormed : burst.WellFormed)
    (mbufs : MbufHeap) {event : RteEvent × RteMbuf} (member : event ∈ burst.events) :
    burst.fill mbufs event.1.mbuf = event.2 :=
  fill_of_mem mbufs wellFormed.nodup member

/-- If every event that is handed over has passed, the burst was clean and reached. -/
theorem BurstWorker.clean_of_passed {worker : BurstWorker} {mbufs : MbufHeap}
    {burst : EventBurst} (wellFormed : burst.WellFormed) {taken : Nat → MbufPtr}
    {after : MbufHeap} (ran : worker.exec mbufs burst = some (taken, after))
    (passed : ∀ ev ∈ worker.handedOver burst,
      worker.Passed burst (burst.fill mbufs) taken after ev) :
    burst.Clean ∧ worker.Reaches burst := by
  have read : worker.reads burst.eventArr = some taken := by
    rw [exec, Option.bind_eq_bind, Option.bind_eq_some_iff] at ran
    rcases ran with ⟨read, isRead, both⟩
    cases both
    exact isRead
  have event : ∀ event ∈ burst.events, ¬ event.2.Bad ∧
      ∃ i, i < burst.eventArr.length ∧ taken i = event.1.mbuf := by
    intro event member
    rcases passed _ (mem_handedOver.mpr ⟨event, member, rfl⟩) with ⟨notBad, i, inside, same, -⟩
    rw [TxMode.setEvent_mbuf] at notBad same
    rw [wellFormed.fill_event mbufs member] at notBad
    exact ⟨notBad, i, inside, same⟩
  refine ⟨fun packet member => (event packet member).1, taken, read, ?_⟩
  intro ev member
  rcases List.mem_map.mp member with ⟨packet, isPacket, rfl⟩
  exact (event packet isPacket).2

/-- Mbufs that are reached from as many places as there are events are different, and each
is the mbuf of an event. -/
theorem EventBurst.reached {burst : EventBurst} (wellFormed : burst.WellFormed)
    {taken : Nat → MbufPtr} (covers : ∀ ev ∈ burst.eventArr,
      ∃ i, i < burst.eventArr.length ∧ taken i = ev.mbuf) :
    Distinct taken 0 burst.eventArr.length ∧
      ∀ i, i < burst.eventArr.length → ∃ event ∈ burst.events, event.1.mbuf = taken i := by
  let names := burst.eventArr.map RteEvent.mbuf
  have count : names.length = burst.eventArr.length := List.length_map _
  have coversNames : ∀ name ∈ names, ∃ i, i < names.length ∧ taken i = name := by
    intro name member
    rcases List.mem_map.mp member with ⟨ev, isEvent, rfl⟩
    rw [count]
    exact covers ev isEvent
  rcases distinct_of_covers wellFormed.nodup coversNames with ⟨distinct, onlyNames⟩
  rw [count] at distinct
  refine ⟨distinct, ?_⟩
  intro i inside
  have member := onlyNames i (by rw [count]; exact inside)
  simp only [EventBurst.eventArr, List.map_map, List.mem_map] at member
  exact member

theorem BurstWorker.passed_of_clean {worker : BurstWorker} (lawful : worker.Lawful)
    (mbufs : MbufHeap) {burst : EventBurst} (wellFormed : burst.WellFormed) (clean : burst.Clean)
    {taken : Nat → MbufPtr} (covers : ∀ ev ∈ burst.eventArr,
      ∃ i, i < burst.eventArr.length ∧ taken i = ev.mbuf) {ev : RteEvent}
    (handed : ev ∈ worker.handedOver burst) :
    worker.Passed burst (burst.fill mbufs) taken
      (worker.process (burst.fill mbufs) taken burst.eventArr) ev := by
  rcases EventBurst.reached wellFormed covers with ⟨distinct, only⟩
  rcases mem_handedOver.mp handed with ⟨event, member, rfl⟩
  rcases covers event.1 (List.mem_map_of_mem member) with ⟨i, inside, same⟩
  have notBad : ¬ (burst.fill mbufs event.1.mbuf).Bad := by
    rw [wellFormed.fill_event mbufs member]
    exact clean event member
  have ports : ∀ j, j < burst.eventArr.length →
      (burst.fill mbufs (taken j)).port.toNat < rteMaxEthports := by
    intro j insideJ
    rcases only j insideJ with ⟨other, isOther, sameOther⟩
    rw [← sameOther, wellFormed.fill_event mbufs isOther]
    exact wellFormed.ports other isOther
  have passes : ¬ (burst.fill mbufs (taken i)).Bad := by
    rw [same]
    exact notBad
  rcases lawful (burst.fill mbufs) taken burst.eventArr distinct ports i inside passes with
    ⟨port, valid⟩
  rw [same] at port
  refine ⟨?_, i, inside, ?_, ?_, ?_⟩
  · rw [TxMode.setEvent_mbuf]
    exact notBad
  · rw [TxMode.setEvent_mbuf]
    exact same
  · rw [TxMode.setEvent_mbuf]
    exact port
  · rw [TxMode.setEvent_mbuf, port]
    exact valid

/-- In one turn of the loop, every event that is handed over has passed if and only if
every packet of the burst passes the checks and every one is reached. -/
theorem BurstWorker.exec_iff {worker : BurstWorker} (lawful : worker.Lawful) (mbufs : MbufHeap)
    {burst : EventBurst} (wellFormed : burst.WellFormed) :
    (∃ taken after, worker.exec mbufs burst = some (taken, after) ∧
      ∀ ev ∈ worker.handedOver burst,
        worker.Passed burst (burst.fill mbufs) taken after ev) ↔
      burst.Clean ∧ worker.Reaches burst := by
  constructor
  · rintro ⟨taken, after, ran, passed⟩
    exact clean_of_passed wellFormed ran passed
  · rintro ⟨clean, taken, read, covers⟩
    refine ⟨taken, worker.process (burst.fill mbufs) taken burst.eventArr, ?_, ?_⟩
    · rw [exec, read]
      rfl
    · intro ev handed
      exact passed_of_clean lawful mbufs wellFormed clean covers handed

/-- In a whole run, every event that is handed over has passed if and only if every
packet of every burst passes the checks and is reached. -/
theorem BurstWorker.forwards_iff {worker : BurstWorker} (lawful : worker.Lawful) :
    ∀ (bursts : List EventBurst) (mbufs : MbufHeap), (∀ burst ∈ bursts, burst.WellFormed) →
      (worker.Forwards mbufs bursts ↔
        ∀ burst ∈ bursts, burst.Clean ∧ worker.Reaches burst) := by
  intro bursts
  induction bursts with
  | nil =>
      intro mbufs _
      simp [Forwards]
  | cons burst rest induction =>
      intro mbufs wellFormed
      have here := exec_iff lawful mbufs (wellFormed burst List.mem_cons_self)
      have later := fun after => induction after
        fun other member => wellFormed other (List.mem_cons_of_mem burst member)
      rw [Forwards, List.forall_mem_cons, ← here]
      constructor
      · rintro ⟨taken, after, ran, passed, forwards⟩
        exact ⟨⟨taken, after, ran, passed⟩, (later after).mp forwards⟩
      · rintro ⟨⟨taken, after, ran, passed⟩, all⟩
        exact ⟨taken, after, ran, passed, (later after).mpr all⟩

/-- Workers that take the mbufs from their events reach all of them. -/
theorem BurstWorker.reaches_eventMbufs (worker : BurstWorker)
    (reads : ∀ events, worker.reads events = some (eventMbufs events)) (burst : EventBurst) :
    worker.Reaches burst := by
  refine ⟨_, reads _, ?_⟩
  intro ev member
  rcases List.getElem_of_mem member with ⟨i, inside, same⟩
  refine ⟨i, inside, ?_⟩
  rw [eventMbufs, List.getD_eq_getElem _ _ inside, same]

/-- The single loops never enqueue a packet that is marked as bad. The burst loops do so
whenever there is one: everything they enqueue has passed if and only if every packet of
every burst passes the checks, and with exact match also only if the processing reaches
the mbufs of the events. -/
theorem eventLoopBurst_forwards_iff (build : Build) (env : Env) {lpm : LpmTables}
    {em : EmTables} {fib : FibTables}
    (nextHop : ∀ ip hop, lpm.rteLpmLookup ip = some hop → hop.toNat < rteMaxEthports)
    (nextHop6 : ∀ ip hop, lpm.rteLpm6Lookup ip = some hop → hop.toNat < rteMaxEthports)
    (lawful4 : em.ipv4.Lawful) (lawful6 : em.ipv6.Lawful) (exist : fib.PortsExist)
    (memory : EventMemory) (txMode : TxMode) (search : FibSearch) (mbufs : MbufHeap)
    {bursts : List EventBurst} (wellFormed : ∀ burst ∈ bursts, burst.WellFormed) :
    (∀ worker ∈ keepingWorkers env lpm em txMode, ∀ ev actions loop,
      (EventLoop.start ev mbufs).run worker actions = some loop → loop.pc = .enqueue →
        (loop.mbufs loop.ev.mbuf).port ≠ badPort) ∧
    ((lpmBurstWorker build env lpm txMode).Forwards mbufs bursts ↔
      ∀ burst ∈ bursts, burst.Clean) ∧
    ((fibBurstWorker build env fib txMode search).Forwards mbufs bursts ↔
      ∀ burst ∈ bursts, burst.Clean) ∧
    ((emBurstWorker env em memory txMode).Forwards mbufs bursts ↔
      ∀ burst ∈ bursts, burst.Clean ∧ (emBurstWorker env em memory txMode).Reaches burst) ∧
    ((Sequential.emBurstWorker env em memory txMode).Forwards mbufs bursts ↔
      ∀ burst ∈ bursts,
        burst.Clean ∧ (Sequential.emBurstWorker env em memory txMode).Reaches burst) := by
  refine ⟨?_, ?_, ?_, ?_, ?_⟩
  · intro worker _ ev actions loop ran atEnqueue
    exact EventLoop.run_ready ran (Or.inl atEnqueue)
  · rw [BurstWorker.forwards_iff (lpmBurstWorker_lawful build env nextHop nextHop6 txMode)
      bursts mbufs wellFormed]
    have reached := BurstWorker.reaches_eventMbufs (lpmBurstWorker build env lpm txMode)
      fun _ => rfl
    simp only [reached, and_true]
  · rw [BurstWorker.forwards_iff (fibBurstWorker_lawful build env exist txMode search)
      bursts mbufs wellFormed]
    have reached := BurstWorker.reaches_eventMbufs (fibBurstWorker build env fib txMode search)
      fun _ => rfl
    simp only [reached, and_true]
  · exact BurstWorker.forwards_iff (emBurstWorker_lawful env lawful4 lawful6 memory txMode)
      bursts mbufs wellFormed
  · exact BurstWorker.forwards_iff (Sequential.emBurstWorker_lawful env em memory txMode)
      bursts mbufs wellFormed

/-- FIB tables in which every address has one next hop. -/
def oneHopFibTables (hop : BitVec 64) : FibTables where
  rteFibLookupBulk := fun _ _ _ => hop
  rteFib6LookupBulk := fun _ _ _ => hop

/-- A packet that is not IPv4, in an event whose first word happens to lead to its mbuf. -/
theorem eventLoopBurst_forwards_iff_other :
    let burst : EventBurst := ⟨[(⟨7, 0#8, .new⟩, default)], 0, [1]⟩
    let memory : EventMemory := ⟨fun _ => 0x1000#64, fun _ => some 7⟩
    (lpmBurstWorker .simd default (singleRouteTables 0#32) .direct).Forwards
        (fun _ => default) [burst] ∧
      (emBurstWorker default (oneInterfaceTables 5#8) memory .direct).Forwards
        (fun _ => default) [burst] := by
  intro burst memory
  have hops : ∀ ip hop, (singleRouteTables 0#32).rteLpmLookup ip = some hop →
      hop.toNat < rteMaxEthports := by
    intro ip hop found
    rw [singleRouteTables_hop found]
    decide
  have hops6 : ∀ ip hop, (singleRouteTables 0#32).rteLpm6Lookup ip = some hop →
      hop.toNat < rteMaxEthports := by
    intro ip hop found
    cases found
  have small : ((5#64 : BitVec 64).setWidth 16).toNat < rteMaxEthports := by decide
  have exist : (oneHopFibTables 5#64).PortsExist :=
    ⟨fun _ _ _ _ => Or.inr small, fun _ _ _ _ => Or.inr small⟩
  have wellFormed : ∀ other ∈ [burst], other.WellFormed := by
    intro other member
    rw [List.mem_singleton.mp member]
    refine ⟨List.nodup_singleton _, ?_⟩
    intro event isEvent
    rw [List.mem_singleton.mp isEvent]
    decide
  have clean : ∀ other ∈ [burst], other.Clean := by
    intro other member
    rw [List.mem_singleton.mp member]
    intro event isEvent
    rw [List.mem_singleton.mp isEvent]
    decide
  have lawful4 : (oneInterfaceTables 5#8).ipv4.Lawful := fun _ _ _ _ => rfl
  have lawful6 : (oneInterfaceTables 5#8).ipv6.Lawful := fun _ _ _ _ => rfl
  rcases eventLoopBurst_forwards_iff .simd default hops hops6 lawful4 lawful6 exist memory .direct
    default (fun _ => default) wellFormed with ⟨-, lpm, -, em, -⟩
  refine ⟨lpm.mpr clean, em.mpr fun other member => ⟨clean other member, ?_⟩⟩
  rw [List.mem_singleton.mp member]
  refine ⟨_, rfl, ?_⟩
  intro ev isEvent
  rw [List.mem_singleton.mp isEvent]
  exact ⟨0, Nat.zero_lt_one, rfl⟩

/-- A packet with a bad header is enqueued, with longest prefix match even to the port
that marks it. -/
theorem eventLoopBurst_forwardsBad :
    let bad : RteMbuf := { (default : RteMbuf) with packetType := 0x10#32 }
    let burst : EventBurst := ⟨[(⟨7, 0#8, .new⟩, bad)], 1, []⟩
    let lpm := lpmBurstWorker .simd default (singleRouteTables 0#32) .direct
    let fib := fibBurstWorker .simd default (oneHopFibTables 5#64) .direct default
    (∃ taken after, lpm.exec (fun _ => default) burst = some (taken, after) ∧
      lpm.handedOver burst = [⟨7, 0#8, .new⟩] ∧ (after 7).port = badPort) ∧
    ¬ lpm.Forwards (fun _ => default) [burst] ∧ ¬ fib.Forwards (fun _ => default) [burst] := by
  intro bad burst lpm fib
  have isBad : (burst.fill (fun _ => default) 7).Bad := by decide +kernel
  refine ⟨⟨_, _, rfl, rfl, ?_⟩, ?_, ?_⟩
  · decide +kernel
  · rintro ⟨taken, after, -, passed, -⟩
    exact (passed ⟨7, 0#8, .new⟩ List.mem_cons_self).1 isBad
  · rintro ⟨taken, after, -, passed, -⟩
    exact (passed ⟨7, 0#8, .new⟩ List.mem_cons_self).1 isBad

end PacketForwarding.L3fwd
