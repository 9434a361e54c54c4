import PacketForwarding.Foundation.Sweeps
import PacketForwarding.L3fwd.Forwarders
import PacketForwarding.L3fwd.PollSetup
import PacketForwarding.L3fwd.Relay

/-! # Polling loops

The main loops of the lookup methods differ in how they send a burst. All of them compare a
clock with the time of the last drain, drain the ports when it is due and poll the queues.
What such a loop does with its packets follows from what one call of its sender does.
-/

namespace PacketForwarding.L3fwd

open LcoreState

/-- `(rte_get_tsc_hz() + US_PER_S - 1) / US_PER_S * BURST_TX_DRAIN_US` -/
def drainTsc (tscHz : BitVec 64) : BitVec 64 :=
  (tscHz + 1000000#64 - 1#64) / 1000000#64 * 100#64

/-- How a lookup method sends the packets of a burst that came from a port. -/
abbrev BurstSender :=
  LcoreState → Nat → (Nat → MbufPtr) → BitVec 16 → Except Fault LcoreState

structure Poll where
  state : LcoreState
  prevTsc : BitVec 64

/-- What one iteration meets: what the receive queues hold, by position in the list of
queues, and what the clock shows when it is read. -/
structure PollRound where
  rx : Nat → RxBurst
  rteRdtsc : BitVec 64

def drainPorts (env : Env) (state : LcoreState) : Except Fault LcoreState :=
  state.qconf.txPortId.foldlM (fun state portid => do
    let (state, _) ← drainTxPort env state portid
    .ok state) state

/-- TX burst queue drain. -/
def drainWhenDue (env : Env) (drainTsc curTsc : BitVec 64) (poll : Poll) : Except Fault Poll :=
  if drainTsc < curTsc - poll.prevTsc then do
    let state ← drainPorts env poll.state
    .ok ⟨state, curTsc⟩
  else
    .ok poll

/-- Read packets from one RX queue. -/
def readRxQueue (send : BurstSender) (rx : Nat → RxBurst) (state : LcoreState)
    (queue : LcoreRxQueue × Nat) : Except Fault LcoreState :=
  let burst := rx queue.2
  if burst.nbRx = 0 then
    .ok state
  else
    send { state with mbufs := burst.fill state.mbufs } burst.nbRx burst.pktsBurst queue.1.portId

def pollOnce (env : Env) (send : BurstSender) (drainTsc curTsc : BitVec 64) (rx : Nat → RxBurst)
    (poll : Poll) : Except Fault Poll := do
  let poll ← drainWhenDue env drainTsc curTsc poll
  let state ← poll.state.qconf.rxQueueList.zipIdx.foldlM (readRxQueue send rx) poll.state
  .ok { poll with state := state }

/-- A loop that reads the clock at the end of each iteration. -/
def pollLoop (env : Env) (send : BurstSender) (drainTsc : BitVec 64) :
    BitVec 64 → List PollRound → Poll → Except Fault Poll
  | _, [], poll => .ok poll
  | curTsc, round :: rounds, poll => do
      let poll ← pollOnce env send drainTsc curTsc round.rx poll
      pollLoop env send drainTsc round.rteRdtsc rounds poll

/-- The main processing loop, with the clock as it is read before the first iteration. An
lcore without receive queues has nothing to do. -/
def pollMainLoop (env : Env) (send : BurstSender) (tscHz tsc : BitVec 64) (state : LcoreState)
    (rounds : List PollRound) : Except Fault Poll :=
  let poll : Poll := ⟨state, tsc⟩
  if state.qconf.rxQueueList = [] then
    .ok poll
  else
    pollLoop env send (drainTsc tscHz) tsc rounds poll

/-! ## Iterations with the clock at their beginning -/

/-- The clock as an iteration compares it, and what its queues hold. -/
abbrev PollHead := BitVec 64 × (Nat → RxBurst)

def pollHeads : BitVec 64 → List PollRound → List PollHead
  | _, [] => []
  | curTsc, round :: rounds => (curTsc, round.rx) :: pollHeads round.rteRdtsc rounds

def pollAll (env : Env) (send : BurstSender) (drainTsc : BitVec 64) (heads : List PollHead)
    (poll : Poll) : Except Fault Poll :=
  heads.foldlM (fun poll head => pollOnce env send drainTsc head.1 head.2 poll) poll

theorem pollLoop_eq (env : Env) (send : BurstSender) (drainTsc : BitVec 64) :
    ∀ rounds curTsc poll, pollLoop env send drainTsc curTsc rounds poll =
      pollAll env send drainTsc (pollHeads curTsc rounds) poll
  | [], _, _ => rfl
  | round :: rounds, curTsc, poll => by
      rw [pollLoop, pollHeads, pollAll, List.foldlM_cons]
      congr 1
      funext next
      exact pollLoop_eq env send drainTsc rounds round.rteRdtsc next

/-! ## What a sender has to do -/

/-- The mbufs of a burst. -/
def RxBurst.mbufs (burst : RxBurst) : List MbufPtr :=
  (List.range burst.nbRx).map burst.pktsBurst

theorem RxBurst.mbufs_eq (burst : RxBurst) : burst.mbufs = burst.packets.map Prod.fst := by
  have length : burst.nbRx = (burst.packets.map Prod.fst).length := (List.length_map _).symm
  rw [RxBurst.mbufs, length]
  apply List.ext_getElem
  · rw [List.length_map, List.length_range]
  · intro i _ inside
    rw [List.getElem_map, List.getElem_range, RxBurst.pktsBurst, List.getD_eq_getElem _ _ inside]

/-- A loop over the positions of a burst is a loop over its mbufs. -/
theorem RxBurst.foldlM_pktsBurst {σ : Type} (burst : RxBurst)
    (step : σ → MbufPtr → Except Fault σ) (start : σ) :
    (List.range burst.nbRx).foldlM (fun state j => step state (burst.pktsBurst j)) start =
      burst.packets.foldlM (fun state packet => step state packet.1) start := by
  calc
    _ = burst.mbufs.foldlM step start := List.foldlM_map.symm
    _ = (burst.packets.map Prod.fst).foldlM step start := by rw [burst.mbufs_eq]
    _ = _ := List.foldlM_map

theorem RxBurst.pktsBurst_mem (burst : RxBurst) {i : Nat} (inside : i < burst.nbRx) :
    burst.pktsBurst i ∈ burst.packets.map Prod.fst := by
  rw [← burst.mbufs_eq]
  exact List.mem_map_of_mem (List.mem_range.mpr inside)

/-- The driver puts the packets of a burst into different mbufs. -/
def RxBurst.Distinct (burst : RxBurst) : Prop :=
  (burst.packets.map Prod.fst).Nodup

theorem RxBurst.Distinct.pktsBurst {burst : RxBurst} (distinct : burst.Distinct) :
    Cells.Distinct burst.pktsBurst 0 burst.nbRx := by
  rw [RxBurst.Distinct, ← burst.mbufs_eq] at distinct
  intro left right _ leftInside _ rightInside same
  rw [Nat.zero_add] at leftInside rightInside
  exact List.inj_on_of_nodup_map distinct (List.mem_range.mpr leftInside)
    (List.mem_range.mpr rightInside) same

theorem RxBurst.fill_cons (packet : MbufPtr × RteMbuf) (rest : List (MbufPtr × RteMbuf))
    (mbufs : MbufHeap) (m : MbufPtr) :
    (⟨packet :: rest⟩ : RxBurst).fill mbufs m =
      (⟨rest⟩ : RxBurst).fill (Function.update mbufs packet.1 packet.2) m :=
  rfl

/-- Mbufs that are not in a burst hold what they held before. -/
theorem RxBurst.fill_of_not_mem : ∀ (packets : List (MbufPtr × RteMbuf)) (mbufs : MbufHeap)
    {m : MbufPtr}, m ∉ packets.map Prod.fst → (⟨packets⟩ : RxBurst).fill mbufs m = mbufs m
  | [], _, _, _ => rfl
  | packet :: rest, mbufs, m, absent => by
      rw [List.map_cons, List.mem_cons, not_or] at absent
      rw [fill_cons, fill_of_not_mem rest _ absent.2, Function.update_of_ne absent.1]

/-- What an mbuf of a burst holds does not depend on what was there before. -/
theorem RxBurst.fill_congr : ∀ (packets : List (MbufPtr × RteMbuf)) (mbufs mbufs' : MbufHeap)
    {m : MbufPtr}, m ∈ packets.map Prod.fst →
      (⟨packets⟩ : RxBurst).fill mbufs m = (⟨packets⟩ : RxBurst).fill mbufs' m
  | [], _, _, _, member => absurd member List.not_mem_nil
  | packet :: rest, mbufs, mbufs', m, member => by
      rw [fill_cons, fill_cons]
      by_cases later : m ∈ rest.map Prod.fst
      · exact fill_congr rest _ _ later
      · have isFirst : m = packet.1 := (List.mem_cons.mp member).resolve_right later
        rw [fill_of_not_mem rest _ later, fill_of_not_mem rest _ later, isFirst,
          Function.update_self, Function.update_self]

/-- Different mbufs hold what the driver put into them. -/
theorem RxBurst.fill_of_mem : ∀ (burst : RxBurst), burst.Distinct →
    ∀ (mbufs : MbufHeap) {packet : MbufPtr × RteMbuf}, packet ∈ burst.packets →
      burst.fill mbufs packet.1 = packet.2
  | ⟨[]⟩, _, _, _, member => absurd member List.not_mem_nil
  | ⟨head :: rest⟩, distinct, mbufs, packet, member => by
      rw [RxBurst.Distinct, List.map_cons, List.nodup_cons] at distinct
      rw [fill_cons]
      rcases List.mem_cons.mp member with rfl | later
      · rw [fill_of_not_mem rest _ distinct.1, Function.update_self]
      · exact fill_of_mem ⟨rest⟩ distinct.2 _ later

/-- The packet at a position of a burst, as the driver left it in its mbuf. -/
def RxBurst.packet (burst : RxBurst) (i : Nat) : RteMbuf :=
  burst.fill (fun _ => default) (burst.pktsBurst i)

theorem RxBurst.fill_pktsBurst (burst : RxBurst) (mbufs : MbufHeap) {i : Nat}
    (inside : i < burst.nbRx) : burst.fill mbufs (burst.pktsBurst i) = burst.packet i :=
  fill_congr burst.packets _ _ (burst.pktsBurst_mem inside)

/-- The port to which a packet is sent, if it is not dropped. -/
def Fate.port : Fate → BitVec 16
  | some sent => sent.2
  | none => badPort

theorem Fate.port_ofPort (result : RteMbuf × BitVec 16) : (Fate.ofPort result).port = result.2 := by
  unfold Fate.ofPort
  split
  · rename_i isBad
    exact isBad.symm
  · rfl

theorem vectorFate_port (env : Env) (pkt : RteMbuf) (dstPort : BitVec 16) :
    (vectorFate env pkt dstPort).port = pkt.checkedPort dstPort :=
  (Fate.port_ofPort _).trans (processPacket_port env pkt dstPort)

theorem fibFate_port (build : Build) (env : Env) (pkt : RteMbuf) (hop : BitVec 16) :
    (fibFate build env pkt hop).port = pkt.checkedPort hop :=
  (Fate.port_ofPort _).trans (fibProcessPacket_port build env pkt hop)

/-- The checks let a packet through to an allowed port. -/
theorem RteMbuf.checkedPort_of_ne {allowed : BitVec 16 → Prop} {pkt : RteMbuf} {hop : BitVec 16}
    (notBad : pkt.checkedPort hop ≠ badPort) (toPort : hop = badPort ∨ allowed hop) :
    allowed (pkt.checkedPort hop) := by
  unfold RteMbuf.checkedPort at notBad ⊢
  split at notBad
  · exact absurd rfl notBad
  · rename_i good
    rw [if_neg good]
    exact toPort.resolve_left notBad

theorem aclFate_port (env : Env) (pkt : RteMbuf) (hop : BitVec 16) :
    (aclFate env pkt hop).port = pkt.checkedPort hop :=
  (Fate.port_ofPort _).trans (rfc1812Process_port pkt.data hop pkt.packetType)

/-- The port to which each packet of a burst is sent, by its position in the burst and the port
that the burst came from. -/
abbrev BurstPorts := RxBurst → BitVec 16 → Nat → BitVec 16

/-- The mbufs of a burst, each with the port that it is for. -/
def RxBurst.handed (burst : RxBurst) (dstPort : Nat → BitVec 16) : List (MbufPtr × BitVec 16) :=
  (List.range burst.nbRx).map fun i => (burst.pktsBurst i, dstPort i)

theorem RxBurst.handed_congr (burst : RxBurst) {dstPort dstPort' : Nat → BitVec 16}
    (same : ∀ i, i < burst.nbRx → dstPort i = dstPort' i) :
    burst.handed dstPort = burst.handed dstPort' :=
  List.map_congr_left fun i member => by rw [same i (List.mem_range.mp member)]

/-- In different mbufs, each packet goes to its own port. -/
theorem RxBurst.Distinct.handed {burst : RxBurst} (distinct : burst.Distinct)
    (port : RteMbuf → BitVec 16) :
    burst.handed (fun i => port (burst.packet i)) =
      burst.packets.map fun packet => (packet.1, port packet.2) := by
  unfold RxBurst.handed
  apply List.ext_getElem
  · rw [List.length_map, List.length_range, List.length_map]
    rfl
  · intro i _ inside
    rw [List.length_map] at inside
    have isMbuf : burst.pktsBurst i = burst.packets[i].1 := by
      rw [RxBurst.pktsBurst, List.getD_eq_getElem _ _ (by rwa [List.length_map]), List.getElem_map]
    have isPacket : burst.packet i = burst.packets[i].2 := by
      rw [RxBurst.packet, isMbuf]
      exact burst.fill_of_mem distinct _ (List.getElem_mem inside)
    rw [List.getElem_map, List.getElem_range, List.getElem_map, isMbuf]
    exact congrArg (fun pkt => (_, port pkt)) isPacket

/-- What one iteration receives, in the order in which it does. -/
def receivedAt (dstPort : BurstPorts) (queues : List LcoreRxQueue) (rx : Nat → RxBurst) :
    List (MbufPtr × BitVec 16) :=
  queues.zipIdx.flatMap fun queue =>
    (rx queue.2).handed (dstPort (rx queue.2) queue.1.portId)

def receivedIn (dstPort : BurstPorts) (queues : List LcoreRxQueue) (heads : List PollHead) :
    List (MbufPtr × BitVec 16) :=
  heads.flatMap fun head => receivedAt dstPort queues head.2

/-- A sender relays every burst that is fine to allowed ports, if it comes from one, and each
packet to its port. What is fine depends on the sender. -/
structure Relays (env : Env) (allowed : BitVec 16 → Prop) (bound : Nat) (fine : RxBurst → Prop)
    (dstPort : BurstPorts) (send : BurstSender) : Prop where
  exist : ∀ port, allowed port → port.toNat < rteMaxEthports
  positive : 0 < bound
  small : bound ≤ maxPktBurst
  relays : ∀ (state : LcoreState) (burst : RxBurst) (portid : BitVec 16), state.Below bound →
    0 < burst.nbRx → burst.nbRx ≤ env.rxBurstSize → fine burst → allowed portid →
    Outcome (Relayed allowed bound state (burst.handed (dstPort burst portid))) False
      (send { state with mbufs := burst.fill state.mbufs } burst.nbRx burst.pktsBurst portid)

/-! ## One iteration -/

/-- When a drain is due. -/
abbrev Overdue (drainTsc prevTsc curTsc : BitVec 64) : Prop :=
  drainTsc < curTsc - prevTsc

section

variable {env : Env} {allowed : BitVec 16 → Prop} {bound : Nat} {fine : RxBurst → Prop}
  {dstPort : BurstPorts} {send : BurstSender}
  (relays : Relays env allowed bound fine dstPort send)

include relays

theorem drainPorts_relayed {state : LcoreState} (below : state.Below bound)
    (txPorts : ∀ port ∈ state.qconf.txPortId, allowed port) :
    Outcome (fun last => Relayed allowed bound state [] last ∧
        ∀ port ∈ state.qconf.txPortId, (last.qconf.txMbufs port.toNat).buffered = []) False
      (drainPorts env state) := by
  unfold drainPorts
  apply Outcome.foldlM (fun (done : List (BitVec 16)) (last : LcoreState) =>
    Relayed allowed bound state [] last ∧
      ∀ port ∈ done, (last.qconf.txMbufs port.toNat).buffered = [])
  · rintro done port last member ⟨relayed, emptied⟩
    have isAllowed := txPorts port member
    apply (drainTxPort_relayed env isAllowed (relays.exist port isAllowed) relays.positive
      relays.small relayed.below).bind
    rintro ⟨next, stats⟩ ⟨drained, empty, others⟩
    refine ⟨relayed.trans drained, ?_⟩
    intro other isDone
    by_cases same : other.toNat = port.toNat
    · rw [same]
      exact empty
    · rcases List.mem_append.mp isDone with earlier | isPort
      · rw [others other.toNat same]
        exact emptied other earlier
      · exact absurd (congrArg BitVec.toNat (List.mem_singleton.mp isPort)) same
  · exact ⟨Relayed.refl below, fun _ impossible => absurd impossible List.not_mem_nil⟩

theorem readRxQueues_relayed {state : LcoreState} (below : state.Below bound)
    {queues : List LcoreRxQueue} {rx : Nat → RxBurst}
    (rxPorts : ∀ queue ∈ queues, allowed queue.portId)
    (bursts : ∀ i, (rx i).nbRx ≤ env.rxBurstSize ∧ fine (rx i)) :
    Outcome (Relayed allowed bound state (receivedAt dstPort queues rx)) False
      (queues.zipIdx.foldlM (readRxQueue send rx) state) := by
  apply Outcome.foldlM (fun (done : List (LcoreRxQueue × Nat)) (last : LcoreState) =>
    Relayed allowed bound state (done.flatMap fun queue =>
      (rx queue.2).handed (dstPort (rx queue.2) queue.1.portId)) last)
  · intro done queue last member relayed
    rw [List.flatMap_append, List.flatMap_singleton]
    unfold readRxQueue
    by_cases empty : (rx queue.2).nbRx = 0
    · have nothing : (rx queue.2).handed (dstPort (rx queue.2) queue.1.portId) = [] := by
        rw [RxBurst.handed, empty]
        rfl
      simp only [if_pos empty, nothing, List.append_nil]
      exact relayed
    · simp only [if_neg empty]
      apply (relays.relays last (rx queue.2) queue.1.portId relayed.below
        (Nat.pos_of_ne_zero empty) (bursts queue.2).1 (bursts queue.2).2
        (rxPorts queue.1 (List.fst_mem_of_mem_zipIdx member))).imp _ id
      intro next sent
      exact relayed.trans sent
  · exact Relayed.refl below

/-! ## All iterations -/

/-- What has been received was relayed, and what is waiting for a drained port came in since
the last drain. -/
structure Polled (allowed : BitVec 16 → Prop) (bound : Nat) (dstPort : BurstPorts)
    (start : LcoreState) (drainTsc tsc : BitVec 64) (heads : List PollHead) (poll : Poll) :
    Prop where
  relayed : Relayed allowed bound start (receivedIn dstPort start.qconf.rxQueueList heads)
    poll.state
  prevTsc : poll.prevTsc = (Swept.run (Overdue drainTsc) tsc heads).last
  recent : ∀ port ∈ start.qconf.txPortId, ∀ m ∈ (poll.state.qconf.txMbufs port.toNat).buffered,
    ∃ head ∈ (Swept.run (Overdue drainTsc) tsc heads).since,
      m ∈ handedTo (receivedAt dstPort start.qconf.rxQueueList head.2) port.toNat

/-- After a drain that is due, only what is yet to come can wait for a drained port. -/
theorem drainWhenDue_polled {start : LcoreState} {drainTsc tsc : BitVec 64}
    {heads : List PollHead} (head : PollHead) {poll : Poll}
    (polled : Polled allowed bound dstPort start drainTsc tsc heads poll)
    (txPorts : ∀ port ∈ start.qconf.txPortId, allowed port) :
    Outcome (fun next : Poll => Relayed allowed bound start
        (receivedIn dstPort start.qconf.rxQueueList heads) next.state ∧
      next.prevTsc = (Swept.run (Overdue drainTsc) tsc (heads ++ [head])).last ∧
      ∀ port ∈ start.qconf.txPortId, ∀ m ∈ (next.state.qconf.txMbufs port.toNat).buffered,
        ∃ earlier ∈ (Swept.run (Overdue drainTsc) tsc (heads ++ [head])).since,
          m ∈ handedTo (receivedAt dstPort start.qconf.rxQueueList earlier.2) port.toNat) False
      (drainWhenDue env drainTsc head.1 poll) := by
  unfold drainWhenDue
  rw [Swept.run_snoc (Overdue drainTsc) tsc heads head, Swept.next, ← polled.prevTsc]
  by_cases due : drainTsc < head.1 - poll.prevTsc
  · simp only [if_pos due]
    have sameList := polled.relayed.txPortId
    apply (drainPorts_relayed relays polled.relayed.below (by
      rw [sameList]
      exact txPorts)).bind
    rintro next ⟨relayed, emptied⟩
    refine ⟨?_, rfl, ?_⟩
    · have both := polled.relayed.trans relayed
      rw [List.append_nil] at both
      exact both
    · intro port isPort m waiting
      rw [sameList] at emptied
      rw [emptied port isPort] at waiting
      exact absurd waiting List.not_mem_nil
  · simp only [if_neg due]
    refine ⟨polled.relayed, rfl, ?_⟩
    intro port isPort m waiting
    rcases polled.recent port isPort m waiting with ⟨earlier, member, received⟩
    exact ⟨earlier, List.mem_append_left _ member, received⟩

theorem pollOnce_polled {start : LcoreState} {drainTsc tsc : BitVec 64} {heads : List PollHead}
    {head : PollHead} {poll : Poll}
    (polled : Polled allowed bound dstPort start drainTsc tsc heads poll)
    (txPorts : ∀ port ∈ start.qconf.txPortId, allowed port)
    (rxPorts : ∀ queue ∈ start.qconf.rxQueueList, allowed queue.portId)
    (bursts : ∀ i, (head.2 i).nbRx ≤ env.rxBurstSize ∧ fine (head.2 i)) :
    Outcome (Polled allowed bound dstPort start drainTsc tsc (heads ++ [head])) False
      (pollOnce env send drainTsc head.1 head.2 poll) := by
  unfold pollOnce
  apply (drainWhenDue_polled relays head polled txPorts).bind
  rintro next ⟨relayed, prevTsc, recent⟩
  rw [relayed.rxQueueList]
  apply (readRxQueues_relayed relays relayed.below rxPorts bursts).bind
  intro last read
  refine ⟨?_, prevTsc, ?_⟩
  · rw [receivedIn, List.flatMap_append, List.flatMap_singleton]
    exact relayed.trans read
  · intro port isPort m waiting
    rcases read.held port.toNat m waiting with before | received
    · exact recent port isPort m before
    · exact ⟨head, Swept.mem_since_snoc tsc heads head, received⟩

theorem polled_nil {state : LcoreState} (drainTsc tsc : BitVec 64)
    (emptyBuffers : ∀ port, state.txLen port = 0) :
    Polled allowed bound dstPort state drainTsc tsc [] ⟨state, tsc⟩ := by
  refine ⟨Relayed.refl ?_, rfl, ?_⟩
  · intro port _
    rw [emptyBuffers port]
    exact relays.positive
  · intro port _ m waiting
    rw [buffered_of_empty emptyBuffers port.toNat] at waiting
    exact absurd waiting List.not_mem_nil

theorem pollAll_polled {state : LcoreState} (drainTsc tsc : BitVec 64) {heads : List PollHead}
    (emptyBuffers : ∀ port, state.txLen port = 0)
    (txPorts : ∀ port ∈ state.qconf.txPortId, allowed port)
    (rxPorts : ∀ queue ∈ state.qconf.rxQueueList, allowed queue.portId)
    (bursts : ∀ head ∈ heads, ∀ i, (head.2 i).nbRx ≤ env.rxBurstSize ∧ fine (head.2 i)) :
    Outcome (Polled allowed bound dstPort state drainTsc tsc heads) False
      (pollAll env send drainTsc heads ⟨state, tsc⟩) := by
  apply Outcome.foldlM (Polled allowed bound dstPort state drainTsc tsc)
  · intro done head poll member polled
    exact pollOnce_polled relays polled txPorts rxPorts (bursts head member)
  · exact polled_nil relays drainTsc tsc emptyBuffers

/-- A loop does the same with another sender if fine bursts are sent in the same way. -/
theorem pollAll_congr {send' : BurstSender} {start : LcoreState} {drainTsc tsc : BitVec 64}
    (same : ∀ (state : LcoreState) (burst : RxBurst) (portid : BitVec 16), 0 < burst.nbRx →
      fine burst → allowed portid →
      send { state with mbufs := burst.fill state.mbufs } burst.nbRx burst.pktsBurst portid =
        send' { state with mbufs := burst.fill state.mbufs } burst.nbRx burst.pktsBurst portid)
    (txPorts : ∀ port ∈ start.qconf.txPortId, allowed port)
    (rxPorts : ∀ queue ∈ start.qconf.rxQueueList, allowed queue.portId)
    {heads : List PollHead}
    (bursts : ∀ head ∈ heads, ∀ i, (head.2 i).nbRx ≤ env.rxBurstSize ∧ fine (head.2 i))
    {done : List PollHead} {poll : Poll}
    (polled : Polled allowed bound dstPort start drainTsc tsc done poll) :
    pollAll env send drainTsc heads poll = pollAll env send' drainTsc heads poll := by
  have reads : ∀ (rx : Nat → RxBurst), (∀ i, fine (rx i)) → ∀ (state : LcoreState),
      start.qconf.rxQueueList.zipIdx.foldlM (readRxQueue send rx) state =
        start.qconf.rxQueueList.zipIdx.foldlM (readRxQueue send' rx) state := by
    intro rx allFine state
    apply Outcome.foldlM_congr (fun ahead _ => ∀ queue ∈ ahead, allowed queue.1.portId)
    · intro queue rest state ports
      unfold readRxQueue
      by_cases empty : (rx queue.2).nbRx = 0
      · simp only [if_pos empty]
      · simp only [if_neg empty]
        exact same state (rx queue.2) queue.1.portId (Nat.pos_of_ne_zero empty)
          (allFine queue.2) (ports queue List.mem_cons_self)
    · intro queue rest state ports
      apply (Outcome.any _).imp _ id
      exact fun _ _ other member => ports other (List.mem_cons_of_mem queue member)
    · exact fun queue member => rxPorts queue.1 (List.fst_mem_of_mem_zipIdx member)
  apply Outcome.foldlM_congr (fun ahead poll =>
    (∀ head ∈ ahead, ∀ i, (head.2 i).nbRx ≤ env.rxBurstSize ∧ fine (head.2 i)) ∧
      ∃ done, Polled allowed bound dstPort start drainTsc tsc done poll)
  · rintro head rest poll ⟨bursts, done, polled⟩
    have drained := drainWhenDue_polled relays head polled txPorts
    unfold pollOnce
    cases ran : drainWhenDue env drainTsc head.1 poll with
    | error fault => rfl
    | ok next =>
        have sameList := (drained.of_ok ran).1.rxQueueList
        have queues := reads head.2 (fun i => (bursts head List.mem_cons_self i).2) next.state
        simp only [bind, Except.bind, sameList, queues]
  · rintro head rest poll ⟨bursts, done, polled⟩
    have ahead : ∀ other ∈ rest, ∀ i, (other.2 i).nbRx ≤ env.rxBurstSize ∧ fine (other.2 i) :=
      fun other member => bursts other (List.mem_cons_of_mem head member)
    apply (pollOnce_polled relays polled txPorts rxPorts
      (bursts head List.mem_cons_self)).imp _ False.elim
    intro next polled
    exact ⟨ahead, _, polled⟩
  · exact ⟨bursts, done, polled⟩

end

/-! ## What a loop guarantees -/

/-- The clock does not go back. -/
def ClockAhead (tsc : BitVec 64) (heads : List PollHead) : Prop :=
  (∀ head ∈ heads, tsc.toNat ≤ head.1.toNat) ∧
    heads.Pairwise fun left right => left.1.toNat ≤ right.1.toNat

/-- What becomes of the packets that an lcore received: all of them are in one place, each
port has only those that are for it, in the order in which they came, and only allowed ports
have any. A packet that is waiting for a drained port came in an iteration that began no longer
ago than the period of the drains, seen from the last iteration. -/
structure Conveyed (allowed : BitVec 16 → Prop) (dstPort : BurstPorts) (start : LcoreState)
    (period tsc : BitVec 64) (heads : List PollHead) (state : LcoreState) : Prop where
  custody : state.totalCustody.items.Perm
    ((receivedIn dstPort start.qconf.rxQueueList heads).map Prod.fst)
  inOrder : ∀ port, (state.transmitted port ++ (state.qconf.txMbufs port).buffered).Sublist
    (handedTo (receivedIn dstPort start.qconf.rxQueueList heads) port)
  onlyAllowed : ∀ port, state.transmitted port ++ (state.qconf.txMbufs port).buffered ≠ [] →
    ∃ other, allowed other ∧ other.toNat = port
  inTime : ClockAhead tsc heads → ∀ last ∈ heads.getLast?, ∀ port ∈ start.qconf.txPortId,
    ∀ m ∈ (state.qconf.txMbufs port.toNat).buffered,
      ∃ head ∈ heads,
        m ∈ handedTo (receivedAt dstPort start.qconf.rxQueueList head.2) port.toNat ∧
        last.1.toNat ≤ head.1.toNat + period.toNat

theorem overdue_inTime {period last now : BitVec 64} (ahead : last.toNat ≤ now.toNat)
    (notDue : ¬ Overdue period last now) : now.toNat ≤ last.toNat + period.toNat := by
  have difference := BitVec.toNat_sub_of_le (BitVec.le_def.mpr ahead)
  have small := Nat.le_of_not_lt fun more => notDue (BitVec.lt_def.mpr more)
  omega

theorem Polled.conveyed {allowed : BitVec 16 → Prop} {bound : Nat} {dstPort : BurstPorts}
    {start : LcoreState} {period tsc : BitVec 64} {heads : List PollHead} {poll : Poll}
    (polled : Polled allowed bound dstPort start period tsc heads poll)
    (emptyBuffers : ∀ port, start.txLen port = 0) (nothingSent : start.txLog = [])
    (nothingFreed : start.freed = []) : Conveyed allowed dstPort start period tsc heads poll.state where
  custody := (polled.relayed.of_empty emptyBuffers nothingSent nothingFreed).1
  inOrder := (polled.relayed.of_empty emptyBuffers nothingSent nothingFreed).2
  onlyAllowed := by
    intro port someThere
    by_contra noneAllowed
    apply someThere
    have apart : ∀ other, allowed other → other.toNat ≠ port :=
      fun other isAllowed same => noneAllowed ⟨other, isAllowed, same⟩
    rcases polled.relayed.outside port apart with ⟨tables, wires⟩
    rw [tables, wires, buffered_of_empty emptyBuffers port, LcoreState.transmitted, nothingSent]
    rfl
  inTime := by
    rintro ⟨later, sorted⟩ last isLast port isPort m waiting
    rcases List.getLast?_eq_some_iff.mp isLast with ⟨before, rfl⟩
    rcases polled.recent port isPort m waiting with ⟨head, member, received⟩
    refine ⟨head, (Swept.since_suffix tsc (before ++ [last])).subset member, received, ?_⟩
    exact Swept.age_le (fun _ _ => overdue_inTime) later sorted head member

theorem mem_pollHeads {head : PollHead} : ∀ {tsc : BitVec 64} {rounds : List PollRound},
    head ∈ pollHeads tsc rounds → ∃ round ∈ rounds, round.rx = head.2
  | _, [], member => absurd member List.not_mem_nil
  | _, round :: rounds, member => by
      rcases List.mem_cons.mp member with rfl | later
      · exact ⟨round, List.mem_cons_self, rfl⟩
      · rcases mem_pollHeads later with ⟨other, isRound, same⟩
        exact ⟨other, List.mem_cons_of_mem _ isRound, same⟩

/-- An lcore without receive queues has received nothing. -/
theorem receivedIn_nil (dstPort : BurstPorts) (heads : List PollHead) :
    receivedIn dstPort [] heads = [] := by
  rw [receivedIn, List.flatMap_eq_nil_iff]
  intro head _
  rfl

section

variable {env : Env} {allowed : BitVec 16 → Prop} {bound : Nat} {fine : RxBurst → Prop}
  {dstPort : BurstPorts} {send : BurstSender}
  (relays : Relays env allowed bound fine dstPort send) {state : LcoreState}
  (emptyBuffers : ∀ port, state.txLen port = 0) (nothingSent : state.txLog = [])
  (nothingFreed : state.freed = [])

include relays emptyBuffers nothingSent nothingFreed

/-- A loop over fine bursts conveys its packets if its sender relays them. -/
theorem pollAll_conveyed (period tsc : BitVec 64) {heads : List PollHead}
    (txPorts : ∀ port ∈ state.qconf.txPortId, allowed port)
    (rxPorts : ∀ queue ∈ state.qconf.rxQueueList, allowed queue.portId)
    (bursts : ∀ head ∈ heads, ∀ i, (head.2 i).nbRx ≤ env.rxBurstSize ∧ fine (head.2 i)) :
    ∃ poll, pollAll env send period heads ⟨state, tsc⟩ = .ok poll ∧
      Conveyed allowed dstPort state period tsc heads poll.state := by
  rcases (pollAll_polled relays period tsc emptyBuffers txPorts rxPorts bursts).exists_ok id with
    ⟨poll, returned, polled⟩
  exact ⟨poll, returned, polled.conveyed emptyBuffers nothingSent nothingFreed⟩

/-- An lcore without receive queues conveys nothing. -/
theorem idle_conveyed (idle : state.qconf.rxQueueList = []) (period tsc : BitVec 64)
    (heads : List PollHead) : Conveyed allowed dstPort state period tsc heads state := by
  have below : state.Below bound := by
    intro port _
    rw [emptyBuffers port]
    exact relays.positive
  have unused : Polled allowed bound dstPort state period tsc heads
      ⟨state, (Swept.run (Overdue period) tsc heads).last⟩ := by
    refine ⟨?_, rfl, ?_⟩
    · rw [idle, receivedIn_nil]
      exact Relayed.refl below
    · intro port _ m waiting
      rw [buffered_of_empty emptyBuffers port.toNat] at waiting
      exact absurd waiting List.not_mem_nil
  exact unused.conveyed emptyBuffers nothingSent nothingFreed

theorem pollMainLoop_conveyed (tscHz tsc : BitVec 64) {rounds : List PollRound}
    (txPorts : ∀ port ∈ state.qconf.txPortId, allowed port)
    (rxPorts : ∀ queue ∈ state.qconf.rxQueueList, allowed queue.portId)
    (bursts : ∀ round ∈ rounds, ∀ i, (round.rx i).nbRx ≤ env.rxBurstSize ∧ fine (round.rx i)) :
    ∃ poll, pollMainLoop env send tscHz tsc state rounds = .ok poll ∧
      Conveyed allowed dstPort state (drainTsc tscHz) tsc (pollHeads tsc rounds) poll.state := by
  unfold pollMainLoop
  by_cases idle : state.qconf.rxQueueList = []
  · simp only [if_pos idle]
    exact ⟨_, rfl, idle_conveyed relays emptyBuffers nothingSent nothingFreed idle _ _ _⟩
  · simp only [if_neg idle, pollLoop_eq]
    apply pollAll_conveyed relays emptyBuffers nothingSent nothingFreed _ _ txPorts rxPorts
    intro head member
    rcases mem_pollHeads member with ⟨round, isRound, same⟩
    rw [← same]
    exact bursts round isRound

end

/-! ## Lcores as they are set up -/

/-- A port that the mask enables. -/
def PortEnabled (env : Env) (port : BitVec 16) : Prop :=
  port.toNat < rteMaxEthports ∧ env.enabledPortMask.getLsbD port.toNat = true

theorem PortEnabled.exist {env : Env} (port : BitVec 16) (isEnabled : PortEnabled env port) :
    port.toNat < rteMaxEthports :=
  isEnabled.1

theorem enabledPorts_enabled {eal : Eal} {env : Env} {port : BitVec 16}
    (member : port ∈ enabledPorts eal env.enabledPortMask) : PortEnabled env port := by
  rcases mem_enabledPorts.mp member with ⟨device, inMask⟩
  have valid : port.toNat < 32 := eal.devices port device
  rw [portInMask_eq, Nat.mod_eq_of_lt valid] at inMask
  exact ⟨valid, inMask⟩

theorem enabledPorts_exist {eal : Eal} {mask : BitVec 32} (port : BitVec 16)
    (member : port ∈ enabledPorts eal mask) : port.toNat < rteMaxEthports :=
  eal.devices port (mem_enabledPorts.mp member).1

/-- An lcore that begins with its configuration and has not handled any packet. -/
def LcoreState.launched (mbufs : MbufHeap) (qconf : LcoreConf) : LcoreState :=
  ⟨mbufs, qconf, [], []⟩

/-- An lcore as it is after the set-up uses the ports that are set up. -/
structure LcoreState.SetUp (state : LcoreState) (ports : List (BitVec 16)) : Prop where
  emptyBuffers : ∀ port, state.txLen port = 0
  nothingSent : state.txLog = []
  nothingFreed : state.freed = []
  txPorts : ∀ port ∈ state.qconf.txPortId, port ∈ ports
  rxPorts : ∀ queue ∈ state.qconf.rxQueueList, queue.portId ∈ ports

theorem launched_setUp {eal : Eal} {params : List LcoreParams} {mask : BitVec 32}
    {addrs : EthAddrs} {setup : SetupState}
    (setUp : l3fwdPollResourceSetup eal params mask addrs = some setup) (lcore : Nat)
    (mbufs : MbufHeap) :
    (LcoreState.launched mbufs (setup.lcoreConf lcore)).SetUp (enabledPorts eal mask) := by
  rcases l3fwdPollResourceSetup_lcores setUp with ⟨onEnabled, onOthers, polled, empty⟩
  refine ⟨empty lcore, rfl, rfl, ?_, fun queue isPolled => (polled lcore queue isPolled).2⟩
  intro port drained
  change port ∈ (setup.lcoreConf lcore).txPortId at drained
  by_cases member : lcore ∈ enabledLcores eal
  · rw [(onEnabled lcore member).1] at drained
    exact drained
  · rw [onOthers lcore member] at drained
    exact absurd drained List.not_mem_nil

/-- Every lcore conveys its packets, if the ports that are set up are allowed. -/
theorem LcoreState.SetUp.conveyed {env : Env} {allowed : BitVec 16 → Prop} {bound : Nat}
    {fine : RxBurst → Prop} {dstPort : BurstPorts} {send : BurstSender} {state : LcoreState}
    {ports : List (BitVec 16)} (setUp : state.SetUp ports)
    (relays : Relays env allowed bound fine dstPort send)
    (all : ∀ port ∈ ports, allowed port) (tscHz tsc : BitVec 64) {rounds : List PollRound}
    (bursts : ∀ round ∈ rounds, ∀ i, (round.rx i).nbRx ≤ env.rxBurstSize ∧ fine (round.rx i)) :
    ∃ poll, pollMainLoop env send tscHz tsc state rounds = .ok poll ∧
      Conveyed allowed dstPort state (drainTsc tscHz) tsc (pollHeads tsc rounds) poll.state :=
  pollMainLoop_conveyed relays setUp.emptyBuffers setUp.nothingSent setUp.nothingFreed tscHz tsc
    (fun port drained => all port (setUp.txPorts port drained))
    (fun queue polled => all queue.portId (setUp.rxPorts queue polled)) bursts

/-- A main loop does the same with another sender if fine bursts are sent in the same way. -/
theorem LcoreState.SetUp.congr {env : Env} {allowed : BitVec 16 → Prop} {bound : Nat}
    {fine : RxBurst → Prop} {dstPort : BurstPorts} {send send' : BurstSender}
    {state : LcoreState} {ports : List (BitVec 16)} (setUp : state.SetUp ports)
    (relays : Relays env allowed bound fine dstPort send) (all : ∀ port ∈ ports, allowed port)
    (same : ∀ (state : LcoreState) (burst : RxBurst) (portid : BitVec 16), 0 < burst.nbRx →
      fine burst → allowed portid →
      send { state with mbufs := burst.fill state.mbufs } burst.nbRx burst.pktsBurst portid =
        send' { state with mbufs := burst.fill state.mbufs } burst.nbRx burst.pktsBurst portid)
    (tscHz tsc : BitVec 64) {rounds : List PollRound}
    (bursts : ∀ round ∈ rounds, ∀ i, (round.rx i).nbRx ≤ env.rxBurstSize ∧ fine (round.rx i)) :
    pollMainLoop env send tscHz tsc state rounds =
      pollMainLoop env send' tscHz tsc state rounds := by
  unfold pollMainLoop
  by_cases idle : state.qconf.rxQueueList = []
  · simp only [if_pos idle]
  · simp only [if_neg idle, pollLoop_eq]
    apply pollAll_congr relays same (fun port drained => all port (setUp.txPorts port drained))
      (fun queue polled => all queue.portId (setUp.rxPorts queue polled)) _
      (polled_nil relays (drainTsc tscHz) tsc setUp.emptyBuffers)
    intro head member
    rcases mem_pollHeads member with ⟨round, isRound, same⟩
    rw [← same]
    exact bursts round isRound

/-- One packet for the first queue. -/
def PollRound.single (m : MbufPtr) (pkt : RteMbuf) (rteRdtsc : BitVec 64) : PollRound :=
  ⟨fun i => if i = 0 then ⟨[(m, pkt)]⟩ else ⟨[]⟩, rteRdtsc⟩

theorem PollRound.single_cases (m : MbufPtr) (pkt : RteMbuf) {p : RxBurst → Prop}
    (empty : p ⟨[]⟩) (one : p ⟨[(m, pkt)]⟩) (rteRdtsc : BitVec 64) (i : Nat) :
    p ((PollRound.single m pkt rteRdtsc).rx i) := by
  unfold single
  dsimp only
  split
  · exact one
  · exact empty

theorem twoPort_setUp : ∃ setup, l3fwdPollResourceSetup twoPortEal threeQueues 0x3#32
    ⟨fun _ => 0, fun _ => 0, fun _ => 0⟩ = some setup := by
  have succeeds : (l3fwdPollResourceSetup twoPortEal threeQueues 0x3#32
      ⟨fun _ => 0, fun _ => 0, fun _ => 0⟩).isSome = true := by
    decide +kernel
  exact Option.isSome_iff_exists.mp succeeds

end PacketForwarding.L3fwd
