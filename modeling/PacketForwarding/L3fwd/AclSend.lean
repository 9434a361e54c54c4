import PacketForwarding.L3fwd.Acl
import PacketForwarding.L3fwd.SendMulti

/-! # Sending what the access control lists let through

A burst without dropped packets is sent in groups, any other burst packet by packet.
The two senders flush a transmit buffer by different rules. The runs in which they
stay inside the buffers are characterised step by step.
-/

namespace PacketForwarding.L3fwd

/-! ## The senders -/

/-- Process and send packet `j` of a burst. -/
def sendPacketSingle (env : Env) (pkts : Nat → MbufPtr)
    (result : LcoreState × (Nat → BitVec 16)) (j : Nat) :
    Except Fault (LcoreState × (Nat → BitVec 16)) := do
  let (state, hops) := result
  let pkt := state.mbufs (pkts j)
  let (data, hop) := rfc1812Process pkt.data (hops j) pkt.packetType
  let hops := Function.update hops j hop
  if hop ≠ badPort then
    let state := state.setMbuf (pkts j) { pkt with data := setEthAddrs env data hop }
    let (state, _) ← sendSinglePacket env state (pkts j) hop
    .ok (state, hops)
  else
    .ok ((state.setMbuf (pkts j) { pkt with data := data }).rtePktmbufFree (pkts j), hops)

def sendPacketsSingle (env : Env) (state : LcoreState) (pkts : Nat → MbufPtr)
    (hops : Nat → BitVec 16) (nbTx : Nat) : Except Fault LcoreState := do
  let (state, _) ← (List.range nbTx).foldlM (sendPacketSingle env pkts) (state, hops)
  .ok state

/-- `send_packets_multi` cannot deal with bad ports among the hops, so it is used only
when no packet is to be dropped. -/
def aclSendPackets (env : Env) (state : LcoreState) (pkts : Nat → MbufPtr)
    (hops : Nat → BitVec 16) (num nbDrop : Nat) : Except Fault LcoreState :=
  if nbDrop = 0 then do
    let (state, _) ← sendPacketsMulti env state pkts hops num
    .ok state
  else
    sendPacketsSingle env state pkts hops num

/-! ## Steps of the main loop -/

/-- What the main loop does to the transmit buffers: send a received burst, or drain a
port. A burst comes with what the stack holds where the search parameters go. -/
inductive AclStep
  | burst (rx : RxBurst) (aclSearch : AclSearch)
  | drain (port : BitVec 16)

namespace AclStep

def exec (env : Env) (tables : AclTables) (state : LcoreState) :
    AclStep → Except Fault LcoreState
  | burst rx aclSearch =>
      if rx.nbRx = 0 then
        .ok state
      else
        let mbufs := rx.fill state.mbufs
        let (hops, nbDrop) :=
          aclProcessPkts tables mbufs rx.pktsBurst env.stack rx.nbRx aclSearch
        aclSendPackets env { state with mbufs := mbufs } rx.pktsBurst hops rx.nbRx nbDrop
  | drain port => do
      let (state, _) ← drainTxPort env state port
      .ok state

/-- Bursts are as long as the driver was asked for, and drained ports exist. -/
def WellFormed (env : Env) : AclStep → Prop
  | burst rx _ => rx.nbRx ≤ env.rxBurstSize
  | drain port => port.toNat < rteMaxEthports

end AclStep

def runAcl (env : Env) (tables : AclTables) (state : LcoreState) (steps : List AclStep) :
    Except Fault LcoreState :=
  steps.foldlM (AclStep.exec env tables) state

/-! ## Lengths of buffers -/

/-- No buffer is longer than its table. -/
def LcoreState.WithinTables (state : LcoreState) : Prop :=
  ∀ port, port < rteMaxEthports → state.txLen port ≤ maxPktBurst

/-- The lengths of the buffers after a packet was sent or, with a bad port, freed. -/
def lensAfter (next : Nat → Nat) (lens : Nat → Nat) (port : BitVec 16) : Nat → Nat :=
  if port = badPort then lens
  else Function.update lens port.toNat (next (lens port.toNat))

theorem TxEffect.txLen_eq {state state' : LcoreState} {next : Nat → Nat}
    (effect : TxEffect state state' port handed stats) (notBad : port ≠ badPort)
    (len : state'.txLen port.toNat = next (state.txLen port.toNat)) :
    state'.txLen = lensAfter next state.txLen port := by
  funext other
  rw [lensAfter, if_neg notBad]
  by_cases same : other = port.toNat
  · rw [same, Function.update_self, len]
  · rw [Function.update_of_ne same]
    exact congrArg MbufTable.len (effect.tables other same)

theorem lensAfter_le {next lens : Nat → Nat} {port : BitVec 16}
    (within : ∀ port, port < rteMaxEthports → lens port ≤ maxPktBurst)
    (small : port = badPort ∨ next (lens port.toNat) ≤ maxPktBurst) :
    ∀ other, other < rteMaxEthports → lensAfter next lens port other ≤ maxPktBurst := by
  intro other valid
  by_cases bad : port = badPort
  · rw [lensAfter, if_pos bad]
    exact within other valid
  · rw [lensAfter, if_neg bad]
    by_cases same : other = port.toNat
    · rw [same, Function.update_self]
      exact small.resolve_left bad
    · rw [Function.update_of_ne same]
      exact within other valid

/-- Sending to a port that has room leaves room where there was room. -/
theorem lensAfter_room_iff {next lens : Nat → Nat} {port : BitVec 16}
    (room : port = badPort ∨ lens port.toNat < maxPktBurst)
    (below : port = badPort ∨ next (lens port.toNat) < maxPktBurst) (other : BitVec 16) :
    (other = badPort ∨ lensAfter next lens port other.toNat < maxPktBurst) ↔
      (other = badPort ∨ lens other.toNat < maxPktBurst) := by
  by_cases bad : port = badPort
  · rw [lensAfter, if_pos bad]
  · rw [lensAfter, if_neg bad]
    by_cases same : other = port
    · have roomAfter := below.resolve_left bad
      have roomBefore := room.resolve_left bad
      rw [same, Function.update_self]
      exact ⟨fun _ => Or.inr roomBefore, fun _ => Or.inr roomAfter⟩
    · have different : other.toNat ≠ port.toNat :=
        fun equal => same (BitVec.eq_of_toNat_eq equal)
      rw [Function.update_of_ne different]

theorem SendablePort.checkedPort {port : BitVec 16} (sendable : SendablePort port)
    (pkt : RteMbuf) : SendablePort (pkt.checkedPort port) := by
  unfold RteMbuf.checkedPort
  split
  · exact Or.inl rfl
  · exact sendable

theorem sendablePort_aclHop {tables : AclTables} (exist : tables.PortsExist) (pkt : RteMbuf) :
    SendablePort (aclHop tables pkt) := by
  by_cases forwards : Forwards (aclResult tables pkt)
  · exact Or.inr (aclHop_lt exist pkt forwards)
  · exact Or.inl (if_neg forwards)

theorem SendablePort.toNat_lt {port : BitVec 16} (sendable : SendablePort port)
    (notBad : port ≠ badPort) : port.toNat < rteMaxEthports :=
  sendable.resolve_left notBad

/-! ## Packet by packet -/

/-- The destination ports with which packets are sent one by one find room. -/
def SinglesFit (env : Env) : (Nat → Nat) → List (BitVec 16) → Prop
  | _, [] => True
  | lens, port :: rest =>
      (port = badPort ∨ lens port.toNat < maxPktBurst) ∧
        SinglesFit env (lensAfter (singleLen env) lens port) rest

/-- A buffer below the flush length is always flushed in time. A longer one is never
flushed, so it has to have room for all its packets. -/
theorem singlesFit_iff {env : Env} (burst : env.rxBurstSize ≤ maxPktBurst) :
    ∀ (ports : List (BitVec 16)) (lens : Nat → Nat),
      (∀ port, port < rteMaxEthports → lens port ≤ maxPktBurst) →
      (∀ port ∈ ports, SendablePort port) →
      (SinglesFit env lens ports ↔ ∀ port, port < rteMaxEthports →
        lens port < env.rxBurstSize ∨
          lens port + ports.countP (fun other => other.toNat = port) ≤ maxPktBurst) := by
  intro ports
  induction ports with
  | nil =>
      intro lens within _
      refine ⟨fun _ port valid => Or.inr ?_, fun _ => trivial⟩
      exact within port valid
  | cons head rest induction =>
      intro lens within sendable
      have headSendable := sendable head List.mem_cons_self
      have restSendable : ∀ port ∈ rest, SendablePort port :=
        fun port member => sendable port (List.mem_cons_of_mem head member)
      have others : ∀ port, head.toNat ≠ port →
          (head :: rest).countP (fun other => other.toNat = port) =
            rest.countP (fun other => other.toNat = port) := by
        intro port different
        exact List.countP_cons_of_neg (by simpa using different)
      by_cases bad : head = badPort
      · have same := induction lens within restSendable
        simp only [SinglesFit, lensAfter, bad, if_true, true_or, true_and]
        rw [same]
        refine forall₂_congr fun port valid => ?_
        have far : head.toNat ≠ port := by
          rw [bad]
          rintro rfl
          exact absurd valid (by decide)
        rw [← bad, others port far]
      · have valid := headSendable.toNat_lt bad
        have counted : (head :: rest).countP (fun other => other.toNat = head.toNat) =
            rest.countP (fun other => other.toNat = head.toNat) + 1 :=
          List.countP_cons_of_pos (by simp)
        by_cases room : lens head.toNat < maxPktBurst
        · have same := induction (lensAfter (singleLen env) lens head)
            (lensAfter_le within (Or.inr (singleLen_le env room))) restSendable
          simp only [SinglesFit, room, or_true, true_and]
          rw [same]
          refine forall₂_congr fun port _ => ?_
          rw [lensAfter, if_neg bad]
          by_cases isHead : port = head.toNat
          · subst isHead
            rw [Function.update_self, counted, singleLen]
            split
            · omega
            · omega
          · rw [Function.update_of_ne isHead, others port (Ne.symm isHead)]
        · have full : ¬ (head = badPort ∨ lens head.toNat < maxPktBurst) :=
            not_or_intro bad room
          refine ⟨fun fits => absurd fits.1 full, fun fits => ?_⟩
          have atHead := fits head.toNat valid
          rw [counted] at atHead
          omega

theorem sameVerdict_setMbuf {state : LcoreState} {m : MbufPtr} {pkt : RteMbuf}
    (same : SameVerdict (state.mbufs m) pkt) (name : MbufPtr) :
    SameVerdict (state.mbufs name) ((state.setMbuf m pkt).mbufs name) := by
  by_cases here : name = m
  · subst here
    simpa [LcoreState.setMbuf] using same
  · simpa [LcoreState.setMbuf, here] using SameVerdict.refl (state.mbufs name)

theorem sendSinglePacket_guarded {env : Env} (state : LcoreState) (m : MbufPtr)
    {port : BitVec 16} (valid : port.toNat < rteMaxEthports)
    (within : state.WithinTables) :
    Guarded (state.txLen port.toNat < maxPktBurst)
      (fun result => result.1.txLen = lensAfter (singleLen env) state.txLen port ∧
        result.1.mbufs = state.mbufs)
      (.mTableIndex maxPktBurst) (sendSinglePacket env state m port) where
  returns := by
    intro room
    rcases sendSinglePacket_spec env state m valid room with ⟨state', sent, run, effect, len⟩
    exact ⟨_, run, effect.txLen_eq (ne_badPort_of_valid valid) len, effect.mbufs⟩
  faults := by
    intro full
    have isFull : state.txLen port.toNat = maxPktBurst :=
      Nat.le_antisymm (within _ valid) (Nat.le_of_not_lt full)
    have run := sendSinglePacket_full env state m valid (Nat.le_of_eq isFull.symm)
    rw [isFull] at run
    exact run

/-- What sending a packet on its own leaves behind: its buffer is longer or flushed,
and the checks find of every packet what they found before. -/
structure SentSingle (env : Env) (port : BitVec 16) (j : Nat)
    (before after : LcoreState × (Nat → BitVec 16)) : Prop where
  lens : after.1.txLen = lensAfter (singleLen env) before.1.txLen port
  verdict : ∀ name, SameVerdict (before.1.mbufs name) (after.1.mbufs name)
  hops : ∀ i, i ≠ j → after.2 i = before.2 i

theorem sendPacketSingle_guarded (env : Env) (pkts : Nat → MbufPtr)
    (result : LcoreState × (Nat → BitVec 16)) (j : Nat) {port : BitVec 16}
    (isPort : (result.1.mbufs (pkts j)).checkedPort (result.2 j) = port)
    (sendable : SendablePort port) (within : result.1.WithinTables) :
    Guarded (port = badPort ∨ result.1.txLen port.toNat < maxPktBurst)
      (SentSingle env port j result) (.mTableIndex maxPktBurst)
      (sendPacketSingle env pkts result j) := by
  rcases result with ⟨state, hops⟩
  have processed := sameVerdict_rfc1812 (state.mbufs (pkts j)) (hops j)
  have hop : (rfc1812Process (state.mbufs (pkts j)).data (hops j)
      (state.mbufs (pkts j)).packetType).2 = port := by
    rw [rfc1812Process_port]
    exact isPort
  have otherHops : ∀ i, i ≠ j → Function.update hops j port i = hops i :=
    fun i different => Function.update_of_ne different _ _
  simp only [sendPacketSingle, hop]
  by_cases bad : port = badPort
  · have notSent : ¬ port ≠ badPort := not_not_intro bad
    rw [if_neg notSent]
    refine ⟨fun _ => ⟨_, rfl, ?_, sameVerdict_setMbuf processed, otherHops⟩, ?_⟩
    · rw [lensAfter, if_pos bad]
      rfl
    · exact fun notBad => absurd (Or.inl bad) notBad
  · have valid := sendable.toNat_lt bad
    have rewritten := processed.trans _ _ _ (sameVerdict_setEthAddrs env _ port)
    have verdict := sameVerdict_setMbuf rewritten
    rw [if_pos bad]
    refine ((sendSinglePacket_guarded (state.setMbuf (pkts j) _) (pkts j) valid within).map
      (fun sent => (sent.1, Function.update hops j port)) ?_).iff ?_
    · rintro ⟨state', sent⟩ ⟨lens, mbufs⟩
      refine ⟨lens, ?_, otherHops⟩
      intro name
      rw [mbufs]
      exact verdict name
    · exact (or_iff_right bad).symm

/-- The destination ports of packets `first, ..., first + count - 1` after the checks. -/
def checkedPorts (mbufs : MbufHeap) (pkts : Nat → MbufPtr) (hops : Nat → BitVec 16)
    (first count : Nat) : List (BitVec 16) :=
  (List.range' first count).map fun i => (mbufs (pkts i)).checkedPort (hops i)

theorem sendPacketsSingle_loop (env : Env) (pkts : Nat → MbufPtr) :
    ∀ count first (result : LcoreState × (Nat → BitVec 16)), result.1.WithinTables →
      (∀ port ∈ checkedPorts result.1.mbufs pkts result.2 first count, SendablePort port) →
      Guarded
        (SinglesFit env result.1.txLen (checkedPorts result.1.mbufs pkts result.2 first count))
        (fun last => last.1.WithinTables) (.mTableIndex maxPktBurst)
        ((List.range' first count).foldlM (sendPacketSingle env pkts) result) := by
  intro count
  induction count with
  | zero =>
      intro first result within _
      exact ⟨fun _ => ⟨result, rfl, within⟩, fun fails => absurd trivial fails⟩
  | succ count induction =>
      intro first result within sendable
      have unfolded : checkedPorts result.1.mbufs pkts result.2 first (count + 1) =
          (result.1.mbufs (pkts first)).checkedPort (result.2 first) ::
            checkedPorts result.1.mbufs pkts result.2 (first + 1) count := by
        rw [checkedPorts, List.range'_succ, List.map_cons]
        rfl
      rw [unfolded] at sendable ⊢
      have headSendable := sendable _ List.mem_cons_self
      generalize isPort : (result.1.mbufs (pkts first)).checkedPort (result.2 first) = port at *
      rw [List.range'_succ, List.foldlM_cons]
      by_cases room : port = badPort ∨ result.1.txLen port.toNat < maxPktBurst
      · have small : port = badPort ∨
            singleLen env (result.1.txLen port.toNat) ≤ maxPktBurst :=
          room.imp id (singleLen_le env)
        refine (sendPacketSingle_guarded env pkts result first isPort headSendable within).andThen ?_
        intro next sent
        have samePorts : checkedPorts next.1.mbufs pkts next.2 (first + 1) count =
            checkedPorts result.1.mbufs pkts result.2 (first + 1) count := by
          apply List.map_congr_left
          intro i member
          have behind := (List.mem_range'_1.mp member).1
          rw [(sent.verdict _).checkedPort, sent.hops i (Nat.ne_of_gt behind)]
        have nextWithin : next.1.WithinTables := by
          intro other valid
          rw [sent.lens]
          exact lensAfter_le within small other valid
        have rest := induction (first + 1) next nextWithin (by
          rw [samePorts]
          exact fun port member => sendable port (List.mem_cons_of_mem _ member))
        rw [samePorts, sent.lens] at rest
        exact rest
      · have stopped := (sendPacketSingle_guarded env pkts result first isPort headSendable
          within).faults room
        refine ⟨fun fits => absurd fits.1 room, fun _ => ?_⟩
        rw [stopped]
        rfl

theorem sendPacketsSingle_guarded {env : Env} (burst : env.rxBurstSize ≤ maxPktBurst)
    (state : LcoreState) (pkts : Nat → MbufPtr) (hops : Nat → BitVec 16) (nbTx : Nat)
    (within : state.WithinTables)
    (sendable : ∀ port ∈ checkedPorts state.mbufs pkts hops 0 nbTx, SendablePort port) :
    Guarded
      (∀ port, port < rteMaxEthports → state.txLen port < env.rxBurstSize ∨
        state.txLen port + (checkedPorts state.mbufs pkts hops 0 nbTx).countP
          (fun other => other.toNat = port) ≤ maxPktBurst)
      LcoreState.WithinTables (.mTableIndex maxPktBurst)
      (sendPacketsSingle env state pkts hops nbTx) := by
  have loop := sendPacketsSingle_loop env pkts nbTx 0 (state, hops) within sendable
  rw [← List.range_eq_range'] at loop
  exact (loop.map Prod.fst fun _ lastWithin => lastWithin).iff
    (singlesFit_iff burst _ _ within sendable)

/-! ## In groups -/

theorem Dispatch.exec_guarded (env : Env) (pktsBurst : Nat → MbufPtr)
    (result : LcoreState × TxStats) {group : Dispatch} (positive : 0 < group.count)
    (inside : group.count ≤ maxPktBurst) (sendable : SendablePort group.port)
    (within : result.1.WithinTables) :
    Guarded (group.port = badPort ∨ result.1.txLen group.port.toNat < maxPktBurst)
      (fun next => next.1.txLen =
        lensAfter (fun len => x4Len env len group.count) result.1.txLen group.port)
      (.mTableIndex maxPktBurst) (group.exec env pktsBurst result) := by
  by_cases bad : group.port = badPort
  · have notSent : ¬ group.port ≠ badPort := not_not_intro bad
    rw [Dispatch.exec, if_neg notSent]
    refine ⟨fun _ => ⟨_, rfl, ?_⟩, fun notBad => absurd (Or.inl bad) notBad⟩
    rw [lensAfter, if_pos bad]
    rfl
  · have valid := sendable.toNat_lt bad
    rw [Dispatch.exec, if_pos bad]
    by_cases room : result.1.txLen group.port.toNat < maxPktBurst
    · rcases sendPacketsx4_spec env result.1 (fun i => pktsBurst (group.first + i)) valid room
        positive inside with ⟨state', stats, sent, effect, len⟩
      refine ⟨fun _ => ?_, fun full => absurd (Or.inr room) full⟩
      simp only [sent, bind, Except.bind]
      exact ⟨_, rfl, effect.txLen_eq bad len⟩
    · have isFull : result.1.txLen group.port.toNat = maxPktBurst :=
        Nat.le_antisymm (within _ valid) (Nat.le_of_not_lt room)
      refine ⟨fun fits => absurd fits (not_or_intro bad room), fun _ => ?_⟩
      have stopped := sendPacketsx4_full env result.1 (fun i => pktsBurst (group.first + i)) valid
        (Nat.le_of_eq isFull.symm) positive
      rw [isFull] at stopped
      simp only [stopped, bind, Except.bind]

/-- Groups find room if no buffer is full before the first of them. -/
theorem Dispatch.foldlM_guarded (env : Env) (pktsBurst : Nat → MbufPtr) :
    ∀ (groups : List Dispatch) (result : LcoreState × TxStats), result.1.WithinTables →
      (∀ group ∈ groups, 0 < group.count ∧ group.count ≤ maxPktBurst ∧
        SendablePort group.port) →
      Guarded (∀ group ∈ groups,
          group.port = badPort ∨ result.1.txLen group.port.toNat < maxPktBurst)
        (fun last => last.1.WithinTables) (.mTableIndex maxPktBurst)
        (groups.foldlM (Dispatch.exec env pktsBurst) result) := by
  intro groups
  induction groups with
  | nil =>
      intro result within _
      refine ⟨fun _ => ⟨result, rfl, within⟩, fun fails => absurd ?_ fails⟩
      exact fun group member => absurd member List.not_mem_nil
  | cons group rest induction =>
      intro result within wellFormed
      rcases wellFormed group List.mem_cons_self with ⟨positive, inside, sendable⟩
      have step := group.exec_guarded env pktsBurst result positive inside sendable within
      rw [List.foldlM_cons]
      by_cases room : group.port = badPort ∨ result.1.txLen group.port.toNat < maxPktBurst
      · have below : group.port = badPort ∨
            x4Len env (result.1.txLen group.port.toNat) group.count < maxPktBurst :=
          room.imp id fun notFull => x4Len_lt env notFull inside
        have continues : ∀ next : LcoreState × TxStats, next.1.txLen =
              lensAfter (fun len => x4Len env len group.count) result.1.txLen group.port →
            Guarded (∀ other ∈ rest,
                other.port = badPort ∨ result.1.txLen other.port.toNat < maxPktBurst)
              (fun last => last.1.WithinTables) (.mTableIndex maxPktBurst)
              (rest.foldlM (Dispatch.exec env pktsBurst) next) := by
          intro next lens
          have nextWithin : next.1.WithinTables := by
            intro port valid
            rw [lens]
            exact lensAfter_le within (below.imp id Nat.le_of_lt) port valid
          refine (induction next nextWithin fun other member =>
            wellFormed other (List.mem_cons_of_mem group member)).iff ?_
          rw [lens]
          exact forall₂_congr fun other _ => lensAfter_room_iff room below other.port
        refine (step.andThen continues).iff ?_
        rw [List.forall_mem_cons]
      · refine ⟨fun fits => absurd (fits group List.mem_cons_self) room, fun _ => ?_⟩
        rw [step.faults room]
        rfl

theorem sendPacketsMulti_guarded (env : Env) (state : LcoreState) (pkts : Nat → MbufPtr)
    (hops : Nat → BitVec 16) {num : Nat} (within : state.WithinTables) (positive : 0 < num)
    (inside : num ≤ maxPktBurst) (ports : ∀ i, i < num → (hops i).toNat < rteMaxEthports) :
    Guarded (∀ port ∈ checkedPorts state.mbufs pkts hops 0 num,
        port = badPort ∨ state.txLen port.toNat < maxPktBurst)
      (fun last => last.1.WithinTables) (.mTableIndex maxPktBurst)
      (sendPacketsMulti env state pkts hops num) := by
  rcases sendPacketsMulti_eq env state pkts hops positive inside
    (fun i below => ne_badPort_pred (ports i below)) with
    ⟨grouping, runs, _, checked, _, tiled, sent⟩
  have final : ∀ i, i < num →
      grouping.packets.2 i = (state.mbufs (pkts i)).checkedPort (hops i) := by
    intro i below
    exact checked.inside i (Nat.zero_le i) (by omega)
  have groupsInside : ∀ group ∈ groupsOf grouping.packets.2 runs, ∃ i, i < num ∧
      group.port = (state.mbufs (pkts i)).checkedPort (hops i) ∧
      0 < group.count ∧ group.count ≤ maxPktBurst := by
    intro group member
    rcases List.mem_map.mp member with ⟨run, inRuns, rfl⟩
    have maximal := tiled.maximalRun_of_mem inRuns
    have runPositive := maximal.positive
    have runInside := maximal.inside
    have first : run.1 < num := by omega
    exact ⟨run.1, first, final run.1 first, runPositive, by dsimp only; omega⟩
  have samePorts : (∀ group ∈ groupsOf grouping.packets.2 runs,
        group.port = badPort ∨ state.txLen group.port.toNat < maxPktBurst) ↔
      ∀ port ∈ checkedPorts state.mbufs pkts hops 0 num,
        port = badPort ∨ state.txLen port.toNat < maxPktBurst := by
    refine (forall_groupsOf_iff tiled fun port =>
      port = badPort ∨ state.txLen port.toNat < maxPktBurst).trans ?_
    rw [checkedPorts, ← List.range_eq_range', List.forall_mem_map]
    simp only [List.mem_range]
    refine forall₂_congr fun i below => ?_
    rw [final i below]
  rw [sent]
  refine (Dispatch.foldlM_guarded env pkts _ ({ state with mbufs := grouping.packets.1 }, ⟨0, 0⟩)
    within ?_).iff samePorts
  intro group member
  rcases groupsInside group member with ⟨i, below, port, groupPositive, groupInside⟩
  refine ⟨groupPositive, groupInside, ?_⟩
  rw [port]
  have sendable : SendablePort (hops i) := Or.inr (ports i below)
  exact sendable.checkedPort _

/-! ## Runs -/

namespace AclStep

/-- The destination ports of a received burst after the checks. -/
def ports (tables : AclTables) (mbufs : MbufHeap) (rx : RxBurst) : List (BitVec 16) :=
  checkedPorts mbufs rx.pktsBurst (fun i => aclHop tables (mbufs (rx.pktsBurst i))) 0 rx.nbRx

/-- No packet of a burst is denied. -/
def AllForwarded (tables : AclTables) (mbufs : MbufHeap) (rx : RxBurst) : Prop :=
  ∀ i, i < rx.nbRx → Forwards (aclResult tables (mbufs (rx.pktsBurst i)))

/-- The buffers have room for a step. A burst without denied packets must not meet a
full buffer. In any other burst, a buffer that has grown past the flush length must
have room for all packets that go to it. -/
def RoomFor (env : Env) (tables : AclTables) (state : LcoreState) : AclStep → Prop
  | burst rx _ =>
      (AllForwarded tables (rx.fill state.mbufs) rx →
        ∀ port ∈ ports tables (rx.fill state.mbufs) rx,
          port = badPort ∨ state.txLen port.toNat < maxPktBurst) ∧
      (¬ AllForwarded tables (rx.fill state.mbufs) rx →
        ∀ port, port < rteMaxEthports → state.txLen port < env.rxBurstSize ∨
          state.txLen port + (ports tables (rx.fill state.mbufs) rx).countP
            (fun other => other.toNat = port) ≤ maxPktBurst)
  | drain _ => True

/-- Nothing is counted as dropped if and only if nothing is denied. -/
theorem noDrop_iff (tables : AclTables) (mbufs : MbufHeap) (rx : RxBurst) :
    Nat.count (fun i => ¬ Forwards (aclResult tables (mbufs (rx.pktsBurst i)))) rx.nbRx = 0 ↔
      AllForwarded tables mbufs rx := by
  rw [Nat.count_iff_forall_not]
  exact forall₂_congr fun i _ => not_not

theorem ports_sendable {tables : AclTables} (exist : tables.PortsExist) (mbufs : MbufHeap)
    (rx : RxBurst) : ∀ port ∈ ports tables mbufs rx, SendablePort port := by
  intro port member
  rcases List.mem_map.mp member with ⟨i, _, rfl⟩
  exact (sendablePort_aclHop exist _).checkedPort _

/-- A burst that is not empty is sent in groups or one by one. -/
theorem aclSendPackets_guarded {env : Env} {tables : AclTables} (exist : tables.PortsExist)
    (rxBurst : env.rxBurstSize ≤ maxPktBurst) {state : LcoreState} (within : state.WithinTables)
    (mbufs : MbufHeap) {rx : RxBurst} (aclSearch : AclSearch) (positive : 0 < rx.nbRx)
    (inside : rx.nbRx ≤ maxPktBurst) :
    let processed := aclProcessPkts tables mbufs rx.pktsBurst env.stack rx.nbRx aclSearch
    Guarded
      ((AllForwarded tables mbufs rx →
          ∀ port ∈ ports tables mbufs rx, port = badPort ∨ state.txLen port.toNat < maxPktBurst) ∧
        (¬ AllForwarded tables mbufs rx →
          ∀ port, port < rteMaxEthports → state.txLen port < env.rxBurstSize ∨
            state.txLen port + (ports tables mbufs rx).countP
              (fun other => other.toNat = port) ≤ maxPktBurst))
      LcoreState.WithinTables (.mTableIndex maxPktBurst)
      (aclSendPackets env { state with mbufs := mbufs } rx.pktsBurst processed.1 rx.nbRx
        processed.2) := by
  intro processed
  rcases aclProcessPkts_spec tables mbufs rx.pktsBurst env.stack rx.nbRx aclSearch with
    ⟨hops, _, drops⟩
  have samePorts : checkedPorts mbufs rx.pktsBurst processed.1 0 rx.nbRx =
      ports tables mbufs rx := by
    apply List.map_congr_left
    intro i member
    rw [hops i (by simpa using (List.mem_range'_1.mp member).2)]
  rw [aclSendPackets, drops]
  by_cases forwarded : AllForwarded tables mbufs rx
  · rw [if_pos ((noDrop_iff tables mbufs rx).mpr forwarded)]
    have valid : ∀ i, i < rx.nbRx → (processed.1 i).toNat < rteMaxEthports := by
      intro i below
      rw [hops i below]
      exact aclHop_lt exist _ (forwarded i below)
    have sent := sendPacketsMulti_guarded env { state with mbufs := mbufs } rx.pktsBurst
      processed.1 within positive inside valid
    rw [samePorts] at sent
    apply (sent.map Prod.fst fun _ lastWithin => lastWithin).iff
    simp only [forwarded, true_imp_iff, not_true_eq_false, false_imp_iff, and_true]
    rfl
  · rw [if_neg fun none => forwarded ((noDrop_iff tables mbufs rx).mp none)]
    have sendable : ∀ port ∈ checkedPorts mbufs rx.pktsBurst processed.1 0 rx.nbRx,
        SendablePort port := by
      rw [samePorts]
      exact ports_sendable exist mbufs rx
    have sent := sendPacketsSingle_guarded rxBurst { state with mbufs := mbufs } rx.pktsBurst
      processed.1 rx.nbRx within sendable
    rw [samePorts] at sent
    apply sent.iff
    simp only [forwarded, not_false_eq_true, true_imp_iff, false_imp_iff, true_and]
    rfl

theorem drain_within (env : Env) (tables : AclTables) {state : LcoreState} {port : BitVec 16}
    (valid : port.toNat < rteMaxEthports) (within : state.WithinTables) :
    ∃ state', exec env tables state (drain port) = .ok state' ∧ state'.WithinTables := by
  rcases drainTxPort_spec env state valid (within _ valid) with ⟨state', stats, run, effect, len⟩
  refine ⟨state', ?_, ?_⟩
  · simp only [exec, run]
    rfl
  · intro other otherValid
    by_cases same : other = port.toNat
    · rw [same, len]
      exact Nat.zero_le _
    · have kept := congrArg MbufTable.len (effect.tables other same)
      exact Nat.le_trans (Nat.le_of_eq kept) (within other otherValid)

/-- Buffers that are all below the flush length have room for any step. -/
theorem roomFor_of_below {env : Env} {tables : AclTables} (exist : tables.PortsExist)
    (rxBurst : env.rxBurstSize ≤ maxPktBurst) {state : LcoreState}
    (below : ∀ port, port < rteMaxEthports → state.txLen port < env.rxBurstSize)
    (step : AclStep) : step.RoomFor env tables state := by
  cases step with
  | burst rx aclSearch =>
      refine ⟨?_, fun _ port valid => Or.inl (below port valid)⟩
      intro _ port member
      rcases ports_sendable exist (rx.fill state.mbufs) rx port member with bad | valid
      · exact Or.inl bad
      · exact Or.inr (Nat.lt_of_lt_of_le (below port.toNat valid) rxBurst)
  | drain port => trivial

theorem exec_guarded {env : Env} {tables : AclTables} (exist : tables.PortsExist)
    (rxBurst : env.rxBurstSize ≤ maxPktBurst) {state : LcoreState} {step : AclStep}
    (wellFormed : step.WellFormed env) (within : state.WithinTables) :
    Guarded (step.RoomFor env tables state) LcoreState.WithinTables (.mTableIndex maxPktBurst)
      (step.exec env tables state) := by
  cases step with
  | burst rx aclSearch =>
      simp only [RoomFor, exec]
      by_cases empty : rx.nbRx = 0
      · rw [if_pos empty]
        refine ⟨fun _ => ⟨state, rfl, within⟩, fun fails => absurd ?_ fails⟩
        have noPorts : ports tables (rx.fill state.mbufs) rx = [] := by
          rw [ports, checkedPorts, empty]
          rfl
        rw [noPorts]
        refine ⟨fun _ port member => absurd member List.not_mem_nil, fun denied => ?_⟩
        refine absurd ?_ denied
        intro i below
        rw [empty] at below
        exact absurd below (Nat.not_lt_zero i)
      · rw [if_neg empty]
        exact aclSendPackets_guarded exist rxBurst within (rx.fill state.mbufs) aclSearch
          (Nat.pos_of_ne_zero empty) (Nat.le_trans wellFormed rxBurst)
  | drain port =>
      have drained := drain_within env tables wellFormed within
      exact ⟨fun _ => drained, fun fails => absurd trivial fails⟩

end AclStep

theorem runAcl_guarded {env : Env} {tables : AclTables} (exist : tables.PortsExist)
    (rxBurst : env.rxBurstSize ≤ maxPktBurst) {state : LcoreState} (steps : List AclStep)
    (wellFormed : ∀ step ∈ steps, step.WellFormed env) (within : state.WithinTables) :
    Guarded (AllAlong (AclStep.exec env tables) (AclStep.RoomFor env tables) state steps)
      LcoreState.WithinTables (.mTableIndex maxPktBurst) (runAcl env tables state steps) :=
  Guarded.foldlM steps state
    (fun step member _ within => step.exec_guarded exist rxBurst (wellFormed step member) within)
    within

theorem withinTables_of_empty {state : LcoreState}
    (emptyBuffers : ∀ port, port < rteMaxEthports → state.txLen port = 0) :
    state.WithinTables := by
  intro port valid
  rw [emptyBuffers port valid]
  exact Nat.zero_le _

/-- A run never writes behind a buffer and keeps all lengths within the tables if and
only if every step of it finds room. -/
theorem runAcl_withinTables_iff (env : Env) (tables : AclTables) (exist : tables.PortsExist)
    (state : LcoreState) (steps : List AclStep)
    (rxBurst : 1 ≤ env.rxBurstSize ∧ env.rxBurstSize ≤ maxPktBurst)
    (emptyBuffers : ∀ port, port < rteMaxEthports → state.txLen port = 0)
    (wellFormed : ∀ step ∈ steps, step.WellFormed env) :
    ((∀ index, runAcl env tables state steps ≠ .error (.mTableIndex index)) ∧
      ∀ done, done <+: steps → ∀ reached, runAcl env tables state done = .ok reached →
        reached.WithinTables) ↔
      AllAlong (AclStep.exec env tables) (AclStep.RoomFor env tables) state steps := by
  have within := withinTables_of_empty emptyBuffers
  have whole := runAcl_guarded exist rxBurst.2 steps wellFormed within
  constructor
  · intro safe
    by_contra noRoom
    exact safe.1 maxPktBurst (whole.faults noRoom)
  · intro room
    refine ⟨?_, ?_⟩
    · rcases whole.returns room with ⟨last, returned, _⟩
      intro index faulted
      rw [returned] at faulted
      cases faulted
    · intro done isPrefix reached returned
      have part := runAcl_guarded exist rxBurst.2 done
        (fun step member => wellFormed step (isPrefix.subset member)) within
      exact (part.of_ok returned).2

/-- Two packets wait when a burst with a denied packet comes in, and are sent with it. -/
theorem runAcl_withinTables_iff_denied :
    let env : Env := { (default : Env) with
      rxBurstSize := 32, txBurstSize := 32, txAccept := fun _ => 32 }
    let tables : AclTables := ⟨fun _ => 1#32 + fwdPortShift, fun _ => aclDenySignature⟩
    let denied : RteMbuf := { (default : RteMbuf) with packetType := rtePtypeL3Ipv6 }
    let steps : List AclStep := [.burst ⟨[(4, routedPacket), (5, routedPacket)]⟩ default,
      .burst ⟨[(6, routedPacket), (7, denied)]⟩ default, .drain 1#16]
    (∀ index, runAcl env tables default steps ≠ .error (.mTableIndex index)) ∧
      (runAcl env tables default steps).map (fun state => (state.txLog.length, state.freed)) =
        .ok (1, [7]) := by
  intro env tables denied steps
  have refused : ¬ Forwards aclDenySignature := by decide
  have portOne : (1#32 + fwdPortShift - fwdPortShift).toNat < rteMaxEthports := by decide
  have exist : tables.PortsExist :=
    ⟨fun _ _ => portOne, fun _ forwards => absurd forwards refused⟩
  have wellFormed : ∀ step ∈ steps, step.WellFormed env := by
    intro step member
    rcases List.mem_cons.mp member with rfl | member
    · exact Nat.le_of_ble_eq_true rfl
    · rcases List.mem_pair.mp member with rfl | rfl
      · exact Nat.le_of_ble_eq_true rfl
      · exact Nat.lt_of_sub_ne_zero (by decide)
  have empty : ∀ port : Nat, (default : LcoreState).txLen port = 0 := fun _ => rfl
  have waiting : ((AclStep.burst ⟨[(4, routedPacket), (5, routedPacket)]⟩ default).exec env tables
      default).map (fun state => decide (∀ port < rteMaxEthports, state.txLen port < 32)) =
        .ok true := by
    decide +kernel
  refine ⟨((runAcl_withinTables_iff env tables exist default steps ⟨by decide, by decide⟩
    (fun port _ => empty port) wellFormed).mpr ?_).1, by decide +kernel⟩
  refine ⟨AclStep.roomFor_of_below exist (by decide) ?_ _, ?_⟩
  · intro port _
    rw [empty port]
    decide
  · intro next returned
    rw [returned] at waiting
    have short := of_decide_eq_true (Except.ok.inj waiting)
    exact ⟨AclStep.roomFor_of_below exist (by decide) short _, fun _ _ =>
      ⟨trivial, fun _ _ => trivial⟩⟩

/-- A burst to one port is one group. -/
theorem sendPacketsMulti_onePort (env : Env) (state : LcoreState) (pkts : Nat → MbufPtr)
    (hops : Nat → BitVec 16) {num : Nat} {port : BitVec 16} (within : state.WithinTables)
    (positive : 0 < num) (inside : num ≤ maxPktBurst) (valid : port.toNat < rteMaxEthports)
    (room : state.txLen port.toNat < maxPktBurst)
    (toPort : ∀ i, i < num → hops i = port ∧ ¬ (state.mbufs (pkts i)).Bad) :
    ∃ result, sendPacketsMulti env state pkts hops num = .ok result ∧
      result.1.txLen = lensAfter (fun len => x4Len env len num) state.txLen port := by
  rcases sendPacketsMulti_eq env state pkts hops positive inside
    (fun i below => by
      rw [(toPort i below).1]
      exact ne_badPort_pred valid) with ⟨grouping, runs, _, checked, _, tiled, sent⟩
  have final : ∀ i, i < num → grouping.packets.2 i = port := by
    intro i below
    rcases toPort i below with ⟨hop, good⟩
    rw [checked.inside i (Nat.zero_le i) (by omega), RteMbuf.checkedPort, if_neg good]
    exact hop
  have oneRun : Runs.MaximalRun grouping.packets.2 num 0 num := by
    refine ⟨positive, Or.inl rfl, Nat.le_of_eq (Nat.zero_add num), ?_, Or.inl (Nat.zero_add num)⟩
    intro offset below
    rw [Nat.zero_add, final offset below, final 0 positive]
  have groups : groupsOf grouping.packets.2 runs = [⟨0, num, port⟩] := by
    rw [tiled.eq_singleton oneRun, groupsOf, List.map_singleton, final 0 positive]
  have step := @Dispatch.exec_guarded env pkts
    ({ state with mbufs := grouping.packets.1 }, ⟨0, 0⟩) ⟨0, num, port⟩
    positive inside (Or.inr valid) within
  rcases step.returns (Or.inr room) with ⟨result, returned, lens⟩
  refine ⟨result, ?_, lens⟩
  rw [sent, groups, List.foldlM_cons, returned]
  rfl

theorem AclStep.exec_onePort (env : Env) (tables : AclTables) {state : LcoreState}
    (rx : RxBurst) (aclSearch : AclSearch) {port : BitVec 16} (within : state.WithinTables)
    (positive : 0 < rx.nbRx) (inside : rx.nbRx ≤ maxPktBurst)
    (valid : port.toNat < rteMaxEthports) (room : state.txLen port.toNat < maxPktBurst)
    (toPort : ∀ i, i < rx.nbRx →
      Forwards (aclResult tables (rx.fill state.mbufs (rx.pktsBurst i))) ∧
      aclHop tables (rx.fill state.mbufs (rx.pktsBurst i)) = port ∧
      ¬ (rx.fill state.mbufs (rx.pktsBurst i)).Bad) :
    ∃ state', (AclStep.burst rx aclSearch).exec env tables state = .ok state' ∧
      state'.txLen = lensAfter (fun len => x4Len env len rx.nbRx) state.txLen port := by
  have some : rx.nbRx ≠ 0 := Nat.ne_of_gt positive
  simp only [AclStep.exec, if_neg some]
  generalize rx.fill state.mbufs = mbufs at toPort
  rcases aclProcessPkts_spec tables mbufs rx.pktsBurst env.stack rx.nbRx aclSearch with
    ⟨hops, _, drops⟩
  have noDrop : Nat.count
      (fun i => ¬ Forwards (aclResult tables (mbufs (rx.pktsBurst i)))) rx.nbRx = 0 := by
    rw [Nat.count_iff_forall_not]
    exact fun i below => not_not_intro (toPort i below).1
  rcases sendPacketsMulti_onePort env { state with mbufs := mbufs } rx.pktsBurst
    (aclProcessPkts tables mbufs rx.pktsBurst env.stack rx.nbRx aclSearch).1 within positive
    inside valid room (fun i below => by
      rw [hops i below]
      exact (toPort i below).2) with ⟨result, sent, lens⟩
  refine ⟨result.1, ?_, lens⟩
  rw [aclSendPackets, drops, if_pos noDrop, sent]
  rfl

theorem RxBurst.fill_const (pkt : RteMbuf) (rx : RxBurst)
    (same : ∀ packet ∈ rx.packets, packet.2 = pkt) : rx.fill (fun _ => pkt) = fun _ => pkt := by
  rcases rx with ⟨packets⟩
  unfold RxBurst.fill
  induction packets with
  | nil => rfl
  | cons packet rest induction =>
      have updated : Function.update (fun _ : MbufPtr => pkt) packet.1 packet.2 = fun _ => pkt := by
        rw [same packet List.mem_cons_self]
        exact Function.update_eq_self _ _
      rw [List.foldl_cons, updated]
      exact induction fun other member => same other (List.mem_cons_of_mem packet member)

/-- A burst that is sent as one group fills a buffer past the flush length, and three
packets of which one is denied run over its end. -/
theorem runAcl_overflows :
    let env : Env := { (default : Env) with rxBurstSize := 511, txBurstSize := 512 }
    let tables : AclTables := ⟨fun _ => 1#32, fun _ => 1#32⟩
    let ipv6 : RteMbuf := { (default : RteMbuf) with packetType := rtePtypeL3Ipv6 }
    let state : LcoreState := { (default : LcoreState) with mbufs := fun _ => ipv6 }
    let steps : List AclStep :=
      [.burst ⟨(List.range 511).map fun name => (name, ipv6)⟩ default,
        .burst ⟨[(600, default), (601, ipv6), (602, ipv6)]⟩ default]
    tables.PortsExist ∧ (∀ port, state.txLen port = 0) ∧
      (∀ step ∈ steps, step.WellFormed env) ∧
      runAcl env tables state steps = .error (.mTableIndex maxPktBurst) := by
  intro env tables ipv6 state steps
  have ipv6Forwards : Forwards (aclResult tables ipv6) := by decide
  have ipv6Hop : aclHop tables ipv6 = 0#16 := by decide
  have ipv6Good : ¬ ipv6.Bad := by decide
  have denied : ¬ Forwards (aclResult tables default) := by decide
  have toZero : (1#32 - fwdPortShift).toNat < rteMaxEthports := by decide
  have exist : tables.PortsExist := ⟨fun _ _ => toZero, fun _ _ => toZero⟩
  have empty : ∀ port, state.txLen port = 0 := fun _ => rfl
  have within := withinTables_of_empty fun port _ => empty port
  have isSteps : ∃ full mixed : RxBurst,
      steps = [.burst full default, .burst mixed default] ∧ full.nbRx = 511 ∧
      mixed.nbRx = 3 ∧ (full.fill state.mbufs = fun _ => ipv6) ∧
      ∀ mbufs, mixed.fill mbufs (mixed.pktsBurst 0) = default ∧
        mixed.fill mbufs (mixed.pktsBurst 1) = ipv6 ∧
        mixed.fill mbufs (mixed.pktsBurst 2) = ipv6 := by
    refine ⟨_, _, rfl, ?_, rfl, ?_, fun mbufs => ⟨?_, ?_, ?_⟩⟩
    · rw [RxBurst.nbRx, List.length_map, List.length_range]
    · apply RxBurst.fill_const
      intro packet member
      simp only [List.mem_map] at member
      rcases member with ⟨name, _, rfl⟩
      rfl
    · simp [RxBurst.fill, RxBurst.pktsBurst]
    · simp [RxBurst.fill, RxBurst.pktsBurst]
    · simp [RxBurst.fill, RxBurst.pktsBurst]
  rcases isSteps with ⟨full, mixed, isSteps, fullLength, mixedLength, filled, filledMixed⟩
  rw [isSteps]
  clear_value steps
  have wellFormed : ∀ step ∈ [AclStep.burst full default, .burst mixed default],
      step.WellFormed env := by
    intro step member
    rcases List.mem_pair.mp member with rfl | rfl
    · exact Nat.le_of_eq fullLength
    · exact Nat.le_trans (Nat.le_of_eq mixedLength) (Nat.le_of_ble_eq_true rfl)
  refine ⟨exist, empty, wellFormed, ?_⟩
  refine (runAcl_guarded exist (Nat.le_of_ble_eq_true rfl) _ wellFormed within).faults ?_
  rintro ⟨_, later⟩
  have room : state.txLen (0#16).toNat < maxPktBurst := by
    rw [empty]
    decide
  rcases AclStep.exec_onePort env tables full default within
    (by rw [fullLength]; decide) (by rw [fullLength]; decide) (by decide) room (by
      intro i _
      rw [filled]
      exact ⟨ipv6Forwards, ipv6Hop, ipv6Good⟩) with ⟨next, sent, lens⟩
  have long : next.txLen 0 = 511 := by
    rw [lens, fullLength]
    decide
  rcases filledMixed next.mbufs with ⟨first, second, third⟩
  rcases later next sent with ⟨⟨_, mixedRoom⟩, _⟩
  have notAll : ¬ AclStep.AllForwarded tables (mixed.fill next.mbufs) mixed := by
    intro forwarded
    have atFirst := forwarded 0 (by rw [mixedLength]; decide)
    rw [first] at atFirst
    exact denied atFirst
  have atPort := mixedRoom notAll 0 (by decide)
  have isPorts : AclStep.ports tables (mixed.fill next.mbufs) mixed = [badPort, 0#16, 0#16] := by
    simp only [AclStep.ports, checkedPorts, mixedLength, List.range', List.map, Nat.zero_add,
      first, second, third]
    decide
  rw [isPorts, long] at atPort
  exact absurd atPort (by decide)

end PacketForwarding.L3fwd
