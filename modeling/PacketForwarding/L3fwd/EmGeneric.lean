import PacketForwarding.L3fwd.Em
import PacketForwarding.L3fwd.TxCustody

/-! # Exact match without vector instructions

The generic path handles packets one by one. A packet that is refused is freed where
it is refused, and its port tells the caller so. The two callers have different
conventions for such a port, and neither is to free the packet again or to send it.
-/

namespace PacketForwarding.L3fwd

/-! ## Handling one packet -/

/-- A packet that was handled: its port, and whether it was given back. -/
structure Handled where
  pkt : RteMbuf
  dstPort : BitVec 16
  freed : Bool

def l3fwdEmHandleIpv4 (env : Env) (tables : EmTables) (m : RteMbuf) (portid : BitVec 16) :
    Handled :=
  -- check to make sure the packet is valid (RFC1812)
  let (data, valid) := isValidIpv4Pkt env m.data m.pktLen m.olFlags
  let m := { m with data := data }
  if valid < 0 then
    ⟨m, badPort, true⟩
  else
    let dstPort := enabledPort env (emGetIpv4DstPort tables m portid) portid
    ⟨{ m with data := setEthAddrs env (countHop m.data) dstPort }, dstPort, false⟩

def l3fwdEmHandleIpv6 (env : Env) (tables : EmTables) (m : RteMbuf) (portid : BitVec 16) :
    Handled :=
  let dstPort := enabledPort env (emGetIpv6DstPort tables m portid) portid
  ⟨{ m with data := setEthAddrs env m.data dstPort }, dstPort, false⟩

/-- `tcp_or_udp && (l3_ptypes == RTE_PTYPE_L3_IPV4)` -/
def IsEmIpv4 (m : RteMbuf) : Prop :=
  tcpOrUdp m.packetType ≠ 0#32 ∧ l3Type m.packetType = rtePtypeL3Ipv4

/-- `tcp_or_udp && (l3_ptypes == RTE_PTYPE_L3_IPV6)` -/
def IsEmIpv6 (m : RteMbuf) : Prop :=
  tcpOrUdp m.packetType ≠ 0#32 ∧ l3Type m.packetType = rtePtypeL3Ipv6

instance (m : RteMbuf) : Decidable (IsEmIpv4 m) := inferInstanceAs (Decidable (_ ∧ _))

instance (m : RteMbuf) : Decidable (IsEmIpv6 m) := inferInstanceAs (Decidable (_ ∧ _))

/-- Take over a packet that was handled. -/
def LcoreState.handled (state : LcoreState) (m : MbufPtr) (result : Handled) : LcoreState :=
  let state := state.setMbuf m result.pkt
  if result.freed then state.rtePktmbufFree m else state

def l3fwdEmSimpleForward (env : Env) (tables : EmTables) (state : LcoreState) (m : MbufPtr)
    (portid : BitVec 16) : Except Fault LcoreState := do
  let pkt := state.mbufs m
  if IsEmIpv4 pkt then
    let result := l3fwdEmHandleIpv4 env tables pkt portid
    let (state, _) ← sendSinglePacket env (state.handled m result) m result.dstPort
    .ok state
  else if IsEmIpv6 pkt then
    let result := l3fwdEmHandleIpv6 env tables pkt portid
    let (state, _) ← sendSinglePacket env (state.handled m result) m result.dstPort
    .ok state
  else
    -- free the mbuf that contains non-IPv4/IPv6 packet
    .ok (state.rtePktmbufFree m)

/-- The packet gets its destination port. -/
def l3fwdEmSimpleProcess (env : Env) (tables : EmTables) (m : RteMbuf) : Handled :=
  if IsEmIpv4 m then
    let result := l3fwdEmHandleIpv4 env tables m m.port
    { result with pkt := { result.pkt with port := result.dstPort } }
  else if IsEmIpv6 m then
    let result := l3fwdEmHandleIpv6 env tables m m.port
    { result with pkt := { result.pkt with port := result.dstPort } }
  else
    ⟨{ m with port := badPort }, badPort, false⟩

/-! ## Polling -/

/-- What a polling lcore does: forward a packet that the driver wrote into an mbuf, or
drain a port. -/
inductive EmStep
  | forward (m : MbufPtr) (pkt : RteMbuf) (portid : BitVec 16)
  | drain (port : BitVec 16)

namespace EmStep

def exec (env : Env) (tables : EmTables) (state : LcoreState) : EmStep → Except Fault LcoreState
  | forward m pkt portid => l3fwdEmSimpleForward env tables (state.setMbuf m pkt) m portid
  | drain port => do
      let (state, _) ← drainTxPort env state port
      .ok state

/-- Packets come from ports that exist, and drained ports exist. -/
def WellFormed : EmStep → Prop
  | forward _ _ portid => portid.toNat < rteMaxEthports
  | drain port => port.toNat < rteMaxEthports

def handed : EmStep → List MbufPtr
  | forward m _ _ => [m]
  | drain _ => []

end EmStep

def runEm (env : Env) (tables : EmTables) (state : LcoreState) (steps : List EmStep) :
    Except Fault LcoreState :=
  steps.foldlM (EmStep.exec env tables) state

/-! ## Refused packets -/

/-- A packet for the IPv4 table that fails the RFC1812 checks. -/
def EmRefused (env : Env) (m : RteMbuf) : Prop :=
  IsEmIpv4 m ∧ (isValidIpv4Pkt env m.data m.pktLen m.olFlags).2 < 0

instance (env : Env) (m : RteMbuf) : Decidable (EmRefused env m) :=
  inferInstanceAs (Decidable (_ ∧ _))

namespace EmStep

def Refused (env : Env) : EmStep → Prop
  | forward _ pkt _ => EmRefused env pkt
  | drain _ => False

end EmStep

theorem enabledPort_lt (env : Env) (dstPort : BitVec 16) {portid : BitVec 16}
    (valid : portid.toNat < rteMaxEthports) :
    (enabledPort env dstPort portid).toNat < rteMaxEthports := by
  unfold enabledPort
  split
  · exact valid
  · rename_i inRange
    exact Nat.lt_of_not_le fun outOfRange => inRange (Or.inl outOfRange)

theorem l3fwdEmHandleIpv4_spec (env : Env) (tables : EmTables) (m : RteMbuf)
    {portid : BitVec 16} (valid : portid.toNat < rteMaxEthports) :
    if (isValidIpv4Pkt env m.data m.pktLen m.olFlags).2 < 0 then
      (l3fwdEmHandleIpv4 env tables m portid).freed = true ∧
        (l3fwdEmHandleIpv4 env tables m portid).dstPort = badPort
    else
      (l3fwdEmHandleIpv4 env tables m portid).freed = false ∧
        (l3fwdEmHandleIpv4 env tables m portid).dstPort.toNat < rteMaxEthports := by
  unfold l3fwdEmHandleIpv4
  dsimp only
  split
  · exact ⟨rfl, rfl⟩
  · exact ⟨rfl, enabledPort_lt env _ valid⟩

/-- A packet that was not freed is sent. -/
theorem sendHandled_spec {env : Env} (burst : 0 < env.rxBurstSize ∧ env.rxBurstSize ≤ maxPktBurst)
    {state : LcoreState} (m : MbufPtr) {result : Handled} (kept : result.freed = false)
    (valid : result.dstPort.toNat < rteMaxEthports) (below : state.Below env.rxBurstSize) :
    ∃ last stats, (do
        let (state, _) ← sendSinglePacket env (state.handled m result) m result.dstPort
        .ok state : Except Fault LcoreState) = .ok last ∧
      last.Below env.rxBurstSize ∧ TxAccount state last [m] stats := by
  have isHandled : state.handled m result = state.setMbuf m result.pkt := by
    simp [LcoreState.handled, kept]
  have rewrittenBelow : (state.setMbuf m result.pkt).Below env.rxBurstSize := below
  have lenBelow := rewrittenBelow _ valid
  rcases sendSinglePacket_spec env (state.setMbuf m result.pkt) m valid
    (Nat.lt_of_lt_of_le lenBelow burst.2) with ⟨last, sent, run, effect, len⟩
  have lastBelow : last.Below env.rxBurstSize := by
    refine effect.below rewrittenBelow ?_
    rw [len, singleLen]
    split
    · exact burst.1
    · omega
  have account := (TxAccount.rewrite state
    (Function.update state.mbufs m result.pkt)).trans (effect.account valid)
  rw [List.nil_append] at account
  refine ⟨last, _, ?_, lastBelow, account⟩
  rw [isHandled, run]
  rfl

/-- Every step but the forwarding of a refused packet keeps account of its packet.
A refused packet is freed and then sent to a port that does not exist. -/
theorem EmStep.exec_spec {env : Env}
    (burst : 0 < env.rxBurstSize ∧ env.rxBurstSize ≤ maxPktBurst) (tables : EmTables)
    {state : LcoreState} {step : EmStep} (wellFormed : step.WellFormed)
    (below : state.Below env.rxBurstSize) :
    (¬ step.Refused env → ∃ last stats, step.exec env tables state = .ok last ∧
      last.Below env.rxBurstSize ∧ TxAccount state last step.handed stats) ∧
    (step.Refused env → step.exec env tables state = .error (.txMbufsIndex badPort)) := by
  cases step with
  | forward m pkt portid =>
      have written : (state.setMbuf m pkt).mbufs m = pkt := by
        simp [LcoreState.setMbuf]
      have rewrite := TxAccount.rewrite state (Function.update state.mbufs m pkt)
      have rewrittenBelow : (state.setMbuf m pkt).Below env.rxBurstSize := below
      have sent : ∀ result : Handled, result.freed = false →
          result.dstPort.toNat < rteMaxEthports →
          ∃ last stats, (do
              let (state, _) ←
                sendSinglePacket env ((state.setMbuf m pkt).handled m result) m result.dstPort
              .ok state : Except Fault LcoreState) = .ok last ∧
            last.Below env.rxBurstSize ∧ TxAccount state last [m] stats := by
        intro result kept valid
        rcases sendHandled_spec burst m kept valid rewrittenBelow with
          ⟨last, stats, run, lastBelow, account⟩
        exact ⟨last, _, run, lastBelow, rewrite.trans account⟩
      have handled := l3fwdEmHandleIpv4_spec env tables pkt wellFormed
      simp only [exec, l3fwdEmSimpleForward, written, Refused, EmRefused, EmStep.handed]
      by_cases isIpv4 : IsEmIpv4 pkt
      · by_cases refused : (isValidIpv4Pkt env pkt.data pkt.pktLen pkt.olFlags).2 < 0
        · rw [if_pos refused] at handled
          have notPort : ¬ badPort.toNat < rteMaxEthports := by decide
          refine ⟨fun accepted => absurd ⟨isIpv4, refused⟩ accepted, fun _ => ?_⟩
          rw [if_pos isIpv4, handled.2, sendSinglePacket_invalidPort env _ m notPort]
          rfl
        · rw [if_neg refused] at handled
          refine ⟨fun _ => ?_, fun both => absurd both.2 refused⟩
          rw [if_pos isIpv4]
          exact sent _ handled.1 handled.2
      · refine ⟨fun _ => ?_, fun both => absurd both.1 isIpv4⟩
        rw [if_neg isIpv4]
        by_cases isIpv6 : IsEmIpv6 pkt
        · rw [if_pos isIpv6]
          exact sent _ rfl (enabledPort_lt env _ wellFormed)
        · rw [if_neg isIpv6]
          exact ⟨_, _, rfl, rewrittenBelow,
            rewrite.trans (TxAccount.free (state.setMbuf m pkt) [m])⟩
  | drain port =>
      refine ⟨fun _ => ?_, False.elim⟩
      have lenBelow := below _ wellFormed
      rcases drainTxPort_spec env state wellFormed
        (Nat.le_trans (Nat.le_of_lt lenBelow) burst.2) with ⟨last, stats, run, effect, len⟩
      refine ⟨last, stats, ?_, effect.below below ?_, effect.account wellFormed⟩
      · simp only [exec, run]
        rfl
      · rw [len]
        exact burst.1

/-- A run keeps account of all packets, or ends at the first refused one. -/
theorem runEm_spec {env : Env}
    (burst : 0 < env.rxBurstSize ∧ env.rxBurstSize ≤ maxPktBurst) (tables : EmTables) :
    ∀ (steps : List EmStep) (state : LcoreState), state.Below env.rxBurstSize →
      (∀ step ∈ steps, step.WellFormed) →
      ((∀ step ∈ steps, ¬ step.Refused env) →
        ∃ last stats, runEm env tables state steps = .ok last ∧
          TxAccount state last (steps.flatMap EmStep.handed) stats) ∧
      ((∃ step ∈ steps, step.Refused env) →
        runEm env tables state steps = .error (.txMbufsIndex badPort)) := by
  intro steps
  induction steps with
  | nil =>
      intro state _ _
      refine ⟨fun _ => ⟨state, _, rfl, TxAccount.refl state⟩, ?_⟩
      rintro ⟨step, member, _⟩
      cases member
  | cons step rest induction =>
      intro state below wellFormed
      rcases step.exec_spec burst tables (wellFormed step List.mem_cons_self) below with
        ⟨accepts, refuses⟩
      have restWellFormed : ∀ other ∈ rest, other.WellFormed :=
        fun other member => wellFormed other (List.mem_cons_of_mem step member)
      simp only [runEm, List.foldlM_cons]
      by_cases refused : step.Refused env
      · rw [refuses refused]
        exact ⟨fun all => absurd refused (all step List.mem_cons_self), fun _ => rfl⟩
      · rcases accepts refused with ⟨middle, stats, ran, middleBelow, account⟩
        rcases induction middle middleBelow restWellFormed with ⟨restAccepts, restRefuses⟩
        rw [ran]
        constructor
        · intro all
          rcases restAccepts (fun other member => all other (List.mem_cons_of_mem step member))
            with ⟨last, restStats, restRan, restAccount⟩
          exact ⟨last, _, restRan, account.trans restAccount⟩
        · rintro ⟨other, member, otherRefused⟩
          rcases List.mem_cons.mp member with same | inRest
          · subst same
            exact absurd otherRefused refused
          · exact restRefuses ⟨other, inRest, otherRefused⟩

end PacketForwarding.L3fwd
