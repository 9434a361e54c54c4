import PacketForwarding.L3fwd.AclSend
import PacketForwarding.L3fwd.EthRewrite
import PacketForwarding.L3fwd.LpmPaths
import PacketForwarding.L3fwd.SendCalls

/-! # The two senders of the access control lists

A burst is sent in groups exactly when no packet of it is dropped. Where both senders
could send a burst, they hand the same packets to each port, in the same order, and free
the same packets.
-/

namespace PacketForwarding.L3fwd

open Lanes Cells Runs

/-! ## The choice of the sender -/

theorem aclHop_eq_badPort_iff {tables : AclTables} (exist : tables.PortsExist) (pkt : RteMbuf) :
    aclHop tables pkt = badPort ↔ ¬ Forwards (aclResult tables pkt) := by
  constructor
  · intro isBad forwards
    exact absurd isBad (ne_badPort_of_valid (aclHop_lt exist pkt forwards))
  · intro dropped
    rw [aclHop, if_neg dropped]

/-- Every packet gets the hop of its own classification, the packets to be dropped are
those with a bad port, and the sender that groups is chosen exactly when there are none. -/
theorem aclProcessPkts_pointwise (tables : AclTables) (exist : tables.PortsExist)
    (mbufs : MbufHeap) (pkts : Nat → MbufPtr) (hops : Nat → BitVec 16) (num : Nat)
    (aclSearch : AclSearch) :
    let result := aclProcessPkts tables mbufs pkts hops num aclSearch
    (∀ i, i < num → result.1 i = aclHop tables (mbufs (pkts i))) ∧
    result.2 = Nat.count (fun i => result.1 i = badPort) num ∧
    ∀ env state,
      ((∀ i, i < num → result.1 i ≠ badPort) →
        aclSendPackets env state pkts result.1 num result.2 =
          (sendPacketsMulti env state pkts result.1 num).map Prod.fst) ∧
      ((∃ i, i < num ∧ result.1 i = badPort) →
        aclSendPackets env state pkts result.1 num result.2 =
          sendPacketsSingle env state pkts result.1 num) := by
  intro result
  rcases aclProcessPkts_spec tables mbufs pkts hops num aclSearch with ⟨own, _, drops⟩
  have counted : result.2 = Nat.count (fun i => result.1 i = badPort) num := by
    rw [drops, Nat.count_eq_card_filter_range, Nat.count_eq_card_filter_range]
    congr 1
    apply Finset.filter_congr
    intro i member
    rw [own i (Finset.mem_range.mp member), aclHop_eq_badPort_iff exist]
  refine ⟨own, counted, fun env state => ⟨?_, ?_⟩⟩
  · intro noneBad
    have noDrop : result.2 = 0 := by
      rw [counted, Nat.count_iff_forall_not]
      exact noneBad
    rw [aclSendPackets, if_pos noDrop]
    cases sendPacketsMulti env state pkts result.1 num with
    | ok sent => rfl
    | error fault => rfl
  · rintro ⟨i, below, isBad⟩
    have someDrop : result.2 ≠ 0 := by
      rw [counted]
      intro none
      exact (Nat.count_iff_forall_not.mp none) i below isBad
    rw [aclSendPackets, if_neg someDrop]

/-- An IPv4 packet that is let through, one that is neither IPv4 nor IPv6 and an IPv6
packet that is denied. -/
theorem aclProcessPkts_pointwise_three :
    let tables : AclTables := ⟨fun _ => 2#32, fun _ => aclDenySignature⟩
    let mbufs : MbufHeap := fun name => { (default : RteMbuf) with
      packetType := if name = 0 then rtePtypeL3Ipv4 else if name = 1 then 0#32 else rtePtypeL3Ipv6 }
    (aclProcessPkts tables mbufs id (fun _ => 0#16) 3 default).2 = 2 ∧
      (aclProcessPkts tables mbufs id (fun _ => 0#16) 3 default).1 0 = 1#16 := by
  intro tables mbufs
  have denied : ¬ Forwards aclDenySignature := by decide
  have exist : tables.PortsExist :=
    ⟨fun _ _ => (by decide : (2#32 - fwdPortShift).toNat < rteMaxEthports),
      fun _ forwards => absurd forwards denied⟩
  rcases aclProcessPkts_pointwise tables exist mbufs id (fun _ => 0#16) 3 default with
    ⟨own, counted, _⟩
  have atFirst := own 0 (by decide)
  have atSecond := own 1 (by decide)
  have atThird := own 2 (by decide)
  refine ⟨?_, ?_⟩
  · rw [counted]
    simp only [Nat.count_succ, Nat.count_zero, atFirst, atSecond, atThird]
    decide
  · rw [atFirst]
    decide

/-! ## In groups -/

/-- The packets of the port, as the vector code leaves them. -/
def sentTo (env : Env) (mbufs : MbufHeap) (pkts : Nat → MbufPtr) (hops : Nat → BitVec 16)
    (port : BitVec 16) (positions : List Nat) : List (MbufPtr × RteMbuf) :=
  (positions.filter fun i => ¬ (mbufs (pkts i)).Bad ∧ hops i = port).map fun i =>
    (pkts i, (processPacket env (mbufs (pkts i)) (hops i)).1)

def badOnes (mbufs : MbufHeap) (pkts : Nat → MbufPtr) (positions : List Nat) : List MbufPtr :=
  (positions.filter fun i => (mbufs (pkts i)).Bad).map pkts

theorem checkedPort_eq_iff {mbuf : RteMbuf} {hop : BitVec 16} (notBad : hop ≠ badPort)
    (port : BitVec 16) :
    (mbuf.checkedPort hop ≠ badPort ∧ mbuf.checkedPort hop = port) ↔ ¬ mbuf.Bad ∧ hop = port := by
  unfold RteMbuf.checkedPort
  split
  · rename_i bad
    exact ⟨fun sent => absurd rfl sent.1, fun good => absurd bad good.1⟩
  · rename_i good
    exact ⟨fun sent => ⟨good, sent.2⟩, fun sent => ⟨notBad, sent.2⟩⟩

theorem checkedPort_eq_badPort_iff {mbuf : RteMbuf} {hop : BitVec 16} (notBad : hop ≠ badPort) :
    mbuf.checkedPort hop = badPort ↔ mbuf.Bad := by
  unfold RteMbuf.checkedPort
  split
  · rename_i bad
    exact iff_of_true rfl bad
  · rename_i good
    exact iff_of_false notBad good

theorem sendPacketsMulti_calls (env : Env) (mbufs : MbufHeap) {pkts : Nat → MbufPtr}
    (hops : Nat → BitVec 16) {num : Nat} (inside : num ≤ maxPktBurst)
    (valid : ∀ i, i < num → (hops i).toNat < rteMaxEthports) (distinct : Distinct pkts 0 num) :
    ∃ calls, Makes env mbufs
        (fun state => (sendPacketsMulti env state pkts hops num).map Prod.fst) calls ∧
      (∀ call ∈ calls, call.WellFormed) ∧
      (∀ port, SendCall.stream port mbufs calls =
        sentTo env mbufs pkts hops port (List.range num)) ∧
      SendCall.freed calls = badOnes mbufs pkts (List.range num) := by
  rcases Nat.eq_zero_or_pos num with none | positive
  · subst none
    exact ⟨[], fun _ _ => rfl, fun _ absent => absurd absent List.not_mem_nil, fun _ => rfl, rfl⟩
  have notBad : ∀ i, i < num → hops i ≠ badPort :=
    fun i below => ne_badPort_of_valid (valid i below)
  rcases groupPackets_spec env mbufs pkts hops positive inside
    (fun i below => ne_badPort_pred (valid i below)) with
    ⟨grouping, grouped, checked, lp, counted⟩
  rcases exists_tiling grouping.packets.2 num with ⟨runs, tiled⟩
  have packets := groupPackets_packets env mbufs hops distinct grouped
  have left : ∀ i, i < num → grouping.packets.1 (pkts i) =
      (processPacket env (mbufs (pkts i)) (hops i)).1 := by
    intro i below
    rw [packets]
    exact (visit_inside pkts (processPacket env) num 0 (mbufs, hops) distinct i
      (Nat.zero_le i) (by omega)).1
  have final : ∀ i, i < num → grouping.packets.2 i = (mbufs (pkts i)).checkedPort (hops i) :=
    fun i below => checked.inside i (Nat.zero_le i) (by omega)
  refine ⟨.write grouping.packets.1 ::
    (groupsOf grouping.packets.2 runs).map (Dispatch.call pkts), ?_, ?_, ?_, ?_⟩
  · rintro state rfl
    dsimp only
    rw [sendPacketsMulti_of_grouped grouped (fun head length run => counted.exact run) tiled,
      Dispatch.foldlM_call]
    rfl
  · exact List.forall_mem_cons.mpr ⟨trivial, Dispatch.calls_wellFormed pkts tiled inside⟩
  · intro port
    rw [SendCall.stream, Dispatch.stream_call, packets_groupsOf tiled, List.filter_map,
      List.map_map, sentTo]
    have same : (List.range num).filter ((fun packet : Nat × BitVec 16 =>
        decide (packet.2 ≠ badPort ∧ packet.2 = port)) ∘ fun i => (i, grouping.packets.2 i)) =
        (List.range num).filter fun i => ¬ (mbufs (pkts i)).Bad ∧ hops i = port := by
      apply List.filter_congr
      intro i member
      have below := List.mem_range.mp member
      rw [Function.comp_apply, decide_eq_decide, final i below]
      exact checkedPort_eq_iff (notBad i below) port
    rw [same]
    apply List.map_congr_left
    intro i member
    have below := List.mem_range.mp (List.mem_of_mem_filter member)
    exact Prod.ext rfl (left i below)
  · have same : (List.range num).filter ((fun packet : Nat × BitVec 16 =>
        decide (packet.2 = badPort)) ∘ fun i => (i, grouping.packets.2 i)) =
        (List.range num).filter fun i => (mbufs (pkts i)).Bad := by
      apply List.filter_congr
      intro i member
      have below := List.mem_range.mp member
      rw [Function.comp_apply, decide_eq_decide, final i below]
      exact checkedPort_eq_badPort_iff (notBad i below)
    rw [SendCall.freed, List.flatMap_cons, List.nil_append, ← SendCall.freed, Dispatch.freed_call,
      packets_groupsOf tiled, List.filter_map, List.map_map, same]
    rfl

/-! ## One by one -/

/-- The calls for packets `j, ..., j + count - 1`. -/
def singleCalls (env : Env) (pkts : Nat → MbufPtr) (hops : Nat → BitVec 16) :
    Nat → Nat → MbufHeap → List SendCall
  | 0, _, _ => []
  | count + 1, j, mbufs =>
      let pkt := mbufs (pkts j)
      let (data, hop) := rfc1812Process pkt.data (hops j) pkt.packetType
      if hop ≠ badPort then
        let mbufs := Function.update mbufs (pkts j) { pkt with data := setEthAddrs env data hop }
        .write mbufs :: .sendSinglePacket hop (pkts j) ::
          singleCalls env pkts hops count (j + 1) mbufs
      else
        let mbufs := Function.update mbufs (pkts j) { pkt with data := data }
        .write mbufs :: .free [pkts j] :: singleCalls env pkts hops count (j + 1) mbufs

theorem singleCalls_wellFormed (env : Env) (pkts : Nat → MbufPtr) (hops : Nat → BitVec 16) :
    ∀ count j mbufs, ∀ call ∈ singleCalls env pkts hops count j mbufs, call.WellFormed := by
  intro count
  induction count with
  | zero => exact fun _ _ _ absent => absurd absent List.not_mem_nil
  | succ count induction =>
      intro j mbufs
      unfold singleCalls
      dsimp only
      split
      · exact List.forall_mem_cons.mpr
          ⟨trivial, List.forall_mem_cons.mpr ⟨trivial, induction _ _⟩⟩
      · exact List.forall_mem_cons.mpr
          ⟨trivial, List.forall_mem_cons.mpr ⟨trivial, induction _ _⟩⟩

theorem foldlM_write_send (env : Env) (state : LcoreState) (mbufs : MbufHeap) (hop : BitVec 16)
    (m : MbufPtr) (rest : List SendCall) :
    (SendCall.write mbufs :: .sendSinglePacket hop m :: rest).foldlM (SendCall.exec env) state =
      sendSinglePacket env { state with mbufs := mbufs } m hop >>= fun sent =>
        rest.foldlM (SendCall.exec env) sent.1 := by
  rw [List.foldlM_cons, SendCall.exec]
  dsimp only [bind, Except.bind]
  rw [List.foldlM_cons, SendCall.exec]
  cases sendSinglePacket env { state with mbufs := mbufs } m hop with
  | ok sent => rfl
  | error fault => rfl

theorem sendPacketsSingle_makes (env : Env) (pkts : Nat → MbufPtr) (hops : Nat → BitVec 16) :
    ∀ count j (result : LcoreState × (Nat → BitVec 16)),
      (∀ i, j ≤ i → result.2 i = hops i) →
      ((List.range' j count).foldlM (sendPacketSingle env pkts) result).map Prod.fst =
        (singleCalls env pkts hops count j result.1.mbufs).foldlM (SendCall.exec env) result.1 := by
  intro count
  induction count with
  | zero => exact fun _ _ _ => rfl
  | succ count induction =>
      rintro j ⟨state, hops'⟩ ahead
      have laterHops : ∀ hop i, j + 1 ≤ i → Function.update hops' j hop i = hops i := by
        intro hop i later
        rw [Function.update_of_ne (Nat.ne_of_gt later)]
        exact ahead i (Nat.le_of_succ_le later)
      have now : hops' j = hops j := ahead j (Nat.le_refl j)
      rw [List.range'_succ, List.foldlM_cons, singleCalls, sendPacketSingle]
      dsimp only
      rw [now]
      generalize rfc1812Process (state.mbufs (pkts j)).data (hops j)
        (state.mbufs (pkts j)).packetType = checked
      rcases checked with ⟨data, hop⟩
      dsimp only
      split
      · rw [foldlM_write_send]
        generalize isRewritten : state.setMbuf (pkts j)
          { state.mbufs (pkts j) with data := setEthAddrs env data hop } = rewritten
        have kept := sendSinglePacket_mbufs env rewritten (pkts j) hop
        have heap : Function.update state.mbufs (pkts j)
            { state.mbufs (pkts j) with data := setEthAddrs env data hop } = rewritten.mbufs := by
          rw [← isRewritten]
          rfl
        have start : ({ state with mbufs := rewritten.mbufs } : LcoreState) = rewritten := by
          rw [← isRewritten]
          rfl
        rw [heap, start]
        cases run : sendSinglePacket env rewritten (pkts j) hop with
        | ok sent =>
            rw [← kept.of_ok run]
            exact induction (j + 1) (sent.1, _) (laterHops hop)
        | error fault => rfl
      · exact induction (j + 1) _ (laterHops hop)

/-- What is sent is what the vector code would have sent. -/
theorem singleFrame_eq {env : Env} {addrs : EthAddrs} {pkt : RteMbuf} {port : BitVec 16}
    (agree : addrs.Agree port.toNat) :
    let data := (rfc1812Process pkt.data port pkt.packetType).1
    { pkt with data := setEthAddrs (env.withAddrs addrs) data port } =
      (processPacket (env.withAddrs addrs) pkt port).1 := by
  intro data
  rw [← processPacket_eq_setEthAddrs pkt agree]
  rfl

theorem singleCalls_hands {env : Env} {addrs : EthAddrs} {mbufs : MbufHeap}
    {pkts : Nat → MbufPtr} {hops : Nat → BitVec 16} :
    ∀ count j (heap : MbufHeap), Distinct pkts j count →
      (∀ i, j ≤ i → i < j + count → heap (pkts i) = mbufs (pkts i)) →
      (∀ i, j ≤ i → i < j + count → hops i ≠ badPort ∧ addrs.Agree (hops i).toNat) →
      (∀ port, SendCall.stream port heap
          (singleCalls (env.withAddrs addrs) pkts hops count j heap) =
        sentTo (env.withAddrs addrs) mbufs pkts hops port (List.range' j count)) ∧
      SendCall.freed (singleCalls (env.withAddrs addrs) pkts hops count j heap) =
        badOnes mbufs pkts (List.range' j count) := by
  intro count
  induction count with
  | zero => exact fun _ _ _ _ _ => ⟨fun _ => rfl, rfl⟩
  | succ count induction =>
      intro j heap distinct same good
      have here := same j (Nat.le_refl j) (by omega)
      rcases good j (Nat.le_refl j) (by omega) with ⟨notBad, agree⟩
      have later : ∀ pkt i, j + 1 ≤ i → i < j + 1 + count →
          Function.update heap (pkts j) pkt (pkts i) = mbufs (pkts i) := by
        intro pkt i after before
        have apart : pkts i ≠ pkts j := fun equal => by
          have := distinct i j (by omega) (by omega) (by omega) (by omega) equal
          omega
        rw [Function.update_of_ne apart]
        exact same i (by omega) (by omega)
      have rest := fun pkt => induction (j + 1) (Function.update heap (pkts j) pkt)
        (distinct.sub (by omega) (by omega)) (later pkt)
        (fun i after before => good i (by omega) (by omega))
      have processed := rfc1812Process_port (mbufs (pkts j)).data (hops j)
        (mbufs (pkts j)).packetType
      rw [singleCalls, List.range'_succ, here]
      dsimp only
      rw [processed]
      by_cases bad : (mbufs (pkts j)).Bad
      · have isBad : rfc1812Bad (mbufs (pkts j)).data (mbufs (pkts j)).packetType := bad
        have notSent : ¬ badPort ≠ badPort := not_not_intro rfl
        rw [if_pos isBad, if_neg notSent]
        rcases rest { mbufs (pkts j) with data := (rfc1812Process (mbufs (pkts j)).data (hops j)
          (mbufs (pkts j)).packetType).1 } with ⟨streams, frees⟩
        refine ⟨?_, ?_⟩
        · intro port
          have skipped : ¬ (¬ (mbufs (pkts j)).Bad ∧ hops j = port) := fun sent => sent.1 bad
          rw [SendCall.stream, SendCall.stream, streams port, sentTo, sentTo,
            List.filter_cons_of_neg (by simpa using skipped)]
        · rw [badOnes, List.filter_cons_of_pos (by simpa using bad), List.map_cons, ← badOnes,
            ← frees]
          rfl
      · have isGood : ¬ rfc1812Bad (mbufs (pkts j)).data (mbufs (pkts j)).packetType := bad
        rw [if_neg isGood, if_pos notBad, singleFrame_eq agree]
        rcases rest (processPacket (env.withAddrs addrs) (mbufs (pkts j)) (hops j)).1 with
          ⟨streams, frees⟩
        refine ⟨?_, ?_⟩
        · intro port
          rw [SendCall.stream, SendCall.stream, streams port, Function.update_self]
          by_cases toPort : hops j = port
          · have sent : ¬ (mbufs (pkts j)).Bad ∧ hops j = port := ⟨bad, toPort⟩
            rw [if_pos toPort, sentTo, sentTo, List.filter_cons_of_pos (by simpa using sent),
              List.map_cons]
            rfl
          · have skipped : ¬ (¬ (mbufs (pkts j)).Bad ∧ hops j = port) := fun sent => toPort sent.2
            rw [if_neg toPort, sentTo, sentTo, List.filter_cons_of_neg (by simpa using skipped)]
            rfl
        · rw [badOnes, List.filter_cons_of_neg (by simpa using bad), ← badOnes, ← frees]
          rfl

/-! ## The comparison -/

/-- For a burst whose hops are enabled ports, the two senders hand the same packets to
every port, in the same order and with the same bytes, and both free the packets that the
checks refuse. Where both return and the driver takes everything, these packets are on their
way out of each port, and no others are freed. -/
theorem aclSenders_equal (eal : Eal) (params : List LcoreParams) (mask : BitVec 32)
    (options : List EthDest) (addrs : EthAddrs) (setup : SetupState)
    (parsed : parseEthDests options = some addrs)
    (setUp : l3fwdPollResourceSetup eal params mask addrs = some setup) (env : Env)
    (mbufs : MbufHeap) (pkts : Nat → MbufPtr) (hops : Nat → BitVec 16) (num : Nat)
    (inside : num ≤ maxPktBurst) (enabled : ∀ i, i < num → hops i ∈ enabledPorts eal mask)
    (distinct : Distinct pkts 0 num) :
    let env := env.withAddrs setup.addrs
    ∃ multi single : List SendCall,
      Makes env mbufs (fun state => (sendPacketsMulti env state pkts hops num).map Prod.fst)
        multi ∧
      Makes env mbufs (fun state => sendPacketsSingle env state pkts hops num) single ∧
      (∀ port, SendCall.stream port mbufs multi = SendCall.stream port mbufs single) ∧
      SendCall.freed multi = badOnes mbufs pkts (List.range num) ∧
      SendCall.freed single = badOnes mbufs pkts (List.range num) ∧
      ∀ state last last', state.mbufs = mbufs →
        sendPacketsMulti env state pkts hops num = .ok last →
        sendPacketsSingle env state pkts hops num = .ok last' → env.TakesAll →
        (∀ port, last.1.outgoing port = last'.outgoing port ∧ last.1.outgoing port =
          state.outgoing port ++ (SendCall.stream port mbufs multi).map Prod.fst) ∧
        last.1.freed = last'.freed ∧
        last.1.freed = state.freed ++ badOnes mbufs pkts (List.range num) := by
  intro env
  have valid : ∀ i, i < num → (hops i).toNat < rteMaxEthports :=
    fun i below => eal.devices (hops i) (mem_enabledPorts.mp (enabled i below)).1
  have notBad : ∀ i, i < num → hops i ≠ badPort :=
    fun i below => ne_badPort_of_valid (valid i below)
  rcases sendPacketsMulti_calls env mbufs hops inside valid distinct with
    ⟨multi, makes, wellFormed, streams, frees⟩
  rcases @singleCalls_hands _ setup.addrs mbufs pkts hops num 0 mbufs distinct
    (fun _ _ _ => rfl) (fun i _ before => by
      rw [Nat.zero_add] at before
      exact ⟨notBad i before, EthAddrs.setup_agree parsed setUp (hops i).toNat⟩) with
    ⟨singleStreams, singleFrees⟩
  rw [← List.range_eq_range'] at singleFrees
  have singleMakes : Makes env mbufs (fun state => sendPacketsSingle env state pkts hops num)
      (singleCalls env pkts hops num 0 mbufs) := by
    rintro state rfl
    have loop := sendPacketsSingle_makes env pkts hops num 0 (state, hops) (fun _ _ => rfl)
    dsimp only
    rw [← loop, sendPacketsSingle, List.range_eq_range']
    cases (List.range' 0 num).foldlM (sendPacketSingle env pkts) (state, hops) with
    | ok sent => rfl
    | error fault => rfl
  have sameStreams : ∀ port, SendCall.stream port mbufs multi =
      SendCall.stream port mbufs (singleCalls env pkts hops num 0 mbufs) := by
    intro port
    rw [streams port, List.range_eq_range']
    exact (singleStreams port).symm
  refine ⟨multi, singleCalls env pkts hops num 0 mbufs, makes, singleMakes, sameStreams, frees,
    singleFrees, ?_⟩
  intro state last last' isHeap ran ran' takesAll
  have calls := makes state isHeap
  have calls' := singleMakes state isHeap
  dsimp only at calls calls'
  rw [ran] at calls
  rw [ran'] at calls'
  have kept := SendCall.foldlM_kept takesAll multi wellFormed calls.symm
  have kept' := SendCall.foldlM_kept takesAll _ (singleCalls_wellFormed env pkts hops num 0 mbufs)
    calls'.symm
  refine ⟨?_, ?_, ?_⟩
  · intro port
    have stream := SendCall.map_stream port multi mbufs
    have stream' := SendCall.map_stream port (singleCalls env pkts hops num 0 mbufs) mbufs
    refine ⟨?_, by rw [kept.outgoing, stream]⟩
    rw [kept.outgoing, kept'.outgoing, ← stream, ← stream', sameStreams]
  · rw [kept.freed, kept'.freed, frees, singleFrees]
  · rw [kept.freed, frees]

/-- A good packet and one that the checks refuse, to two ports. -/
theorem aclSenders_equal_two :
    let mbufs : MbufHeap := fun name => { (default : RteMbuf) with
      packetType := if name = 1 then rtePtypeL3Ipv4 else 0#32 }
    ∃ (env : Env) (multi single : List SendCall),
      Makes env mbufs
        (fun state => (sendPacketsMulti env state id (fun i => BitVec.ofNat 16 i) 2).map Prod.fst)
        multi ∧
      (∀ port, SendCall.stream port mbufs multi = SendCall.stream port mbufs single) ∧
      SendCall.freed multi = [1] ∧ SendCall.freed single = [1] := by
  intro mbufs
  rcases setUp_twoDests with ⟨addrs, setup, parsed, setUp⟩
  have enabled : ∀ i, i < 2 → BitVec.ofNat 16 i ∈ enabledPorts twoPortEal 0x3#32 := by decide
  have distinct : Distinct (id : Nat → MbufPtr) 0 2 := fun _ _ _ _ _ _ same => same
  rcases aclSenders_equal twoPortEal threeQueues 0x3#32 _ addrs setup parsed setUp default mbufs id
    (fun i => BitVec.ofNat 16 i) 2 (by decide) enabled distinct with
    ⟨multi, single, makes, _, streams, multiFrees, singleFrees, _⟩
  have bad : badOnes mbufs id (List.range 2) = [1] := by decide
  rw [bad] at multiFrees singleFrees
  exact ⟨_, multi, single, makes, streams, multiFrees, singleFrees⟩

end PacketForwarding.L3fwd
