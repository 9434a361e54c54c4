import PacketForwarding.L3fwd.FibLookup
import PacketForwarding.L3fwd.LpmClock

/-! # The polling loop of a lcore with a forwarding information base

The tables are set up from the same routes as those for longest prefix match, and with the
same checks. Where they have nothing to say, they answer with a hop that is no port.
-/

namespace PacketForwarding.L3fwd

open Cells Lanes

/-! ## Setting up the tables -/

/-- The libraries `rte_fib` and `rte_fib6`. A table is known by the routes added to it and by
the hop for addresses without a route. -/
structure RteFib where
  rteFibCreate : Bool
  rteFib6Create : Bool
  rteFibAdd : List (LpmRouteRule (BitVec 32)) → LpmRouteRule (BitVec 32) → Bool
  rteFib6Add : List (LpmRouteRule (BitVec 128)) → LpmRouteRule (BitVec 128) → Bool
  rteFibLookupBulk : BitVec 64 → List (LpmRouteRule (BitVec 32)) →
    (Nat → BitVec 32) → Nat → Nat → BitVec 64
  rteFib6LookupBulk : BitVec 64 → List (LpmRouteRule (BitVec 128)) →
    (Nat → BitVec 128) → Nat → Nat → BitVec 64

/-- What the libraries promise: each address is looked up by itself, and its hop is that of a
route that was added, or the default. -/
structure RteFib.Lawful (lib : RteFib) : Prop where
  bulk : ∀ defaultNh rules ips num i, i < num →
    lib.rteFibLookupBulk defaultNh rules ips num i =
      lib.rteFibLookupBulk defaultNh rules (fun _ => ips i) 1 0
  bulk6 : ∀ defaultNh rules ips num i, i < num →
    lib.rteFib6LookupBulk defaultNh rules ips num i =
      lib.rteFib6LookupBulk defaultNh rules (fun _ => ips i) 1 0
  lookup : ∀ defaultNh rules ips num i, i < num →
    lib.rteFibLookupBulk defaultNh rules ips num i = defaultNh ∨
      ∃ rule ∈ rules, lib.rteFibLookupBulk defaultNh rules ips num i = rule.ifOut.setWidth 64
  lookup6 : ∀ defaultNh rules ips num i, i < num →
    lib.rteFib6LookupBulk defaultNh rules ips num i = defaultNh ∨
      ∃ rule ∈ rules, lib.rteFib6LookupBulk defaultNh rules ips num i = rule.ifOut.setWidth 64

def RteFib.tables (lib : RteFib) (rules : LpmRoutes) : FibTables where
  rteFibLookupBulk := lib.rteFibLookupBulk (fibDefaultHop.setWidth 64) rules.ipv4
  rteFib6LookupBulk := lib.rteFib6LookupBulk (fibDefaultHop.setWidth 64) rules.ipv6

/-- Skip unused ports, and add all other routes. -/
def setupFib (eal : Eal) (mask : BitVec 32) (lib : RteFib) (routes : LpmRoutes) :
    Option LpmRoutes := do
  guard lib.rteFibCreate
  let ipv4 ← routes.ipv4.foldlM (addRoute eal mask lib.rteFibAdd) []
  guard lib.rteFib6Create
  let ipv6 ← routes.ipv6.foldlM (addRoute eal mask lib.rteFib6Add) []
  return ⟨ipv4, ipv6⟩

theorem setupFib_enabled {eal : Eal} {mask : BitVec 32} {lib : RteFib} {routes rules : LpmRoutes}
    (setUp : setupFib eal mask lib routes = some rules) : rules.Enabled eal mask := by
  have empty : ∀ {α : Type}, ∀ rule ∈ ([] : List (LpmRouteRule α)), rule.Enabled eal mask :=
    fun _ impossible => absurd impossible List.not_mem_nil
  unfold setupFib at setUp
  rcases Option.bind_eq_some_iff.mp setUp with ⟨_, _, setUp⟩
  rcases Option.bind_eq_some_iff.mp setUp with ⟨ipv4, added4, setUp⟩
  rcases Option.bind_eq_some_iff.mp setUp with ⟨_, _, setUp⟩
  rcases Option.bind_eq_some_iff.mp setUp with ⟨ipv6, added6, setUp⟩
  cases setUp
  exact ⟨addRoutes_spec _ _ _ added4 empty, addRoutes_spec _ _ _ added6 empty⟩

/-! ## Where the hops lead -/

/-- The hop of a packet that is looked up by itself. -/
def fibHop (tables : FibTables) (pkt : RteMbuf) : BitVec 16 :=
  if rteEthIsIpv4Hdr pkt.packetType then
    (tables.rteFibLookupBulk (fun _ => bswap32 pkt.ipv4DstAddr) 1 0).setWidth 16
  else
    (tables.rteFib6LookupBulk (fun _ => load 16 pkt.data ipv6DstAddr) 1 0).setWidth 16

/-- Each packet is sent to the port of its hop, behind the checks of the build. The default
hop stands for the incoming port. -/
def fibDstPort (build : Build) (env : Env) (tables : FibTables) : BurstPorts :=
  fun burst portid i =>
    let pkt := burst.packet i
    let nh := fibHop tables pkt
    (fibFate build env pkt (if nh ≠ fibDefaultHop then nh else portid)).port

/-- The tables look each address up by itself, and only yield the default and allowed
ports. -/
structure FibTables.Within (tables : FibTables) (allowed : BitVec 16 → Prop) : Prop where
  bulk : ∀ ips num i, i < num →
    tables.rteFibLookupBulk ips num i = tables.rteFibLookupBulk (fun _ => ips i) 1 0
  bulk6 : ∀ ips num i, i < num →
    tables.rteFib6LookupBulk ips num i = tables.rteFib6LookupBulk (fun _ => ips i) 1 0
  hop : ∀ pkt, fibHop tables pkt = fibDefaultHop ∨ allowed (fibHop tables pkt)

section

variable {allowed : BitVec 16 → Prop} {tables : FibTables} (within : tables.Within allowed)

include within

theorem fibNextHop_eq (mbufs : MbufHeap) (pkts : Nat → MbufPtr) (search : FibSearch)
    {num i : Nat} (inside : i < num) :
    fibNextHop tables mbufs pkts search num i = fibHop tables (mbufs (pkts i)) := by
  have parsed := fibParsePackets_spec mbufs pkts search num
  let looked := (fibParsePackets mbufs pkts search num).lookup tables
  have kind : looked.typeArr i ≠ 0#8 ↔ rteEthIsIpv4Hdr (mbufs (pkts i)).packetType = true :=
    parsed.types i inside
  change ((fibPlace (fun i => mbufs (pkts i)) i).next looked i).1 = _
  unfold fibHop
  by_cases isIpv4 : rteEthIsIpv4Hdr (mbufs (pkts i)).packetType = true
  · have place := parsed.ipv4.place_lt inside isIpv4
    have hops : looked.hopsv4 = _ := if_pos (Nat.zero_lt_of_lt place)
    rw [if_pos isIpv4, FibAssem.next_ipv4 (kind.mpr isIpv4), hops]
    change (tables.rteFibLookupBulk _ _ (Nat.count _ i)).setWidth 16 = _
    rw [within.bulk _ _ _ place, parsed.ipv4.entries i inside isIpv4]
  · have place := parsed.ipv6.place_lt inside isIpv4
    have hops : looked.hopsv6 = _ := if_pos (Nat.zero_lt_of_lt place)
    rw [if_neg isIpv4, FibAssem.next_ipv6 fun isType => isIpv4 (kind.mp isType), hops]
    change (tables.rteFib6LookupBulk _ _ (Nat.count _ i)).setWidth 16 = _
    rw [within.bulk6 _ _ _ place, parsed.ipv6.entries i inside isIpv4]

/-- In a burst, a packet gets the hop that it gets by itself. -/
theorem fibHops_within (mbufs : MbufHeap) (search : FibSearch) (pktsBurst : Nat → MbufPtr)
    (portid : BitVec 16) (hops : Nat → BitVec 16) {nbRx i : Nat} (inside : i < nbRx) :
    fibHops tables mbufs search nbRx pktsBurst portid hops i =
      if fibHop tables (mbufs (pktsBurst i)) ≠ fibDefaultHop then
        fibHop tables (mbufs (pktsBurst i))
      else
        portid := by
  rw [fibHops_eq tables mbufs search nbRx pktsBurst portid hops inside,
    fibNextHop_eq within mbufs pktsBurst search inside]

/-- A packet gets an allowed port, as the default hop stands for the incoming port. -/
theorem fibHops_allowed (mbufs : MbufHeap) (search : FibSearch) (pktsBurst : Nat → MbufPtr)
    {portid : BitVec 16} (incoming : allowed portid) (hops : Nat → BitVec 16) {nbRx i : Nat}
    (inside : i < nbRx) :
    allowed (fibHops tables mbufs search nbRx pktsBurst portid hops i) := by
  rw [fibHops_within within mbufs search pktsBurst portid hops inside]
  split
  · rename_i notDefault
    exact (within.hop _).resolve_left notDefault
  · exact incoming

end

theorem LpmRoutes.Enabled.fibWithin {eal : Eal} {mask : BitVec 32} {lib : RteFib}
    {rules : LpmRoutes} (enabled : rules.Enabled eal mask) (lawful : lib.Lawful) :
    (lib.tables rules).Within (· ∈ enabledPorts eal mask) := by
  have narrow : ∀ ifOut : BitVec 8, (ifOut.setWidth 64).setWidth 16 = ifOut.setWidth 16 :=
    fun ifOut => BitVec.setWidth_setWidth_of_le ifOut (by decide)
  have default : (fibDefaultHop.setWidth 64).setWidth 16 = fibDefaultHop := by decide
  refine ⟨lawful.bulk _ rules.ipv4, lawful.bulk6 _ rules.ipv6, ?_⟩
  intro pkt
  unfold fibHop RteFib.tables
  by_cases isIpv4 : rteEthIsIpv4Hdr pkt.packetType = true
  · simp only [if_pos isIpv4]
    rcases lawful.lookup (fibDefaultHop.setWidth 64) rules.ipv4 (fun _ => bswap32 pkt.ipv4DstAddr)
      1 0 Nat.one_pos with isDefault | ⟨rule, member, found⟩
    · rw [isDefault]
      exact Or.inl default
    · rw [found, narrow]
      exact Or.inr (enabled.ipv4 rule member)
  · simp only [if_neg isIpv4]
    rcases lawful.lookup6 (fibDefaultHop.setWidth 64) rules.ipv6
      (fun _ => load 16 pkt.data ipv6DstAddr) 1 0 Nat.one_pos with
      isDefault | ⟨rule, member, found⟩
    · rw [isDefault]
      exact Or.inl default
    · rw [found, narrow]
      exact Or.inr (enabled.ipv6 rule member)

/-! ## What the path relays -/

/-- `fib_main_loop`. What the arrays of a lookup hold before is an argument. -/
def fibMainLoop (build : Build) (env : Env) (tables : FibTables) (search : FibSearch)
    (tscHz tsc : BitVec 64) (state : LcoreState) (rounds : List PollRound) : Except Fault Poll :=
  pollMainLoop env (fibSendPackets build env tables search) tscHz tsc state rounds

/-- Without vector instructions the packets are sent one by one, from different mbufs. -/
def FibFine (build : Build) (burst : RxBurst) : Prop :=
  match build with
  | .simd => True
  | .generic => burst.Distinct

section

variable {allowed : BitVec 16 → Prop} (exist : ∀ port, allowed port → port.toNat < rteMaxEthports)

include exist

theorem fibSendSingle_relayed {env : Env}
    (burst : 0 < env.rxBurstSize ∧ env.rxBurstSize ≤ maxPktBurst) (pkts : Nat → MbufPtr)
    (result : LcoreState × (Nat → BitVec 16)) (j : Nat) (below : result.1.Below env.rxBurstSize)
    (toPort : result.2 j = badPort ∨ allowed (result.2 j)) :
    Outcome (fun next => Relayed allowed env.rxBurstSize result.1
          [(pkts j, (result.1.mbufs (pkts j)).checkedPort (result.2 j))] next.1 ∧
        (∀ i, i ≠ j → next.2 i = result.2 i) ∧
        ∀ m, m ≠ pkts j → next.1.mbufs m = result.1.mbufs m) False
      (fibSendSingle env pkts result j) := by
  rcases result with ⟨state, hops⟩
  have port := fibProcessPacket_port .generic env (state.mbufs (pkts j)) (hops j)
  have others : ∀ port i, i ≠ j → Function.update hops j port i = hops i :=
    fun port i different => Function.update_of_ne different port hops
  unfold fibSendSingle
  dsimp only
  rw [port]
  by_cases bad : (state.mbufs (pkts j)).checkedPort (hops j) = badPort
  · rw [if_pos bad]
    refine ⟨?_, others _, fun m apart => Function.update_of_ne apart _ state.mbufs⟩
    exact (Relayed.free below [(pkts j, _)]).rewritten _
  · have isAllowed := RteMbuf.checkedPort_of_ne bad toPort
    rw [if_neg bad]
    apply (sendRewritten_relayed exist burst below (pkts j) _ isAllowed).bind
    rintro ⟨last, sent⟩ ⟨relayed, packets⟩
    exact ⟨relayed, others _, packets⟩

theorem fibSendPackets_relays (build : Build) {env : Env}
    (burst : 0 < env.rxBurstSize ∧ env.rxBurstSize ≤ maxPktBurst) {tables : FibTables}
    (within : tables.Within allowed) (search : FibSearch) :
    Relays env allowed (build.bound env) (FibFine build) (fibDstPort build env tables)
      (fibSendPackets build env tables search) where
  exist := exist
  positive := build.bound_pos burst
  small := build.bound_le burst
  relays := by
    intro state rx portid below positive inside fine incoming
    let received : LcoreState := { state with mbufs := rx.fill state.mbufs }
    let hops := fibHops tables received.mbufs search rx.nbRx rx.pktsBurst portid env.stack
    have toPorts : ∀ i, i < rx.nbRx → allowed (hops i) := fun i inBurst =>
      fibHops_allowed within received.mbufs search rx.pktsBurst incoming env.stack inBurst
    have isHanded : (List.range rx.nbRx).map (fun i =>
        (rx.pktsBurst i, (received.mbufs (rx.pktsBurst i)).checkedPort (hops i))) =
        rx.handed (fibDstPort build env tables rx portid) := by
      apply rx.handed_congr
      intro i inBurst
      have packet : received.mbufs (rx.pktsBurst i) = rx.packet i :=
        rx.fill_pktsBurst state.mbufs inBurst
      have isHop : hops i = _ :=
        fibHops_within within received.mbufs search rx.pktsBurst portid env.stack inBurst
      rw [isHop, packet]
      exact (fibFate_port build env (rx.packet i) _).symm
    cases build with
    | simd =>
        have room : received.HasRoom := below
        apply (sendPacketsMulti_relayed exist env rx.pktsBurst _ room positive
          (Nat.le_trans inside burst.2) toPorts).bind
        rintro ⟨last, stats⟩ relayed
        rw [isHanded] at relayed
        exact Relayed.of_rewritten relayed
    | generic =>
        have room : received.Below env.rxBurstSize := below
        apply (singles_relayed room rx.pktsBurst fine.pktsBurst
          (fun i inBurst => Or.inr (toPorts i inBurst))
          (fun result j below toPort =>
            fibSendSingle_relayed exist burst rx.pktsBurst result j below toPort)).bind
        rintro ⟨last, hops⟩ relayed
        rw [isHanded] at relayed
        exact Relayed.of_rewritten relayed

end

/-! ## The main loop -/

/-- With ports, lcores and tables as they are set up, every lcore conveys its packets to ports
that are set up, each to the port of its hop. -/
theorem fibMainLoop_conveyed (build : Build) (env : Env)
    (sizes : 0 < env.rxBurstSize ∧ env.rxBurstSize ≤ maxPktBurst) {eal : Eal}
    {params : List LcoreParams} {mask : BitVec 32} {addrs : EthAddrs} {setup : SetupState}
    (setUp : l3fwdPollResourceSetup eal params mask addrs = some setup) {lib : RteFib}
    (lawful : lib.Lawful) {routes rules : LpmRoutes}
    (tablesSetUp : setupFib eal mask lib routes = some rules) (search : FibSearch) (lcore : Nat)
    (mbufs : MbufHeap) (tscHz tsc : BitVec 64) {rounds : List PollRound}
    (bursts : ∀ round ∈ rounds, ∀ i,
      (round.rx i).nbRx ≤ env.rxBurstSize ∧ FibFine build (round.rx i)) :
    let start := LcoreState.launched mbufs (setup.lcoreConf lcore)
    ∃ poll, fibMainLoop build env (lib.tables rules) search tscHz tsc start rounds = .ok poll ∧
      Conveyed (· ∈ enabledPorts eal mask) (fibDstPort build env (lib.tables rules)) start
        (drainTsc tscHz) tsc (pollHeads tsc rounds) poll.state :=
  (launched_setUp setUp lcore mbufs).conveyed
    (fibSendPackets_relays enabledPorts_exist build sizes
      ((setupFib_enabled tablesSetUp).fibWithin lawful) search)
    (fun _ member => member) tscHz tsc bursts

/-- Longest prefix match for IPv4, and IPv6 tables without routes. -/
def prefixFib : RteFib where
  rteFibCreate := true
  rteFib6Create := true
  rteFibAdd := fun _ _ => true
  rteFib6Add := fun _ _ => false
  rteFibLookupBulk := fun defaultNh rules ips _ i =>
    match longestMatch rules (ips i) with
    | some hop => hop.setWidth 64
    | none => defaultNh
  rteFib6LookupBulk := fun defaultNh _ _ _ _ => defaultNh

/-- A byte may be widened in two steps. -/
theorem setWidth_setWidth_byte (byte : BitVec 8) :
    (byte.setWidth 32).setWidth 64 = byte.setWidth 64 := by
  have small := byte.isLt
  apply BitVec.eq_of_toNat_eq
  simp only [BitVec.toNat_setWidth]
  omega

theorem prefixFib_lawful : prefixFib.Lawful where
  bulk := fun _ _ _ _ _ _ => rfl
  bulk6 := fun _ _ _ _ _ _ => rfl
  lookup := by
    intro defaultNh rules ips num i _
    change (match longestMatch rules (ips i) with
      | some hop => hop.setWidth 64
      | none => defaultNh) = defaultNh ∨ ∃ rule ∈ rules, (match longestMatch rules (ips i) with
      | some hop => hop.setWidth 64
      | none => defaultNh) = rule.ifOut.setWidth 64
    cases found : longestMatch rules (ips i) with
    | none => exact Or.inl rfl
    | some hop =>
        rcases prefixLpm_lawful.lookup rules (ips i) hop found with ⟨rule, member, rfl⟩
        exact Or.inr ⟨rule, member, setWidth_setWidth_byte rule.ifOut⟩
  lookup6 := fun _ _ _ _ _ _ => Or.inl rfl

theorem fibMainLoop_conveyed_single :
    ∃ setup rules, l3fwdPollResourceSetup twoPortEal threeQueues 0x3#32
        ⟨fun _ => 0, fun _ => 0, fun _ => 0⟩ = some setup ∧
      setupFib twoPortEal 0x3#32 prefixFib threeRoutes = some rules ∧
      let env : Env := { (default : Env) with rxBurstSize := 32, txBurstSize := 32 }
      let start := LcoreState.launched default (setup.lcoreConf 2)
      let rounds := [PollRound.single 7 routedPacket 1000#64,
        PollRound.single 8 routedPacket 2000#64]
      fibDstPort .generic env (prefixFib.tables rules) ⟨[(7, routedPacket)]⟩ 0#16 0 = 1#16 ∧
      ∃ poll, fibMainLoop .generic env (prefixFib.tables rules) default 3000000000#64 0#64 start
          rounds = .ok poll ∧
        Conveyed (· ∈ enabledPorts twoPortEal 0x3#32)
          (fibDstPort .generic env (prefixFib.tables rules)) start (drainTsc 3000000000#64) 0#64
          (pollHeads 0#64 rounds) poll.state := by
  rcases twoPort_setUp with ⟨setup, setUp⟩
  refine ⟨setup, _, setUp, rfl, ?_⟩
  intro env start rounds
  refine ⟨by decide +kernel, ?_⟩
  have fine := fun m => PollRound.single_cases m routedPacket
    (p := fun burst => burst.nbRx ≤ env.rxBurstSize ∧ FibFine .generic burst)
    ⟨Nat.zero_le _, List.nodup_nil⟩ ⟨Nat.le_of_ble_eq_true rfl, List.nodup_singleton m⟩
  have tablesSetUp : setupFib twoPortEal 0x3#32 prefixFib threeRoutes = some _ := rfl
  apply fibMainLoop_conveyed .generic env ⟨by decide, by decide⟩ setUp prefixFib_lawful
    tablesSetUp
  intro round member i
  rcases List.mem_pair.mp member with rfl | rfl
  · exact fine 7 1000#64 i
  · exact fine 8 2000#64 i

end PacketForwarding.L3fwd
