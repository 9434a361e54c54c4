import PacketForwarding.L3fwd.FibLoop

/-! # Two lookup methods, one way of forwarding

Longest prefix match and the forwarding information base are set up from the same routes. With
libraries that find the same routes, the vector builds of the two main loops do the same with
every packet that is IP.
-/

namespace PacketForwarding.L3fwd

open Cells

/-- The libraries answer alike: one finds what the other finds, and has its default where the
other finds nothing. -/
structure SameMatch (lpm : RteLpm) (fib : RteFib) : Prop where
  lookup : ∀ defaultNh rules ips num i, i < num →
    fib.rteFibLookupBulk defaultNh rules ips num i =
      ((lpm.rteLpmLookup rules (ips i)).map fun hop => hop.setWidth 64).getD defaultNh
  lookup6 : ∀ defaultNh rules ips num i, i < num →
    fib.rteFib6LookupBulk defaultNh rules ips num i =
      ((lpm.rteLpm6Lookup rules (ips i)).map fun hop => hop.setWidth 64).getD defaultNh

/-! ## The same routes are added -/

/-- The routes to ports that are in the mask. -/
def usedRoutes (mask : BitVec 32) (routes : List (LpmRouteRule α)) : List (LpmRouteRule α) :=
  routes.filter fun route => portInMask mask route.ifOut.toNat

theorem addRoute_eq {eal : Eal} {mask : BitVec 32}
    {add : List (LpmRouteRule α) → LpmRouteRule α → Bool} {rules rules' : List (LpmRouteRule α)}
    {route : LpmRouteRule α} (added : addRoute eal mask add rules route = some rules') :
    rules' = rules ++ usedRoutes mask [route] := by
  unfold addRoute at added
  by_cases unused : portInMask mask route.ifOut.toNat = false
  · rw [if_pos unused] at added
    cases added
    simp [usedRoutes, unused]
  · rw [if_neg unused] at added
    split at added
    · cases added
    · split at added
      · cases added
      · cases added
        simp [usedRoutes, Bool.eq_true_of_not_eq_false unused]

/-- Whatever the library, the routes that it gets are those to ports that are used. -/
theorem addRoutes_eq {eal : Eal} {mask : BitVec 32}
    {add : List (LpmRouteRule α) → LpmRouteRule α → Bool} :
    ∀ (routes rules rules' : List (LpmRouteRule α)),
      routes.foldlM (addRoute eal mask add) rules = some rules' →
      rules' = rules ++ usedRoutes mask routes := by
  intro routes
  induction routes with
  | nil =>
      intro rules rules' ended
      cases ended
      exact (List.append_nil rules).symm
  | cons route routes induction =>
      intro rules rules' ended
      rw [List.foldlM_cons] at ended
      rcases Option.bind_eq_some_iff.mp ended with ⟨middle, added, rest⟩
      rw [induction middle rules' rest, addRoute_eq added, List.append_assoc]
      congr 1
      exact (List.filter_append (p := fun route : LpmRouteRule α =>
        portInMask mask route.ifOut.toNat) [route] routes).symm

def LpmRoutes.used (mask : BitVec 32) (routes : LpmRoutes) : LpmRoutes :=
  ⟨usedRoutes mask routes.ipv4, usedRoutes mask routes.ipv6⟩

theorem setupLpm_used {eal : Eal} {mask : BitVec 32} {lib : RteLpm} {routes rules : LpmRoutes}
    (setUp : setupLpm eal mask lib routes = some rules) : rules = routes.used mask := by
  unfold setupLpm at setUp
  rcases Option.bind_eq_some_iff.mp setUp with ⟨_, _, setUp⟩
  rcases Option.bind_eq_some_iff.mp setUp with ⟨ipv4, added4, setUp⟩
  rcases Option.bind_eq_some_iff.mp setUp with ⟨_, _, setUp⟩
  rcases Option.bind_eq_some_iff.mp setUp with ⟨ipv6, added6, setUp⟩
  cases setUp
  rw [addRoutes_eq _ _ _ added4, addRoutes_eq _ _ _ added6]
  rfl

theorem setupFib_used {eal : Eal} {mask : BitVec 32} {lib : RteFib} {routes rules : LpmRoutes}
    (setUp : setupFib eal mask lib routes = some rules) : rules = routes.used mask := by
  unfold setupFib at setUp
  rcases Option.bind_eq_some_iff.mp setUp with ⟨_, _, setUp⟩
  rcases Option.bind_eq_some_iff.mp setUp with ⟨ipv4, added4, setUp⟩
  rcases Option.bind_eq_some_iff.mp setUp with ⟨_, _, setUp⟩
  rcases Option.bind_eq_some_iff.mp setUp with ⟨ipv6, added6, setUp⟩
  cases setUp
  rw [addRoutes_eq _ _ _ added4, addRoutes_eq _ _ _ added6]
  rfl

/-- If both set-ups succeed, their tables have the same routes. -/
theorem sameRules {eal : Eal} {mask : BitVec 32} {lpm : RteLpm} {fib : RteFib}
    {routes rules rules' : LpmRoutes} (setUp : setupLpm eal mask lpm routes = some rules)
    (setUp' : setupFib eal mask fib routes = some rules') : rules' = rules :=
  (setupFib_used setUp').trans (setupLpm_used setUp).symm

theorem SameMatch.sameRoutes {lpm : RteLpm} {fib : RteFib} (same : SameMatch lpm fib)
    (lawful : lpm.Lawful) (rules : LpmRoutes) :
    SameRoutes (lpm.tables rules) (fib.tables rules) := by
  have asResult : ∀ found : Option (BitVec 32),
      (found.map fun hop => hop.setWidth 64).getD (fibDefaultHop.setWidth 64) =
        fibResult found := by
    intro found
    cases found with
    | none => rfl
    | some hop => rfl
  have notDefault : ∀ ifOut : BitVec 8, (ifOut.setWidth 32).setWidth 16 ≠ fibDefaultHop := by
    intro ifOut isDefault
    have small := ifOut.isLt
    have number := congrArg BitVec.toNat isDefault
    simp only [BitVec.toNat_setWidth, fibDefaultHop, BitVec.toNat_ofNat] at number
    omega
  constructor
  · intro ips num i inside
    exact (same.lookup _ _ ips num i inside).trans (asResult _)
  · intro ips num i inside
    exact (same.lookup6 _ _ ips num i inside).trans (asResult _)
  · intro ip hop found
    rcases lawful.lookup _ _ _ found with ⟨rule, _, rfl⟩
    exact notDefault rule.ifOut
  · intro ip hop found
    rcases lawful.lookup6 _ _ _ found with ⟨rule, _, rfl⟩
    exact notDefault rule.ifOut

/-! ## Bursts -/

/-- The assembly of hops leaves the array alone behind the burst. -/
theorem fibAssignHops_outside (search : FibSearch) (portid : BitVec 16) (hops : Nat → BitVec 16)
    {i : Nat} : ∀ nbRx, nbRx ≤ i →
      ((List.range nbRx).foldl (fibAssignHop search portid) (⟨0, 0⟩, hops)).2 i = hops i
  | 0, _ => rfl
  | nbRx + 1, after => by
      rw [List.range_succ, List.foldl_append]
      have different : i ≠ nbRx := by omega
      exact (Function.update_of_ne different _ _).trans
        (fibAssignHops_outside search portid hops nbRx (by omega))

/-- A burst of IP packets. -/
def RxBurst.AllIp (burst : RxBurst) : Prop :=
  ∀ packet ∈ burst.packets, packet.2.isIp = true

/-- An mbuf of a burst holds one of its packets. -/
theorem RxBurst.fill_mem (burst : RxBurst) (mbufs : MbufHeap) {m : MbufPtr}
    (member : m ∈ burst.packets.map Prod.fst) :
    burst.fill mbufs m ∈ burst.packets.map Prod.snd := by
  unfold fill
  generalize burst.packets = packets at member
  induction packets using List.reverseRecOn with
  | nil => exact absurd member List.not_mem_nil
  | append_singleton before last induction =>
      rw [List.foldl_append, List.foldl_cons, List.foldl_nil, List.map_append]
      by_cases isLast : m = last.1
      · rw [isLast, Function.update_self]
        exact List.mem_append_right _ List.mem_cons_self
      · rw [Function.update_of_ne isLast]
        rw [List.map_append, List.mem_append] at member
        exact List.mem_append_left _ (induction (member.resolve_right fun isSingle =>
          isLast (List.mem_singleton.mp isSingle)))

theorem fibHops_eq_assign {lpm : LpmTables} {fib : FibTables} (same : SameRoutes lpm fib)
    (burst : RxBurst) (allIp : burst.AllIp) (mbufs : MbufHeap) (search : FibSearch)
    (portid : BitVec 16) (hops : Nat → BitVec 16) :
    fibHops fib (burst.fill mbufs) search burst.nbRx burst.pktsBurst portid hops =
      assign (lpmPort lpm (burst.fill mbufs) burst.pktsBurst portid) 0 burst.nbRx hops := by
  have isIp : ∀ i, i < burst.nbRx →
      (burst.fill mbufs (burst.pktsBurst i)).isIp = true := by
    intro i inside
    rcases List.mem_map.mp (burst.fill_mem mbufs (burst.pktsBurst_mem inside)) with
      ⟨packet, isPacket, holds⟩
    rw [← holds]
    exact allIp packet isPacket
  funext i
  by_cases inside : i < burst.nbRx
  · have port : assign (lpmPort lpm (burst.fill mbufs) burst.pktsBurst portid) 0 burst.nbRx hops
        i = lpmPort lpm (burst.fill mbufs) burst.pktsBurst portid i := if_pos (by omega)
    rw [port]
    have agrees : ∀ i, i < burst.nbRx → _ :=
      (fibHops_agree_iff same (burst.fill mbufs) search burst.pktsBurst portid hops).mpr
        fun i inside => Or.inl (isIp i inside)
    exact agrees i inside
  · have kept : assign (lpmPort lpm (burst.fill mbufs) burst.pktsBurst portid) 0 burst.nbRx hops
        i = hops i := if_neg (by omega)
    rw [kept]
    exact fibAssignHops_outside _ portid hops burst.nbRx (Nat.le_of_not_lt inside)

theorem lpmSender_eq_fibSendPackets (env : Env) {lpm : LpmTables} (lawful : lpm.Lawful)
    {fib : FibTables} (same : SameRoutes lpm fib) (search : FibSearch) (state : LcoreState)
    (burst : RxBurst) (allIp : burst.AllIp) {portid : BitVec 16} (small : portid.toNat < 2 ^ 15) :
    lpmSender .simd env lpm { state with mbufs := burst.fill state.mbufs } burst.nbRx
        burst.pktsBurst portid =
      fibSendPackets .simd env fib search { state with mbufs := burst.fill state.mbufs }
        burst.nbRx burst.pktsBurst portid := by
  have looked := l3fwdLpmProcessPackets_lookup env lawful (burst.fill state.mbufs) burst.nbRx
    burst.pktsBurst env.stack small
  have hops := fibHops_eq_assign same burst allIp state.mbufs search portid env.stack
  simp only [lpmSender, lpmSendPackets, l3fwdLpmSendPackets, fibSendPackets, looked, hops]
  rfl

/-! ## The main loops -/

/-- Whatever IP packets come in, an lcore that uses one method ends in the state in which it
would be with the other. -/
theorem fibMainLoop_eq_lpmClockLoop (env : Env)
    (sizes : 0 < env.rxBurstSize ∧ env.rxBurstSize ≤ maxPktBurst) {eal : Eal}
    {params : List LcoreParams} {mask : BitVec 32} {addrs : EthAddrs} {setup : SetupState}
    (setUp : l3fwdPollResourceSetup eal params mask addrs = some setup) {lpm : RteLpm}
    (lawful : lpm.Lawful) {fib : RteFib} (same : SameMatch lpm fib)
    {routes rules rules' : LpmRoutes} (lpmSetUp : setupLpm eal mask lpm routes = some rules)
    (fibSetUp : setupFib eal mask fib routes = some rules') (search : FibSearch) (lcore : Nat)
    (mbufs : MbufHeap) (tscHz tsc : BitVec 64) {rounds : List PollRound}
    (bursts : ∀ round ∈ rounds, ∀ i,
      (round.rx i).nbRx ≤ env.rxBurstSize ∧ (round.rx i).AllIp) :
    let start := LcoreState.launched mbufs (setup.lcoreConf lcore)
    (fibMainLoop .simd env (fib.tables rules') search tscHz tsc start rounds).map Poll.state =
      (lpmClockLoop .simd env (lpm.tables rules) tscHz tsc start rounds).map
        MainLoop.state := by
  intro start
  have isSetUp := launched_setUp setUp lcore mbufs
  have tables : (lpm.tables rules).Lawful := LpmRoutes.Enabled.tables_lawful lawful
  have relays : Relays env (· ∈ enabledPorts eal mask) (Build.simd.bound env) RxBurst.AllIp
      (lpmDstPort .simd env (lpm.tables rules)) (lpmSender .simd env (lpm.tables rules)) := by
    have any := setupLpm_relays lawful lpmSetUp .simd sizes
    exact ⟨any.exist, any.positive, any.small, fun state burst portid below positive inside _ =>
      any.relays state burst portid below positive inside trivial⟩
  have loops : pollMainLoop env (lpmSender .simd env (lpm.tables rules)) tscHz tsc start rounds =
      fibMainLoop .simd env (fib.tables rules) search tscHz tsc start rounds := by
    apply isSetUp.congr relays (fun _ member => member) _ tscHz tsc bursts
    intro state burst portid _ allIp incoming
    have valid : portid.toNat < rteMaxEthports := enabledPorts_exist portid incoming
    exact lpmSender_eq_fibSendPackets env tables (same.sameRoutes lawful rules) search state
      burst allIp (Nat.lt_trans valid (by decide))
  rw [sameRules lpmSetUp fibSetUp, lpmClockLoop_state, loops]

theorem sameMatch_prefix : SameMatch prefixLpm prefixFib where
  lookup := by
    intro defaultNh rules ips num i _
    simp only [prefixFib, prefixLpm]
    cases longestMatch rules (ips i) with
    | none => rfl
    | some hop => rfl
  lookup6 := fun _ _ _ _ _ _ => rfl

theorem fibMainLoop_eq_lpmClockLoop_routed :
    ∃ setup rules, l3fwdPollResourceSetup twoPortEal threeQueues 0x3#32
        ⟨fun _ => 0, fun _ => 0, fun _ => 0⟩ = some setup ∧
      setupLpm twoPortEal 0x3#32 prefixLpm threeRoutes = some rules ∧
      let env : Env := { (default : Env) with rxBurstSize := 32, txBurstSize := 32 }
      let start := LcoreState.launched default (setup.lcoreConf 2)
      let rounds := [PollRound.single 7 routedPacket 1000#64]
      lpmDstPort .simd env (prefixLpm.tables rules) ⟨[(7, routedPacket)]⟩ 0#16 0 = 1#16 ∧
      (fibMainLoop .simd env (prefixFib.tables rules) default 3000000000#64 0#64 start rounds).map
          Poll.state =
        (lpmClockLoop .simd env (prefixLpm.tables rules) 3000000000#64 0#64 start rounds).map
          MainLoop.state := by
  rcases twoPort_setUp with ⟨setup, setUp⟩
  refine ⟨setup, _, setUp, rfl, ?_⟩
  intro env start rounds
  refine ⟨by decide +kernel, ?_⟩
  have isIp : (⟨[(7, routedPacket)]⟩ : RxBurst).AllIp := by
    intro packet member
    rw [List.mem_singleton.mp member]
    decide
  have fine := PollRound.single_cases 7 routedPacket
    (p := fun burst => burst.nbRx ≤ env.rxBurstSize ∧ burst.AllIp)
    ⟨Nat.zero_le _, fun _ impossible => absurd impossible List.not_mem_nil⟩
    ⟨Nat.le_of_ble_eq_true rfl, isIp⟩
  have lpmSetUp : setupLpm twoPortEal 0x3#32 prefixLpm threeRoutes = some _ := rfl
  have fibSetUp : setupFib twoPortEal 0x3#32 prefixFib threeRoutes = some _ := rfl
  apply fibMainLoop_eq_lpmClockLoop env ⟨by decide, by decide⟩ setUp prefixLpm_lawful
    sameMatch_prefix lpmSetUp fibSetUp
  intro round member i
  rw [List.mem_singleton.mp member]
  exact fine 1000#64 i

end PacketForwarding.L3fwd
