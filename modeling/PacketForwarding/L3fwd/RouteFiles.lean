import PacketForwarding.Foundation.LongestPrefix
import PacketForwarding.L3fwd.FibAsLpm
import PacketForwarding.L3fwd.LpmRules
import PacketForwarding.L3fwd.Program

/-! # From rule files to the ports

The routes come from two files, or are the default ones. With libraries that find the longest
prefix, a packet goes to the port that the longest route for its destination names, if that
port is enabled, and otherwise back to the port that it came from.
-/

namespace PacketForwarding.L3fwd

open CString Lanes LongestPrefix

deriving instance DecidableEq for LpmRoutes

/-! ## Reading the routes -/

/-- `RTE_IPV4` -/
def rteIpv4 (a b c d : BitVec 8) : BitVec 32 := a ++ b ++ c ++ d

/-- `RTE_IPV6`, as the bytes lie in memory. -/
def rteIpv6 (a b c d e f g h : BitVec 16) : BitVec 128 :=
  ofLanes 16 8 fun index => bswap16 ([a, b, c, d, e, f, g, h].getD index 0#16)

/-- `ipv4_l3fwd_route_array`: 198.18.{0-15}.0/24 = Port {0-15} -/
def ipv4L3fwdRouteArray : List (LpmRouteRule (BitVec 32)) :=
  [⟨rteIpv4 198 18 0 0, 24, 0⟩, ⟨rteIpv4 198 18 1 0, 24, 1⟩, ⟨rteIpv4 198 18 2 0, 24, 2⟩,
    ⟨rteIpv4 198 18 3 0, 24, 3⟩, ⟨rteIpv4 198 18 4 0, 24, 4⟩, ⟨rteIpv4 198 18 5 0, 24, 5⟩,
    ⟨rteIpv4 198 18 6 0, 24, 6⟩, ⟨rteIpv4 198 18 7 0, 24, 7⟩, ⟨rteIpv4 198 18 8 0, 24, 8⟩,
    ⟨rteIpv4 198 18 9 0, 24, 9⟩, ⟨rteIpv4 198 18 10 0, 24, 10⟩, ⟨rteIpv4 198 18 11 0, 24, 11⟩,
    ⟨rteIpv4 198 18 12 0, 24, 12⟩, ⟨rteIpv4 198 18 13 0, 24, 13⟩,
    ⟨rteIpv4 198 18 14 0, 24, 14⟩, ⟨rteIpv4 198 18 15 0, 24, 15⟩]

/-- `ipv6_l3fwd_route_array`: 2001:200:0:{0-f}::/64 = Port {0-15} -/
def ipv6L3fwdRouteArray : List (LpmRouteRule (BitVec 128)) :=
  [⟨rteIpv6 0x2001 0x0200 0 0x0 0 0 0 0, 64, 0⟩, ⟨rteIpv6 0x2001 0x0200 0 0x1 0 0 0 0, 64, 1⟩,
    ⟨rteIpv6 0x2001 0x0200 0 0x2 0 0 0 0, 64, 2⟩, ⟨rteIpv6 0x2001 0x0200 0 0x3 0 0 0 0, 64, 3⟩,
    ⟨rteIpv6 0x2001 0x0200 0 0x4 0 0 0 0, 64, 4⟩, ⟨rteIpv6 0x2001 0x0200 0 0x5 0 0 0 0, 64, 5⟩,
    ⟨rteIpv6 0x2001 0x0200 0 0x6 0 0 0 0, 64, 6⟩, ⟨rteIpv6 0x2001 0x0200 0 0x7 0 0 0 0, 64, 7⟩,
    ⟨rteIpv6 0x2001 0x0200 0 0x8 0 0 0 0, 64, 8⟩, ⟨rteIpv6 0x2001 0x0200 0 0x9 0 0 0 0, 64, 9⟩,
    ⟨rteIpv6 0x2001 0x0200 0 0xa 0 0 0 0, 64, 10⟩, ⟨rteIpv6 0x2001 0x0200 0 0xb 0 0 0 0, 64, 11⟩,
    ⟨rteIpv6 0x2001 0x0200 0 0xc 0 0 0 0, 64, 12⟩, ⟨rteIpv6 0x2001 0x0200 0 0xd 0 0 0 0, 64, 13⟩,
    ⟨rteIpv6 0x2001 0x0200 0 0xe 0 0 0 0, 64, 14⟩, ⟨rteIpv6 0x2001 0x0200 0 0xf 0 0 0 0, 64, 15⟩]

def readConfigFilesLpm (inet : Inet) (access : Bytes → FileAccess) (options : Options) :
    Except LoadStop LpmRoutes :=
  (readConfigFiles (lpmAddRules (lpmParseV4Rule inet) zeroIpv4Route)
    (lpmAddRules (lpmParseV6Rule inet) zeroIpv6Route) (ipv4L3fwdRouteArray, ipv6L3fwdRouteArray)
    access options).map fun rules => ⟨rules.1, rules.2⟩

/-- These routes are written in the files that the options name, or they are the default
ones. -/
def RoutesGiven (inet : Inet) (files : Bytes → Text) (options : Options) (routes : LpmRoutes) :
    Prop :=
  RulesGiven (RouteFile inet.ipv4) (RouteFile inet.ipv6)
    (ipv4L3fwdRouteArray, ipv6L3fwdRouteArray) files options (routes.ipv4, routes.ipv6)

theorem readConfigFilesLpm_iff (inet : Inet) {access : Bytes → FileAccess} {files : Bytes → Text}
    (available : ∀ name, (access name).Available (files name)) (options : Options)
    (routes : LpmRoutes) :
    readConfigFilesLpm inet access options = .ok routes ↔ RoutesGiven inet files options routes := by
  have reads : readConfigFiles (lpmAddRules (lpmParseV4Rule inet) zeroIpv4Route)
      (lpmAddRules (lpmParseV6Rule inet) zeroIpv6Route)
      (ipv4L3fwdRouteArray, ipv6L3fwdRouteArray) access options = .ok (routes.ipv4, routes.ipv6) ↔
      RoutesGiven inet files options routes :=
    readConfigFiles_iff _ (fun name _ _ => lpmAddRules_iff zeroIpv4Route (available name))
      (fun name _ _ => lpmAddRules_iff zeroIpv6Route (available name)) _
  rw [← reads]
  unfold readConfigFilesLpm
  cases readConfigFiles (lpmAddRules (lpmParseV4Rule inet) zeroIpv4Route)
    (lpmAddRules (lpmParseV6Rule inet) zeroIpv6Route)
    (ipv4L3fwdRouteArray, ipv6L3fwdRouteArray) access options with
  | error stop => exact ⟨nofun, nofun⟩
  | ok rules =>
      rcases rules with ⟨ipv4, ipv6⟩
      rcases routes with ⟨routes4, routes6⟩
      simp [Except.map]

/-! ## The longest route -/

/-- The bits of an address in the order in which they are sent. -/
def ipv6Bits (addr : BitVec 128) : BitVec 128 :=
  ofLanes 8 16 fun index => lane 8 addr (15 - index)

def ipv4Route (rule : LpmRouteRule (BitVec 32)) : Route 32 (BitVec 8) :=
  ⟨rule.ip, rule.depth.toNat, rule.ifOut⟩

def ipv6Route (rule : LpmRouteRule (BitVec 128)) : Route 128 (BitVec 8) :=
  ⟨ipv6Bits rule.ip, rule.depth.toNat, rule.ifOut⟩

def longestIpv4 (rules : List (LpmRouteRule (BitVec 32))) (ip : BitVec 32) :
    Option (BitVec 8) :=
  (lookup (rules.map ipv4Route) ip).map Route.hop

def longestIpv6 (rules : List (LpmRouteRule (BitVec 128))) (ip : BitVec 128) :
    Option (BitVec 8) :=
  (lookup (rules.map ipv6Route) (ipv6Bits ip)).map Route.hop

/-- The port of the longest route to the destination, or the incoming port. -/
def routedPort (routes : LpmRoutes) (pkt : RteMbuf) (portid : BitVec 16) : BitVec 16 :=
  let hop :=
    if rteEthIsIpv4Hdr pkt.packetType then longestIpv4 routes.ipv4 (bswap32 pkt.ipv4DstAddr)
    else longestIpv6 routes.ipv6 (load 16 pkt.data ipv6DstAddr)
  match hop with
  | some ifOut => ifOut.setWidth 16
  | none => portid

theorem longestIpv4_mem {rules : List (LpmRouteRule (BitVec 32))} {ip : BitVec 32}
    {ifOut : BitVec 8} (found : longestIpv4 rules ip = some ifOut) :
    ∃ rule ∈ rules, ifOut = rule.ifOut := by
  rcases Option.map_eq_some_iff.mp found with ⟨route, best, rfl⟩
  rcases List.mem_map.mp (longest_of_lookup best).mem with ⟨rule, member, rfl⟩
  exact ⟨rule, member, rfl⟩

theorem longestIpv6_mem {rules : List (LpmRouteRule (BitVec 128))} {ip : BitVec 128}
    {ifOut : BitVec 8} (found : longestIpv6 rules ip = some ifOut) :
    ∃ rule ∈ rules, ifOut = rule.ifOut := by
  rcases Option.map_eq_some_iff.mp found with ⟨route, best, rfl⟩
  rcases List.mem_map.mp (longest_of_lookup best).mem with ⟨rule, member, rfl⟩
  exact ⟨rule, member, rfl⟩

/-- What `rte_lpm` and `rte_lpm6` document: a lookup yields the next hop of the longest route,
and four at once are four lookups with a default. -/
structure RteLpm.FindsLongest (lib : RteLpm) : Prop where
  lookup : ∀ rules ip, lib.rteLpmLookup rules ip =
    (longestIpv4 rules ip).map fun ifOut => ifOut.setWidth 32
  lookup6 : ∀ rules ip, lib.rteLpm6Lookup rules ip =
    (longestIpv6 rules ip).map fun ifOut => ifOut.setWidth 32
  lookupx4 : ∀ rules ip defv index, index < 4 →
    lane 32 (lib.rteLpmLookupx4 rules ip defv) index =
      (lib.rteLpmLookup rules (lane 32 ip index)).getD defv

/-- The same of `rte_fib` and `rte_fib6`, which have a default of their own. -/
structure RteFib.FindsLongest (lib : RteFib) : Prop where
  lookup : ∀ defaultNh rules ips num i, i < num →
    lib.rteFibLookupBulk defaultNh rules ips num i =
      ((longestIpv4 rules (ips i)).map fun ifOut => ifOut.setWidth 64).getD defaultNh
  lookup6 : ∀ defaultNh rules ips num i, i < num →
    lib.rteFib6LookupBulk defaultNh rules ips num i =
      ((longestIpv6 rules (ips i)).map fun ifOut => ifOut.setWidth 64).getD defaultNh

theorem RteLpm.FindsLongest.lawful {lib : RteLpm} (finds : lib.FindsLongest) : lib.Lawful where
  lookup := by
    intro rules ip hop found
    rw [finds.lookup] at found
    rcases Option.map_eq_some_iff.mp found with ⟨ifOut, longest, rfl⟩
    rcases longestIpv4_mem longest with ⟨rule, member, rfl⟩
    exact ⟨rule, member, rfl⟩
  lookup6 := by
    intro rules ip hop found
    rw [finds.lookup6] at found
    rcases Option.map_eq_some_iff.mp found with ⟨ifOut, longest, rfl⟩
    rcases longestIpv6_mem longest with ⟨rule, member, rfl⟩
    exact ⟨rule, member, rfl⟩
  lookupx4 := finds.lookupx4

theorem RteFib.FindsLongest.lawful {lib : RteFib} (finds : lib.FindsLongest) : lib.Lawful where
  bulk := by
    intro defaultNh rules ips num i inside
    rw [finds.lookup _ _ _ _ _ inside, finds.lookup _ _ _ _ _ Nat.one_pos]
  bulk6 := by
    intro defaultNh rules ips num i inside
    rw [finds.lookup6 _ _ _ _ _ inside, finds.lookup6 _ _ _ _ _ Nat.one_pos]
  lookup := by
    intro defaultNh rules ips num i inside
    rw [finds.lookup _ _ _ _ _ inside]
    cases longest : longestIpv4 rules (ips i) with
    | none => exact Or.inl rfl
    | some ifOut =>
        rcases longestIpv4_mem longest with ⟨rule, member, rfl⟩
        exact Or.inr ⟨rule, member, rfl⟩
  lookup6 := by
    intro defaultNh rules ips num i inside
    rw [finds.lookup6 _ _ _ _ _ inside]
    cases longest : longestIpv6 rules (ips i) with
    | none => exact Or.inl rfl
    | some ifOut =>
        rcases longestIpv6_mem longest with ⟨rule, member, rfl⟩
        exact Or.inr ⟨rule, member, rfl⟩

/-! ## The ports of packets -/

/-- What is dropped with longest prefix match: malformed IPv4 packets. The path without vector
instructions also looks at checksums, and does not take packets that are no IP. -/
def LpmDrops (build : Build) (env : Env) (pkt : RteMbuf) : Prop :=
  match build with
  | .simd => pkt.Bad
  | .generic =>
      (rteEthIsIpv4Hdr pkt.packetType = true ∧
        (Malformed pkt.data ∨ pkt.pktLen.toNat < rteIpv4HdrLen ∨
          (Unchecked pkt.olFlags ∧ WrongChecksum env pkt.data))) ∨
      (rteEthIsIpv4Hdr pkt.packetType = false ∧ rteEthIsIpv6Hdr pkt.packetType = false)

instance (build : Build) (env : Env) (pkt : RteMbuf) : Decidable (LpmDrops build env pkt) :=
  match build with
  | .simd => inferInstanceAs (Decidable pkt.Bad)
  | .generic => inferInstanceAs (Decidable (_ ∨ _))

/-- Packets that are no IP go back. -/
def lpmRouted (build : Build) (env : Env) (routes : LpmRoutes) : BurstPorts :=
  fun burst portid i =>
    let pkt := burst.packet i
    if LpmDrops build env pkt then badPort
    else if pkt.isIp then routedPort routes pkt portid
    else portid

/-- Packets that are no IP are looked up like IPv6. -/
def fibRouted (routes : LpmRoutes) : BurstPorts :=
  fun burst portid i => (burst.packet i).checkedPort (routedPort routes (burst.packet i) portid)

theorem lpmGetDstPort_routed {lib : RteLpm} (finds : lib.FindsLongest) (rules : LpmRoutes)
    (pkt : RteMbuf) (portid : BitVec 16) :
    lpmGetDstPort (lib.tables rules) pkt portid =
      if pkt.isIp then routedPort rules pkt portid else portid := by
  have narrow : ∀ ifOut : BitVec 8, (ifOut.setWidth 32).setWidth 16 = ifOut.setWidth 16 :=
    fun ifOut => BitVec.setWidth_setWidth_of_le ifOut (by decide)
  unfold lpmGetDstPort RteMbuf.isIp routedPort
  by_cases isIpv4 : rteEthIsIpv4Hdr pkt.packetType = true
  · simp only [isIpv4, if_true, Bool.true_or, lpmGetIpv4DstPort, RteLpm.tables, finds.lookup]
    cases longestIpv4 rules.ipv4 (bswap32 pkt.ipv4DstAddr) with
    | none => rfl
    | some ifOut => exact narrow ifOut
  · by_cases isIpv6 : rteEthIsIpv6Hdr pkt.packetType = true
    · simp only [isIpv4, isIpv6, if_true, Bool.or_true, lpmGetIpv6DstPort, RteLpm.tables,
        finds.lookup6]
      cases longestIpv6 rules.ipv6 (load 16 pkt.data ipv6DstAddr) with
      | none => rfl
      | some ifOut => exact narrow ifOut
    · simp [isIpv4, isIpv6]

theorem fibHop_routed {lib : RteFib} (finds : lib.FindsLongest) (rules : LpmRoutes)
    (pkt : RteMbuf) (portid : BitVec 16) :
    (if fibHop (lib.tables rules) pkt ≠ fibDefaultHop then fibHop (lib.tables rules) pkt
      else portid) = routedPort rules pkt portid := by
  have hop : ∀ found : Option (BitVec 8),
      let nh := ((found.map fun ifOut => ifOut.setWidth 64).getD
        (fibDefaultHop.setWidth 64)).setWidth 16
      (if nh ≠ fibDefaultHop then nh else portid) =
        match found with
        | some ifOut => ifOut.setWidth 16
        | none => portid := by
    intro found
    cases found with
    | none => exact if_neg (not_not_intro rfl)
    | some ifOut =>
        have narrow : (ifOut.setWidth 64).setWidth 16 = ifOut.setWidth 16 :=
          BitVec.setWidth_setWidth_of_le ifOut (by decide)
        have notDefault : ifOut.setWidth 16 ≠ fibDefaultHop := by
          intro isDefault
          have small := ifOut.isLt
          have number := congrArg BitVec.toNat isDefault
          simp only [BitVec.toNat_setWidth, fibDefaultHop, BitVec.toNat_ofNat] at number
          omega
        simp only [Option.map_some, Option.getD_some, narrow]
        exact if_pos notDefault
  unfold fibHop routedPort
  by_cases isIpv4 : rteEthIsIpv4Hdr pkt.packetType = true
  · simp only [isIpv4, if_true, RteFib.tables, finds.lookup _ _ _ _ _ Nat.one_pos]
    exact hop _
  · simp only [isIpv4, RteFib.tables, finds.lookup6 _ _ _ _ _ Nat.one_pos]
    exact hop _

/-- A routed packet goes to an enabled port, or back. -/
theorem enabledPort_routed {eal : Eal} {env : Env} {rules : LpmRoutes}
    (enabled : rules.Enabled eal env.enabledPortMask) (pkt : RteMbuf) (portid : BitVec 16) :
    enabledPort env (routedPort rules pkt portid) portid = routedPort rules pkt portid := by
  have isEnabled : ∀ ifOut : BitVec 8, ifOut.setWidth 16 ∈ enabledPorts eal env.enabledPortMask →
      enabledPort env (ifOut.setWidth 16) portid = ifOut.setWidth 16 := by
    intro ifOut member
    rcases enabledPorts_enabled member with ⟨valid, isSet⟩
    apply if_neg
    rintro (outside | notSet)
    · exact absurd valid (Nat.not_lt.mpr outside)
    · rw [isSet] at notSet
      cases notSet
  have back : enabledPort env portid portid = portid := ite_self _
  unfold routedPort
  dsimp only
  by_cases isIpv4 : rteEthIsIpv4Hdr pkt.packetType = true
  · rw [if_pos isIpv4]
    cases longest : longestIpv4 rules.ipv4 (bswap32 pkt.ipv4DstAddr) with
    | none => exact back
    | some ifOut =>
        rcases longestIpv4_mem longest with ⟨rule, member, rfl⟩
        exact isEnabled _ (enabled.ipv4 rule member)
  · rw [if_neg isIpv4]
    cases longest : longestIpv6 rules.ipv6 (load 16 pkt.data ipv6DstAddr) with
    | none => exact back
    | some ifOut =>
        rcases longestIpv6_mem longest with ⟨rule, member, rfl⟩
        exact isEnabled _ (enabled.ipv6 rule member)

theorem lpmDstPort_routed (build : Build) {eal : Eal} {env : Env} {lib : RteLpm}
    (finds : lib.FindsLongest) {rules : LpmRoutes}
    (enabled : rules.Enabled eal env.enabledPortMask) :
    lpmDstPort build env (lib.tables rules) = lpmRouted build env rules := by
  funext burst portid i
  have isPort := lpmGetDstPort_routed finds rules (burst.packet i) portid
  unfold lpmDstPort lpmRouted
  cases build with
  | simd =>
      dsimp only
      rw [vectorFate_port, isPort]
      rfl
  | generic =>
      have dropped : lpmSimpleFate env (lib.tables rules) (burst.packet i) portid = none ↔
          LpmDrops .generic env (burst.packet i) :=
        lpmSimpleFate_none_iff env (lib.tables rules) (burst.packet i) portid
      dsimp only
      cases fate : lpmSimpleFate env (lib.tables rules) (burst.packet i) portid with
      | none =>
          rw [if_pos (dropped.mp fate)]
          rfl
      | some sent =>
          have passed : ¬ LpmDrops .generic env (burst.packet i) := by
            intro drops
            rw [dropped.mpr drops] at fate
            cases fate
          rw [if_neg passed]
          change sent.2 = _
          rw [(lpmSimpleFate_some fate).1, isPort]
          split
          · exact enabledPort_routed enabled _ portid
          · exact ite_self _

theorem fibDstPort_routed (build : Build) (env : Env) {lib : RteFib} (finds : lib.FindsLongest)
    (rules : LpmRoutes) : fibDstPort build env (lib.tables rules) = fibRouted rules := by
  funext burst portid i
  unfold fibDstPort fibRouted
  dsimp only
  rw [fibHop_routed finds, fibFate_port]

/-! ## From the command line and the files to the ports -/

/-- Whatever the command line and the rule files are, if the program gets as far as to launch
its lcores, then the routes are those that the files hold, and with longest prefix match or a
forwarding information base each lcore conveys what it receives, each packet to the port that
the longest route to an enabled port gives it. -/
theorem startPolling_routed {platform : Platform} {eal : Eal} {line : List Opt}
    {options : Options} {setup : SetupState}
    (started : startPolling platform eal line = some (options, setup)) (inet : Inet)
    {access : Bytes → FileAccess} {files : Bytes → Text}
    (available : ∀ name, (access name).Available (files name)) {routes : LpmRoutes}
    (read : readConfigFilesLpm inet access options = .ok routes) (driver : Env) (lcore : Nat)
    (mbufs : MbufHeap) (tscHz tsc : BitVec 64) :
    let env := options.lcoreEnv setup.addrs driver
    let start := LcoreState.launched mbufs (setup.lcoreConf lcore)
    let used := routes.used options.enabledPortMask
    RoutesGiven inet files options routes ∧
    (∀ (build : Build) (lib : RteLpm) rules rounds, lib.FindsLongest →
      setupLpm eal options.enabledPortMask lib routes = some rules →
      (∀ round ∈ rounds, ∀ i,
        (round.rx i).nbRx ≤ env.rxBurstSize ∧ LpmFine build (round.rx i)) →
      ∃ loop, lpmClockLoop build env (lib.tables rules) tscHz tsc start rounds = .ok loop ∧
        Conveyed (PortEnabled env) (lpmRouted build env used) start (drainTsc tscHz) tsc
          (pollHeads tsc rounds) loop.state) ∧
    ∀ (build : Build) (lib : RteFib) rules search rounds, lib.FindsLongest →
      setupFib eal options.enabledPortMask lib routes = some rules →
      (∀ round ∈ rounds, ∀ i,
        (round.rx i).nbRx ≤ env.rxBurstSize ∧ FibFine build (round.rx i)) →
      ∃ poll, fibMainLoop build env (lib.tables rules) search tscHz tsc start rounds = .ok poll ∧
        Conveyed (PortEnabled env) (fibRouted used) start (drainTsc tscHz) tsc
          (pollHeads tsc rounds) poll.state := by
  intro env start used
  rcases startPolling_cases started with ⟨sound, setUp⟩
  have sizes : 0 < env.rxBurstSize ∧ env.rxBurstSize ≤ maxPktBurst := sound.rxBurst
  have isSetUp := launched_setUp setUp lcore mbufs
  have enabled : ∀ port ∈ enabledPorts eal env.enabledPortMask, PortEnabled env port :=
    fun _ => enabledPorts_enabled
  refine ⟨(readConfigFilesLpm_iff inet available options routes).mp read, ?_, ?_⟩
  · intro build lib rules rounds finds tablesSetUp bursts
    have isUsed : rules = used := setupLpm_used tablesSetUp
    have enabledRules : rules.Enabled eal env.enabledPortMask := setupLpm_enabled tablesSetUp
    have relays : Relays env (· ∈ enabledPorts eal env.enabledPortMask) (build.bound env)
        (LpmFine build) (lpmDstPort build env (lib.tables rules))
        (lpmSender build env (lib.tables rules)) :=
      setupLpm_relays finds.lawful tablesSetUp build sizes
    have isPort : lpmDstPort build env (lib.tables rules) = lpmRouted build env used :=
      (lpmDstPort_routed build finds enabledRules).trans (congrArg _ isUsed)
    rw [isPort] at relays
    rcases isSetUp.conveyed relays (fun _ member => member) tscHz tsc bursts with
      ⟨poll, returned, conveyed⟩
    rcases lpmClockLoop_of_poll returned with ⟨loop, ran, isState⟩
    rw [← isState] at conveyed
    exact ⟨loop, ran, conveyed.mono enabled⟩
  · intro build lib rules search rounds finds tablesSetUp bursts
    have isUsed : rules = used := setupFib_used tablesSetUp
    have relays := fibSendPackets_relays enabledPorts_exist build sizes
      ((setupFib_enabled tablesSetUp).fibWithin finds.lawful) search
    rw [fibDstPort_routed build env finds rules, isUsed] at relays
    rcases isSetUp.conveyed relays (fun _ member => member) tscHz tsc bursts with
      ⟨poll, returned, conveyed⟩
    rw [isUsed]
    exact ⟨poll, returned, conveyed.mono enabled⟩

def longestHop (rules : List (LpmRouteRule (BitVec 32))) (ip : BitVec 32) :
    Option (BitVec 32) :=
  (longestIpv4 rules ip).map fun ifOut => ifOut.setWidth 32

/-- The longest prefix for both families, and no routes without a prefix. -/
def longestLpm : RteLpm where
  rteLpmCreate := true
  rteLpm6Create := true
  rteLpmAdd := fun _ rule => decide (0 < rule.depth.toNat)
  rteLpm6Add := fun _ rule => decide (0 < rule.depth.toNat)
  rteLpmLookup := longestHop
  rteLpm6Lookup := fun rules ip => (longestIpv6 rules ip).map fun ifOut => ifOut.setWidth 32
  rteLpmLookupx4 := fun rules ip defv => ofLanes 32 4 fun index =>
    (longestHop rules (lane 32 ip index)).getD defv

theorem longestLpm_findsLongest : longestLpm.FindsLongest where
  lookup := fun _ _ => rfl
  lookup6 := fun _ _ => rfl
  lookupx4 := by
    intro rules ip defv index inside
    exact lane_ofLanes 32 4 (fun index => (longestHop rules (lane 32 ip index)).getD defv) index
      inside

def twoRoutesFile6 : Text :=
  ascii "R2001:0200:0000:0000:0000:0000:0000:0000/48 0\n" ++
    ascii "R2001:0200:0000:0001:0000:0000:0000:0000/64 1\n"

/-- `-p 3 --config (0,0,2),(1,0,2) --rule_ipv4 v4 --rule_ipv6 v6` -/
def routesCommandLine : List Opt :=
  [.portmask (ascii "3"), .config (ascii "(0,0,2),(1,0,2)"), .ruleIpv4 (ascii "v4"),
    .ruleIpv6 (ascii "v6")]

def twoFiles (name : Bytes) : Text :=
  if name = ascii "v4" then twoRoutesFile else twoRoutesFile6

def twoFilesRoutes : LpmRoutes where
  ipv4 := [⟨0x0a000000#32, 8#8, 0#8⟩, ⟨0x0a010000#32, 16#8, 1#8⟩]
  ipv6 := [⟨rteIpv6 0x2001 0x0200 0 0 0 0 0 0, 48#8, 0#8⟩,
    ⟨rteIpv6 0x2001 0x0200 0 1 0 0 0 0, 64#8, 1#8⟩]

theorem startPolling_routed_two :
    ∃ options setup, startPolling plainPlatform twoPortEal routesCommandLine =
        some (options, setup) ∧
      let env := options.lcoreEnv setup.addrs default
      let start := LcoreState.launched default (setup.lcoreConf 2)
      let rounds := [PollRound.single 7 routedPacket 1000#64]
      let used := twoFilesRoutes.used options.enabledPortMask
      RoutesGiven fullInet twoFiles options twoFilesRoutes ∧
      lpmRouted .simd env used ⟨[(7, routedPacket)]⟩ 0#16 0 = 1#16 ∧
      ∃ loop, lpmClockLoop .simd env (longestLpm.tables twoFilesRoutes) 3000000000#64 0#64 start
          rounds = .ok loop ∧
        Conveyed (PortEnabled env) (lpmRouted .simd env used) start (drainTsc 3000000000#64) 0#64
          (pollHeads 0#64 rounds) loop.state := by
  have chosen : (startPolling plainPlatform twoPortEal routesCommandLine).map
      (fun result => (result.1.ruleIpv4Name, result.1.ruleIpv6Name, result.1.enabledPortMask,
        result.1.rxBurstSize)) = some (some (ascii "v4"), some (ascii "v6"), 3#32, 32#32) := by
    decide +kernel
  rcases Option.map_eq_some_iff.mp chosen with ⟨⟨options, setup⟩, started, same⟩
  simp only [Prod.mk.injEq] at same
  rcases same with ⟨isName4, isName6, isMask, isBurst⟩
  have read : readConfigFilesLpm fullInet (fun name => fileOf (twoFiles name)) options =
      .ok twoFilesRoutes := by
    unfold readConfigFilesLpm readConfigFiles
    rw [isName4, isName6]
    decide +kernel
  refine ⟨options, setup, started, ?_⟩
  intro env start rounds used
  have routed := startPolling_routed started fullInet (fun name => fileOf_available (twoFiles name))
    read default 2 default 3000000000#64 0#64
  refine ⟨routed.1, ?_,
    routed.2.1 .simd longestLpm twoFilesRoutes rounds longestLpm_findsLongest ?_ ?_⟩
  · change (if LpmDrops .simd env routedPacket then badPort else if routedPacket.isIp then
      routedPort (twoFilesRoutes.used options.enabledPortMask) routedPacket 0#16 else 0#16) = _
    have good : ¬ LpmDrops .simd env routedPacket := show ¬ routedPacket.Bad by decide +kernel
    rw [isMask, if_neg good]
    decide +kernel
  · rw [isMask]
    decide +kernel
  · intro round member i
    rw [List.mem_singleton.mp member]
    refine ⟨?_, trivial⟩
    change _ ≤ options.rxBurstSize.toNat
    rw [isBurst]
    exact PollRound.single_cases 7 routedPacket (p := fun burst => burst.nbRx ≤ (32#32).toNat)
      (Nat.zero_le _) (Nat.le_of_ble_eq_true rfl) 1000#64 i

/-! ## Routes in another order -/

/-- No two routes are for the same addresses. -/
structure LpmRoutes.Distinct (routes : LpmRoutes) : Prop where
  ipv4 : LongestPrefix.Distinct (routes.ipv4.map ipv4Route)
  ipv6 : LongestPrefix.Distinct (routes.ipv6.map ipv6Route)

/-- The same routes, in one order or another. -/
structure LpmRoutes.Reordered (routes routes' : LpmRoutes) : Prop where
  ipv4 : routes.ipv4.Perm routes'.ipv4
  ipv6 : routes.ipv6.Perm routes'.ipv6

theorem LpmRoutes.Distinct.used {routes : LpmRoutes} (distinct : routes.Distinct)
    (mask : BitVec 32) : (routes.used mask).Distinct where
  ipv4 := List.Pairwise.sublist (List.filter_sublist.map ipv4Route) distinct.ipv4
  ipv6 := List.Pairwise.sublist (List.filter_sublist.map ipv6Route) distinct.ipv6

theorem LpmRoutes.Reordered.used {routes routes' : LpmRoutes}
    (reordered : routes.Reordered routes') (mask : BitVec 32) :
    (routes.used mask).Reordered (routes'.used mask) where
  ipv4 := reordered.ipv4.filter _
  ipv6 := reordered.ipv6.filter _

section Order

variable {rules rules' : LpmRoutes} (distinct : rules.Distinct)
  (reordered : rules.Reordered rules')

include distinct reordered

theorem longestIpv4_reordered (ip : BitVec 32) :
    longestIpv4 rules.ipv4 ip = longestIpv4 rules'.ipv4 ip :=
  congrArg _ (lookup_perm distinct.ipv4 (reordered.ipv4.map ipv4Route) ip)

theorem longestIpv6_reordered (ip : BitVec 128) :
    longestIpv6 rules.ipv6 ip = longestIpv6 rules'.ipv6 ip :=
  congrArg _ (lookup_perm distinct.ipv6 (reordered.ipv6.map ipv6Route) (ipv6Bits ip))

theorem lpmTables_reordered {lib : RteLpm} (finds : lib.FindsLongest) :
    lib.tables rules = lib.tables rules' := by
  have find : ∀ ip, lib.rteLpmLookup rules.ipv4 ip = lib.rteLpmLookup rules'.ipv4 ip := by
    intro ip
    rw [finds.lookup, finds.lookup, longestIpv4_reordered distinct reordered]
  have find6 : ∀ ip, lib.rteLpm6Lookup rules.ipv6 ip = lib.rteLpm6Lookup rules'.ipv6 ip := by
    intro ip
    rw [finds.lookup6, finds.lookup6, longestIpv6_reordered distinct reordered]
  have find4 : ∀ ip defv, lib.rteLpmLookupx4 rules.ipv4 ip defv =
      lib.rteLpmLookupx4 rules'.ipv4 ip defv := by
    intro ip defv
    apply ext_lanes 32 4
    intro index inside
    exact (finds.lookupx4 _ ip defv index inside).trans
      ((congrArg (Option.getD · defv) (find _)).trans
        (finds.lookupx4 _ ip defv index inside).symm)
  unfold RteLpm.tables
  congr 1
  · exact funext find
  · exact funext find6
  · exact funext fun ip => funext (find4 ip)

theorem fibHop_reordered {lib : RteFib} (finds : lib.FindsLongest) (pkt : RteMbuf) :
    fibHop (lib.tables rules) pkt = fibHop (lib.tables rules') pkt := by
  unfold fibHop RteFib.tables
  dsimp only
  rw [finds.lookup _ _ _ _ _ Nat.one_pos, finds.lookup _ _ _ _ _ Nat.one_pos,
    finds.lookup6 _ _ _ _ _ Nat.one_pos, finds.lookup6 _ _ _ _ _ Nat.one_pos,
    longestIpv4_reordered distinct reordered, longestIpv6_reordered distinct reordered]

end Order

theorem RteFib.FindsLongest.within {lib : RteFib} (finds : lib.FindsLongest) (rules : LpmRoutes) :
    (lib.tables rules).Within fun _ => True where
  bulk := finds.lawful.bulk _ rules.ipv4
  bulk6 := finds.lawful.bulk6 _ rules.ipv6
  hop := fun _ => Or.inr trivial

/-- A burst is sent in the same way with tables that have the same hops. -/
theorem fibSendPackets_congr {tables tables' : FibTables} (within : tables.Within fun _ => True)
    (within' : tables'.Within fun _ => True) (same : ∀ pkt, fibHop tables pkt = fibHop tables' pkt)
    (build : Build) (env : Env) (search : FibSearch) :
    fibSendPackets build env tables search = fibSendPackets build env tables' search := by
  funext state nbRx pktsBurst portid
  have hops : fibHops tables state.mbufs search nbRx pktsBurst portid env.stack =
      fibHops tables' state.mbufs search nbRx pktsBurst portid env.stack := by
    funext i
    by_cases inside : i < nbRx
    · rw [fibHops_within within _ _ _ _ _ inside, fibHops_within within' _ _ _ _ _ inside, same]
    · have outside := Nat.le_of_not_lt inside
      exact (fibAssignHops_outside _ portid env.stack nbRx outside).trans
        (fibAssignHops_outside _ portid env.stack nbRx outside).symm
  unfold fibSendPackets
  rw [hops]

theorem RouteFile.perm {α : Type} {family : AddrFamily α} (zero : LpmRouteRule α)
    {file file' : Text} {routes routes' : List (LpmRouteRule α)}
    (isFile : RouteFile family file routes) (isFile' : RouteFile family file' routes')
    (lines : (routeLines (readLines file)).Perm (routeLines (readLines file'))) :
    routes.Perm routes' := by
  have parsed : ∀ lines : List Text, ∀ buff ∈ lines,
      Accepts (lpmParseRule (parseAddrMask family)) zero (RouteForm family) buff.tail :=
    fun _ buff _ => accepts_route family zero buff.tail
  rw [((Accepts.forall₂_iff (parsed _)).mp isFile.forms).2,
    ((Accepts.forall₂_iff (parsed _)).mp isFile'.forms).2]
  exact lines.map _

/-- The order of the lines in the rule files does not matter to what the main loops do, as long
as no two lines are for the same addresses. -/
theorem mainLoops_order {inet : Inet} {file4 file4' file6 file6' : Text}
    {routes routes' : LpmRoutes} (isFile4 : RouteFile inet.ipv4 file4 routes.ipv4)
    (isFile6 : RouteFile inet.ipv6 file6 routes.ipv6)
    (isFile4' : RouteFile inet.ipv4 file4' routes'.ipv4)
    (isFile6' : RouteFile inet.ipv6 file6' routes'.ipv6)
    (lines4 : (routeLines (readLines file4)).Perm (routeLines (readLines file4')))
    (lines6 : (routeLines (readLines file6)).Perm (routeLines (readLines file6')))
    (distinct : routes.Distinct) (eal : Eal) (mask : BitVec 32) (build : Build) (env : Env)
    (tscHz tsc : BitVec 64) (start : LcoreState) (rounds : List PollRound) :
    (∀ (lib : RteLpm) rules rules', lib.FindsLongest →
      setupLpm eal mask lib routes = some rules → setupLpm eal mask lib routes' = some rules' →
      lpmClockLoop build env (lib.tables rules) tscHz tsc start rounds =
        lpmClockLoop build env (lib.tables rules') tscHz tsc start rounds) ∧
    ∀ (lib : RteFib) rules rules' search, lib.FindsLongest →
      setupFib eal mask lib routes = some rules → setupFib eal mask lib routes' = some rules' →
      fibMainLoop build env (lib.tables rules) search tscHz tsc start rounds =
        fibMainLoop build env (lib.tables rules') search tscHz tsc start rounds := by
  have reordered : routes.Reordered routes' :=
    ⟨isFile4.perm zeroIpv4Route isFile4' lines4,
      isFile6.perm zeroIpv6Route isFile6' lines6⟩
  constructor
  · intro lib rules rules' finds setUp setUp'
    rw [setupLpm_used setUp, setupLpm_used setUp',
      lpmTables_reordered (distinct.used mask) (reordered.used mask) finds]
  · intro lib rules rules' search finds setUp setUp'
    rw [setupFib_used setUp, setupFib_used setUp']
    have hops := fibHop_reordered (distinct.used mask) (reordered.used mask) finds
    unfold fibMainLoop
    rw [fibSendPackets_congr (finds.within _) (finds.within _) hops]

def reversedFile4 : Text := ascii "R10.1.0.0/16 1\nR10.0.0.0/8 0\n"

def reversedFile6 : Text :=
  ascii "R2001:0200:0000:0001:0000:0000:0000:0000/64 1\n" ++
    ascii "R2001:0200:0000:0000:0000:0000:0000:0000/48 0\n"

def plainFile4 : Text := ascii "R10.0.0.0/8 0\nR10.1.0.0/16 1\n"

theorem mainLoops_order_two :
    ∃ setup, l3fwdPollResourceSetup twoPortEal threeQueues 0x3#32
        ⟨fun _ => 0, fun _ => 0, fun _ => 0⟩ = some setup ∧
      let reversed : LpmRoutes := ⟨twoFilesRoutes.ipv4.reverse, twoFilesRoutes.ipv6.reverse⟩
      let env : Env := { (default : Env) with rxBurstSize := 32, txBurstSize := 32 }
      let start := LcoreState.launched default (setup.lcoreConf 2)
      let rounds := [PollRound.single 7 routedPacket 1000#64]
      lpmDstPort .simd env (longestLpm.tables twoFilesRoutes) ⟨[(7, routedPacket)]⟩ 0#16 0 =
          1#16 ∧
        lpmClockLoop .simd env (longestLpm.tables twoFilesRoutes) 3000000000#64 0#64 start rounds =
          lpmClockLoop .simd env (longestLpm.tables reversed) 3000000000#64 0#64 start rounds := by
  rcases twoPort_setUp with ⟨setup, setUp⟩
  refine ⟨setup, setUp, ?_⟩
  intro reversed env start rounds
  refine ⟨by decide +kernel, ?_⟩
  have file4 : RouteFile fullInet.ipv4 plainFile4 twoFilesRoutes.ipv4 :=
    (lpmAddRules_iff zeroIpv4Route (fileOf_available _)).mp (by decide +kernel)
  have file6 : RouteFile fullInet.ipv6 twoRoutesFile6 twoFilesRoutes.ipv6 :=
    (lpmAddRules_iff zeroIpv6Route (fileOf_available _)).mp (by decide +kernel)
  have file4' : RouteFile fullInet.ipv4 reversedFile4 reversed.ipv4 :=
    (lpmAddRules_iff zeroIpv4Route (fileOf_available _)).mp (by decide +kernel)
  have file6' : RouteFile fullInet.ipv6 reversedFile6 reversed.ipv6 :=
    (lpmAddRules_iff zeroIpv6Route (fileOf_available _)).mp (by decide +kernel)
  have lines4 : (routeLines (readLines plainFile4)).Perm (routeLines (readLines reversedFile4)) := by
    decide +kernel
  have lines6 : (routeLines (readLines twoRoutesFile6)).Perm
      (routeLines (readLines reversedFile6)) := by
    decide +kernel
  have distinct : twoFilesRoutes.Distinct :=
    ⟨List.pairwise_pair.mpr fun same => absurd same.1 (by decide),
      List.pairwise_pair.mpr fun same => absurd same.1 (by decide)⟩
  have orders := mainLoops_order file4 file6 file4' file6' lines4 lines6 distinct twoPortEal 3#32
    .simd env 3000000000#64 0#64 start rounds
  exact orders.1 longestLpm _ _ longestLpm_findsLongest (by decide +kernel) (by decide +kernel)

end PacketForwarding.L3fwd
