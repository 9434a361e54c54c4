import PacketForwarding.L3fwd.PollSetup
import PacketForwarding.L3fwd.Rfc1812

/-! # The addresses of the ports, and how they get into packets

The vector code takes both addresses of a port from one register, the scalar code from
two arrays. Three writers with overlapping stores fill them, and are shown to leave them
in agreement.
-/

namespace PacketForwarding.L3fwd

open Lanes Cells

/-! ## The three writers -/

/-- `RTE_ETHER_LOCAL_ADMIN_ADDR` -/
def rteEtherLocalAdminAddr : BitVec 64 := 0x02#64

namespace EthAddrs

/-- The arrays as the program is loaded. -/
def zero : EthAddrs where
  destEthAddr := fun _ => 0#64
  portsEthAddr := fun _ => 0#48
  valEth := fun _ => 0#128

/-- `dest_eth_addr[portid] = addr`, and its eight bytes go to the register as well. -/
def setDest (addrs : EthAddrs) (portid : Nat) (addr : BitVec 64) : EthAddrs :=
  { addrs with
    destEthAddr := Function.update addrs.destEthAddr portid addr
    valEth := Function.update addrs.valEth portid (storeDest (addrs.valEth portid) addr) }

/-- Pre-init dst MACs for all ports to 02:00:00:00:00:xx. -/
def preInit : EthAddrs :=
  (List.range rteMaxEthports).foldl (fun addrs portid =>
    addrs.setDest portid (rteEtherLocalAdminAddr + BitVec.ofNat 64 portid <<< 40)) zero

end EthAddrs

/-- What is read from the argument of an `--eth-dest` option. -/
structure EthDest where
  portid : BitVec 16
  peerAddr : BitVec 48

/-- `dest[c] = peer_addr[c]` for the six bytes of an address. -/
def copyPeerAddr (dest : BitVec 64) (peerAddr : BitVec 48) : BitVec 64 :=
  ofLanes 8 8 fun c => if c < 6 then lane 8 peerAddr c else lane 8 dest c

def parseEthDest (addrs : EthAddrs) (option : EthDest) : Option EthAddrs :=
  let portid := option.portid.toNat
  if rteMaxEthports ≤ portid then
    none
  else
    some (addrs.setDest portid (copyPeerAddr (addrs.destEthAddr portid) option.peerAddr))

/-- The options of the command line, in order. -/
def parseEthDests (options : List EthDest) : Option EthAddrs :=
  options.foldlM parseEthDest .preInit

/-- An lcore of a program with these addresses. -/
def Env.withAddrs (env : Env) (addrs : EthAddrs) : Env :=
  { env with
    destEthAddr := addrs.destEthAddr
    portsEthAddr := addrs.portsEthAddr
    valEth := addrs.valEth }

/-! ## Bytes of the registers -/

theorem lane_storeDest (register : Register) (addr : BitVec 64) {i : Nat} (inside : i < 16) :
    lane 8 (storeDest register addr) i = if i < 8 then lane 8 addr i else lane 8 register i :=
  lane_ofLanes 8 16 _ i inside

theorem lane_storeSrc (register : Register) (addr : BitVec 48) {i : Nat} (inside : i < 16) :
    lane 8 (storeSrc register addr) i =
      if 6 ≤ i ∧ i < 12 then lane 8 addr (i - 6) else lane 8 register i :=
  lane_ofLanes 8 16 _ i inside

theorem lane_copyPeerAddr (dest : BitVec 64) (peerAddr : BitVec 48) {i : Nat} (inside : i < 8) :
    lane 8 (copyPeerAddr dest peerAddr) i = if i < 6 then lane 8 peerAddr i else lane 8 dest i :=
  lane_ofLanes 8 8 _ i inside

namespace EthAddrs

/-! ## Before the ports are set up -/

/-- No port has its own address yet, and the register has what it will keep. -/
structure Fresh (addrs : EthAddrs) : Prop where
  dest : ∀ port i, i < 6 → lane 8 (addrs.valEth port) i = lane 8 (addrs.destEthAddr port) i
  rest : ∀ port i, 6 ≤ i → i < 12 → lane 8 (addrs.valEth port) i = 0#8
  top : ∀ port i, 6 ≤ i → i < 8 → lane 8 (addrs.destEthAddr port) i = 0#8
  src : ∀ port, addrs.portsEthAddr port = 0#48

theorem zero_fresh : zero.Fresh where
  dest := by
    intro port i inside
    simp [zero, lane]
  rest := by
    intro port i _ _
    simp [zero, lane]
  top := by
    intro port i _ _
    simp [zero, lane]
  src := fun _ => rfl

/-- The two bytes that reach into the source address are zero. -/
theorem setDest_fresh {addrs : EthAddrs} (fresh : addrs.Fresh) (portid : Nat) {addr : BitVec 64}
    (top : ∀ i, 6 ≤ i → i < 8 → lane 8 addr i = 0#8) : (addrs.setDest portid addr).Fresh where
  dest := by
    intro port i inside
    by_cases here : port = portid
    · subst here
      have low : i < 8 := by omega
      simp only [setDest, Function.update_self]
      rw [lane_storeDest _ _ (by omega), if_pos low]
    · simp only [setDest, Function.update_of_ne here]
      exact fresh.dest port i inside
  rest := by
    intro port i behind inside
    by_cases here : port = portid
    · subst here
      simp only [setDest, Function.update_self]
      rw [lane_storeDest _ _ (by omega)]
      split
      · rename_i low
        exact top i behind low
      · exact fresh.rest port i behind inside
    · simp only [setDest, Function.update_of_ne here]
      exact fresh.rest port i behind inside
  top := by
    intro port i behind inside
    by_cases here : port = portid
    · subst here
      simp only [setDest, Function.update_self]
      exact top i behind inside
    · simp only [setDest, Function.update_of_ne here]
      exact fresh.top port i behind inside
  src := fresh.src

theorem preInit_fresh : preInit.Fresh := by
  have loop : ∀ (ports : List Nat) (addrs : EthAddrs), (∀ port ∈ ports, port < rteMaxEthports) →
      addrs.Fresh → (ports.foldl (fun addrs portid =>
        addrs.setDest portid (rteEtherLocalAdminAddr + BitVec.ofNat 64 portid <<< 40))
          addrs).Fresh := by
    intro ports
    induction ports with
    | nil => exact fun _ _ fresh => fresh
    | cons port ports induction =>
        intro addrs small fresh
        rw [List.foldl_cons]
        apply induction
        · exact fun other member => small other (List.mem_cons_of_mem port member)
        · apply setDest_fresh fresh
          have all : ∀ port, port < rteMaxEthports → ∀ i, i < 8 → 6 ≤ i →
              lane 8 (rteEtherLocalAdminAddr + BitVec.ofNat 64 port <<< 40) i = 0#8 := by
            decide
          exact fun i behind inside => all port (small port List.mem_cons_self) i inside behind
  exact loop _ _ (fun port member => List.mem_range.mp member) zero_fresh

theorem parseEthDest_fresh {addrs next : EthAddrs} {option : EthDest} (fresh : addrs.Fresh)
    (parsed : parseEthDest addrs option = some next) : next.Fresh := by
  unfold parseEthDest at parsed
  dsimp only at parsed
  split at parsed
  · cases parsed
  · cases parsed
    apply setDest_fresh fresh
    intro i behind inside
    rw [lane_copyPeerAddr _ _ inside, if_neg (Nat.not_lt.mpr behind)]
    exact fresh.top _ i behind inside

theorem parseEthDests_fresh {options : List EthDest} {addrs : EthAddrs}
    (parsed : parseEthDests options = some addrs) : addrs.Fresh := by
  have loop : ∀ (options : List EthDest) (start last : EthAddrs),
      options.foldlM parseEthDest start = some last → start.Fresh → last.Fresh := by
    intro options
    induction options with
    | nil =>
        intro start last ended fresh
        cases ended
        exact fresh
    | cons option options induction =>
        intro start last ended fresh
        rw [List.foldlM_cons] at ended
        rcases Option.bind_eq_some_iff.mp ended with ⟨next, stepped, continued⟩
        exact induction next last continued (parseEthDest_fresh fresh stepped)
  exact loop options preInit addrs parsed preInit_fresh

/-! ## While the ports are set up -/

/-- The register of a port has the bytes of both addresses. -/
def Agree (addrs : EthAddrs) (port : Nat) : Prop :=
  ∀ i, i < 12 → lane 8 (addrs.valEth port) i =
    if i < 6 then lane 8 (addrs.destEthAddr port) i else lane 8 (addrs.portsEthAddr port) (i - 6)

theorem Fresh.agree {addrs : EthAddrs} (fresh : addrs.Fresh) (port : Nat) : addrs.Agree port := by
  intro i inside
  split
  · rename_i low
    exact fresh.dest port i low
  · rename_i high
    rw [fresh.rest port i (Nat.not_lt.mp high) inside, fresh.src port]
    simp [lane]

theorem setPort_agree {addrs : EthAddrs} {port : Nat} (agree : addrs.Agree port) (portid : Nat)
    (addr : BitVec 48) : (addrs.setPort portid addr).Agree port := by
  intro i inside
  by_cases here : port = portid
  · subst here
    simp only [setPort, Function.update_self]
    rw [lane_storeSrc _ _ (by omega)]
    by_cases low : i < 6
    · have front : ¬ (6 ≤ i ∧ i < 12) := by omega
      have kept := agree i inside
      rw [if_pos low] at kept
      rw [if_neg front, if_pos low, kept]
    · have src : 6 ≤ i ∧ i < 12 := by omega
      rw [if_pos src, if_neg low]
  · simp only [setPort, Function.update_of_ne here]
    exact agree i inside

theorem setupPorts_agree {eal : Eal} {params : List LcoreParams} {mask : BitVec 32} {port : Nat} :
    ∀ (ports : List (BitVec 16)) (state last : SetupState),
      ports.foldlM (setupPort eal params mask) state = some last → state.addrs.Agree port →
        last.addrs.Agree port := by
  intro ports
  induction ports with
  | nil =>
      intro state last ended agree
      cases ended
      exact agree
  | cons portid ports induction =>
      intro state last ended agree
      rw [List.foldlM_cons] at ended
      rcases Option.bind_eq_some_iff.mp ended with ⟨next, stepped, continued⟩
      apply induction next last continued
      rcases setupPort_cases stepped with ⟨_, rfl⟩ | ⟨_, _, addr, _, _, _, _, rfl⟩
      · exact agree
      · exact setPort_agree agree portid.toNat addr

/-- The array has what the device says. -/
def Known (eal : Eal) (addrs : EthAddrs) (port : BitVec 16) : Prop :=
  eal.rteEthMacaddrGet port = some (addrs.portsEthAddr port.toNat)

theorem setupPort_known {eal : Eal} {params : List LcoreParams} {mask : BitVec 32}
    {state next : SetupState} {portid port : BitVec 16}
    (stepped : setupPort eal params mask state portid = some next)
    (known : portid = port ∧ portInMask mask port.toNat = true ∨ Known eal state.addrs port) :
    Known eal next.addrs port := by
  rcases setupPort_cases stepped with ⟨disabled, rfl⟩ | ⟨_, _, addr, _, _, isAddr, _, rfl⟩
  · rcases known with ⟨here, enabled⟩ | before
    · rw [here, enabled] at disabled
      cases disabled
    · exact before
  · by_cases here : portid = port
    · subst here
      simpa [Known, setPort] using isAddr
    · have different : port.toNat ≠ portid.toNat :=
        fun same => here (BitVec.eq_of_toNat_eq same.symm)
      have before := known.resolve_left fun now => here now.1
      simpa [Known, setPort, Function.update_of_ne different] using before

/-- Every enabled port is asked for its address. -/
theorem setupPorts_known {eal : Eal} {params : List LcoreParams} {mask : BitVec 32}
    {port : BitVec 16} (enabled : portInMask mask port.toNat = true) :
    ∀ (ports : List (BitVec 16)) (state last : SetupState),
      ports.foldlM (setupPort eal params mask) state = some last →
        port ∈ ports ∨ Known eal state.addrs port → Known eal last.addrs port := by
  intro ports
  induction ports with
  | nil =>
      intro state last ended known
      cases ended
      exact known.resolve_left List.not_mem_nil
  | cons portid ports induction =>
      intro state last ended known
      rw [List.foldlM_cons] at ended
      rcases Option.bind_eq_some_iff.mp ended with ⟨next, stepped, continued⟩
      apply induction next last continued
      rcases known with member | before
      · rcases List.mem_cons.mp member with here | later
        · exact Or.inr (setupPort_known stepped (Or.inl ⟨here.symm, enabled⟩))
        · exact Or.inl later
      · exact Or.inr (setupPort_known stepped (Or.inr before))

/-- The set-up leaves the registers in agreement with the arrays, whatever the options. -/
theorem setup_agree {eal : Eal} {params : List LcoreParams} {mask : BitVec 32}
    {options : List EthDest} {addrs : EthAddrs} {state : SetupState}
    (parsed : parseEthDests options = some addrs)
    (setUp : l3fwdPollResourceSetup eal params mask addrs = some state) (port : Nat) :
    state.addrs.Agree port := by
  rcases l3fwdPollResourceSetup_cases setUp with ⟨_, _, _, _, ports⟩
  exact setupPorts_agree _ _ _ ports ((parseEthDests_fresh parsed).agree port)

end EthAddrs

/-! ## Frames -/

/-- What the scalar code writes: the first six bytes of the destination, and the source. -/
theorem setEthAddrs_apply (env : Env) (data : Nat → BitVec 8) (port : BitVec 16) (address : Nat) :
    setEthAddrs env data port address =
      if address < 6 then lane 8 (env.destEthAddr port.toNat) address
      else if address < 12 then lane 8 (env.portsEthAddr port.toNat) (address - 6)
      else data address := by
  rw [setEthAddrs]
  by_cases low : address < 6
  · have stored := store_of_lt 8 data 0 (env.destEthAddr port.toNat) address (by omega)
    rw [Nat.zero_add] at stored
    rw [store_of_outside 6 _ _ _ _ (Or.inl low), stored, if_pos low]
  · rw [if_neg low]
    by_cases src : address < 12
    · have stored := store_of_lt 6 (store 8 data 0 (env.destEthAddr port.toNat)) 6
        (env.portsEthAddr port.toNat) (address - 6) (by omega)
      rw [Nat.add_sub_of_le (Nat.not_lt.mp low)] at stored
      rw [stored, if_pos src]
    · rw [if_neg src]
      exact setEthAddrs_outside env data port (Nat.not_lt.mp src)

/-- Before or after the checks, the addresses make the same frame. -/
theorem rfc1812Process_setEthAddrs (env : Env) (data : Nat → BitVec 8) (port dp : BitVec 16)
    (ptype : BitVec 32) :
    (rfc1812Process (setEthAddrs env data port) dp ptype).1 =
      setEthAddrs env (rfc1812Process data dp ptype).1 port := by
  funext address
  rcases Nat.lt_or_ge address 12 with front | behind
  · rw [rfc1812Process_front _ _ _ (by omega), setEthAddrs_apply, setEthAddrs_apply]
    simp only [front, if_true]
  · rw [setEthAddrs_outside env _ port behind, rfc1812Process_data, rfc1812Process_data]
    split
    · rcases Nat.lt_or_ge address 16 with front | far
      · have before : ∀ data, countHop data address = data address := fun data =>
          countHop_of_ne data (by simp only [Ipv4Hdr.timeToLive, rteEtherHdrLen]; omega)
            (Or.inl (by simp only [Ipv4Hdr.hdrChecksum, rteEtherHdrLen]; omega))
        rw [before, before]
        exact setEthAddrs_outside env data port behind
      · exact countHop_agree
          (fun other far => setEthAddrs_outside env data port (by omega)) far
    · exact setEthAddrs_outside env data port behind

/-- Where the register agrees with the arrays, both rewrites make the same frame. -/
theorem processPacket_eq_setEthAddrs {env : Env} {addrs : EthAddrs} (pkt : RteMbuf)
    {port : BitVec 16} (agree : addrs.Agree port.toNat) :
    (processPacket (env.withAddrs addrs) pkt port).1.data =
      setEthAddrs (env.withAddrs addrs) (rfc1812Process pkt.data port pkt.packetType).1 port := by
  funext address
  rw [processPacket_data, setEthAddrs_apply]
  by_cases front : address < 12
  · have bytes := agree address front
    rw [if_pos front, if_pos front]
    exact bytes
  · have notLow : ¬ address < 6 := by omega
    rw [if_neg front, if_neg notLow, if_neg front]

/-- The bytes that the checks change: the time to live and the checksum of IPv4 packets. -/
def CountedByte (pkt : RteMbuf) (address : Nat) : Prop :=
  rteEthIsIpv4Hdr pkt.packetType = true ∧
    (address = Ipv4Hdr.timeToLive ∨ address = Ipv4Hdr.hdrChecksum ∨
      address = Ipv4Hdr.hdrChecksum + 1)

theorem rfc1812Process_uncounted {pkt : RteMbuf} {address : Nat} (dp : BitVec 16)
    (uncounted : ¬ CountedByte pkt address) :
    (rfc1812Process pkt.data dp pkt.packetType).1 address = pkt.data address := by
  rw [rfc1812Process_data]
  split
  · rename_i isIpv4
    have elsewhere := fun place => uncounted ⟨isIpv4, place⟩
    apply countHop_of_ne
    · exact fun isTtl => elsewhere (Or.inl isTtl)
    · by_contra inChecksum
      have place : address = Ipv4Hdr.hdrChecksum ∨ address = Ipv4Hdr.hdrChecksum + 1 := by omega
      exact elsewhere (Or.inr place)
  · rfl

/-- After any `--eth-dest` options and the set-up of the ports, the vector and the scalar
rewrite make the same frame, with the addresses of the port, the source being that of the
device, and nothing else changed but what the checks change; and four packets at once
become what each becomes alone. -/
theorem macRewrite_same (eal : Eal) (params : List LcoreParams) (mask : BitVec 32)
    (options : List EthDest) (addrs : EthAddrs) (state : SetupState)
    (parsed : parseEthDests options = some addrs)
    (setUp : l3fwdPollResourceSetup eal params mask addrs = some state) (env : Env)
    (port : BitVec 16) (enabled : port ∈ enabledPorts eal mask) (pkt : RteMbuf) :
    let env := env.withAddrs state.addrs
    let frame := (processPacket env pkt port).1.data
    frame = setEthAddrs env (rfc1812Process pkt.data port pkt.packetType).1 port ∧
      frame = (rfc1812Process (setEthAddrs env pkt.data port) port pkt.packetType).1 ∧
      (∀ i, i < 6 → frame i = lane 8 (state.addrs.destEthAddr port.toNat) i) ∧
      (∀ i, i < 6 → frame (6 + i) = lane 8 (state.addrs.portsEthAddr port.toNat) i) ∧
      eal.rteEthMacaddrGet port = some (state.addrs.portsEthAddr port.toNat) ∧
      (∀ address, 12 ≤ address → ¬ CountedByte pkt address →
        frame address = pkt.data address) ∧
      ∀ pkts j packets, Distinct pkts j fwdStep →
        processx4Step3 env pkts j packets = visit pkts (processPacket env) fwdStep j packets := by
  intro env frame
  have agree := EthAddrs.setup_agree parsed setUp port.toNat
  have scalar : frame = setEthAddrs env (rfc1812Process pkt.data port pkt.packetType).1 port :=
    processPacket_eq_setEthAddrs pkt agree
  refine ⟨scalar, ?_, ?_, ?_, ?_, ?_, ?_⟩
  · exact scalar.trans (rfc1812Process_setEthAddrs env pkt.data port port pkt.packetType).symm
  · intro i inside
    rw [scalar, setEthAddrs_apply, if_pos inside]
    rfl
  · intro i inside
    have notLow : ¬ 6 + i < 6 := by omega
    have front : 6 + i < 12 := by omega
    rw [scalar, setEthAddrs_apply, if_neg notLow, if_pos front, Nat.add_sub_cancel_left]
    rfl
  · rcases l3fwdPollResourceSetup_cases setUp with ⟨_, _, _, _, ports⟩
    have member := List.mem_filter.mp enabled
    exact EthAddrs.setupPorts_known member.2 _ _ _ ports (Or.inl member.1)
  · intro address behind uncounted
    rw [scalar, setEthAddrs_outside env _ port behind]
    exact rfc1812Process_uncounted port uncounted
  · intro pkts j packets distinct
    exact processx4Step3_eq env pkts j packets distinct

/-- Two options for the same port, the second of which overwrites the first, and the set-up
of two ports behind them. -/
theorem setUp_twoDests :
    ∃ addrs state, parseEthDests [⟨1#16, 0x010203040506#48⟩, ⟨1#16, 0x0a0b0c0d0e0f#48⟩] =
        some addrs ∧
      l3fwdPollResourceSetup twoPortEal threeQueues 0x3#32 addrs = some state := by
  have parses : (parseEthDests
      [⟨1#16, 0x010203040506#48⟩, ⟨1#16, 0x0a0b0c0d0e0f#48⟩]).isSome = true := by
    decide +kernel
  have succeeds : ∀ addrs,
      parseEthDests [⟨1#16, 0x010203040506#48⟩, ⟨1#16, 0x0a0b0c0d0e0f#48⟩] = some addrs →
        (l3fwdPollResourceSetup twoPortEal threeQueues 0x3#32 addrs).isSome = true := by
    intro addrs parsed
    cases parsed
    decide +kernel
  rcases Option.isSome_iff_exists.mp parses with ⟨addrs, parsed⟩
  rcases Option.isSome_iff_exists.mp (succeeds addrs parsed) with ⟨state, setUp⟩
  exact ⟨addrs, state, parsed, setUp⟩

theorem macRewrite_same_two :
    ∃ addrs state, parseEthDests [⟨1#16, 0x010203040506#48⟩, ⟨1#16, 0x0a0b0c0d0e0f#48⟩] =
        some addrs ∧
      l3fwdPollResourceSetup twoPortEal threeQueues 0x3#32 addrs = some state ∧
      (processPacket ((default : Env).withAddrs state.addrs) default 1#16).1.data =
        setEthAddrs ((default : Env).withAddrs state.addrs) (default : RteMbuf).data 1#16 := by
  rcases setUp_twoDests with ⟨addrs, state, parsed, setUp⟩
  exact ⟨addrs, state, parsed, setUp, (macRewrite_same twoPortEal threeQueues 0x3#32 _ addrs state
    parsed setUp default 1#16 (by decide) default).1⟩

end PacketForwarding.L3fwd
