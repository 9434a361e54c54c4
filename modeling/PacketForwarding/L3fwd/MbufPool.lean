import PacketForwarding.L3fwd.EthRewrite
import PacketForwarding.L3fwd.InitMem

/-! # The size of the mbuf pool

Without `--per-port-pool` the ports share a pool on each socket. It is created while the
first enabled port is set up, with a size that is computed from what that port uses, and
later requests for it are ignored. Whether it is large enough depends on how the RX queues
are spread over the ports.
-/

namespace PacketForwarding.L3fwd

/-- `MEMPOOL_CACHE_SIZE` -/
def mempoolCacheSize : Nat := 512

/-- `nb_rxd` and `nb_txd` -/
structure Descriptors where
  nbRxd : BitVec 16
  nbTxd : BitVec 16
  deriving DecidableEq

/-- The adjustment brings both numbers of descriptors into the limits of a device. -/
structure PoolEnv (τ : Type) extends MemEnv τ where
  perPortPool : Bool
  rteEthDevAdjustNbRxTxDesc : BitVec 16 → Descriptors → Option Descriptors

/-! ## Requests -/

def rteMax (a b : BitVec 32) : BitVec 32 :=
  if b < a then a else b

/-- This expression is used to calculate the number of mbufs needed depending on user input. -/
def nbMbuf (nports nbRxQueue nbRxd nbLcores nTxQueue nbTxd : BitVec 32) : BitVec 32 :=
  rteMax (nports * nbRxQueue * nbRxd + nports * nbLcores * BitVec.ofNat 32 maxPktBurst +
      nports * nTxQueue * nbTxd + nbLcores * BitVec.ofNat 32 mempoolCacheSize)
    8192#32

/-- What the event mode computes. It does not look at the number of RX queues. -/
def eventNbMbuf (nbPorts nbRxd nbTxd nbLcores : BitVec 32) : BitVec 32 :=
  rteMax (nbPorts * nbRxd + nbPorts * nbTxd + nbPorts * nbLcores * BitVec.ofNat 32 maxPktBurst +
      nbLcores * BitVec.ofNat 32 mempoolCacheSize)
    8192#32

/-- What it computes for a pool of one port. -/
def eventNbMbufPort (nbRxd nbLcores : BitVec 32) : BitVec 32 :=
  rteMax (nbRxd + nbRxd + nbLcores * BitVec.ofNat 32 maxPktBurst +
      nbLcores * BitVec.ofNat 32 mempoolCacheSize)
    8192#32

section Setup

variable {τ : Type} (env : PoolEnv τ)

def nbPorts : Nat := env.eal.rteEthForeachDev.length

/-- The memory with the descriptors that were adjusted last. -/
structure Pools (τ : Type) where
  mem : MemState τ
  descs : Descriptors

/-- Init memory: for all ports, which are port 0 then, or for this one. -/
def initPortMem (portid : BitVec 16) (shared single : BitVec 32) (mem : MemState τ) :
    Option (MemState τ) :=
  if env.perPortPool then (initMem env.toMemEnv portid.toNat single mem).toOption
  else (initMem env.toMemEnv 0 shared mem).toOption

/-! ## Poll mode -/

/-- `NB_MBUF` for a number of ports. -/
def pollRequest (nports : Nat) (nbRxQueue : BitVec 16) (descs : Descriptors) : BitVec 32 :=
  nbMbuf (BitVec.ofNat 32 nports) (nbRxQueue.setWidth 32) (descs.nbRxd.setWidth 32)
    (BitVec.ofNat 32 (rteLcoreCount env.eal)) (BitVec.ofNat 32 (nTxQueue env.eal))
    (descs.nbTxd.setWidth 32)

structure PollState (τ : Type) where
  pools : Pools τ
  setup : SetupState

def pollPort (params : List LcoreParams) (mask : BitVec 32) (state : PollState τ)
    (portid : BitVec 16) : Option (PollState τ) :=
  -- skip ports that are not enabled
  if portInMask mask portid.toNat = false then
    some state
  else do
    let nbRxQueue ← getPortNRxQueues params portid
    guard (env.eal.rteEthDevInfoGet portid)
    guard (env.eal.rteEthDevConfigure portid nbRxQueue (nTxQueue env.eal))
    let descs ← env.rteEthDevAdjustNbRxTxDesc portid state.pools.descs
    let addr ← env.eal.rteEthMacaddrGet portid
    let mem ← initPortMem env portid (pollRequest env (nbPorts env) nbRxQueue descs)
      (pollRequest env 1 nbRxQueue descs) state.pools.mem
    let queues ← setupTxQueues env.eal portid state.setup.lcoreConf
    return {
      pools := ⟨mem, descs⟩
      setup := { addrs := state.setup.addrs.setPort portid.toNat addr, lcoreConf := queues.2 } }

/-- The set-up in poll mode, with the memory. -/
def pollResourceSetup (params : List LcoreParams) (mask : BitVec 32) (addrs : EthAddrs)
    (descs : Descriptors) : Option (PollState τ) := do
  guard (checkLcoreParams env.eal params)
  let lcoreConf ← initLcoreRxQueues params fun _ => default
  guard (checkPortConfig env.eal mask params)
  let state ← env.eal.rteEthForeachDev.foldlM (pollPort env params mask)
    ⟨⟨.initial τ, descs⟩, ⟨addrs, lcoreConf⟩⟩
  guard ((enabledLcores env.eal).all fun lcore =>
    (state.setup.lcoreConf lcore).rxQueueList.all (setupRxQueue env.eal))
  return state

/-! ## Event mode -/

def eventRequest (descs : Descriptors) : BitVec 32 :=
  eventNbMbuf (BitVec.ofNat 32 (nbPorts env)) (descs.nbRxd.setWidth 32) (descs.nbTxd.setWidth 32)
    (BitVec.ofNat 32 (rteLcoreCount env.eal))

/-- The state of the set-up, and whether it is in a loop that does not end. -/
structure EventState (τ : Type) where
  pools : Pools τ
  hangs : Bool

/-- The queues that are set up. The counter has eight bits, so there are 256 of them at most,
and if there should be more the loop goes on with queue 0. -/
def ethQids (ethRxQueues : BitVec 16) : List (BitVec 16) :=
  (List.range (min ethRxQueues.toNat 256)).map (BitVec.ofNat 16)

def eventPort (ethRxQueues : BitVec 16) (mask : BitVec 32) (state : EventState τ)
    (portid : BitVec 16) : Option (EventState τ) :=
  if state.hangs then
    some state
  -- skip ports that are not enabled
  else if portInMask mask portid.toNat = false then
    some state
  else do
    guard (env.eal.rteEthDevInfoGet portid)
    guard (env.eal.rteEthDevConfigure portid ethRxQueues 1)
    let descs ← env.rteEthDevAdjustNbRxTxDesc portid state.pools.descs
    let mem ← initPortMem env portid (eventRequest env descs)
      (eventNbMbufPort (descs.nbRxd.setWidth 32) (BitVec.ofNat 32 (rteLcoreCount env.eal)))
      state.pools.mem
    guard ((ethQids ethRxQueues).all fun ethQid => env.eal.rteEthRxQueueSetup portid ethQid)
    let hangs := decide (256 ≤ ethRxQueues.toNat)
    guard (hangs || env.eal.rteEthTxQueueSetup portid 0#16)
    return ⟨⟨mem, descs⟩, hangs⟩

/-- `l3fwd_eth_dev_port_setup`, without the addresses. -/
def ethDevPortSetup (ethRxQueues : BitVec 16) (mask : BitVec 32) (descs : Descriptors) :
    Option (EventState τ) :=
  env.eal.rteEthForeachDev.foldlM (eventPort env ethRxQueues mask) ⟨⟨.initial τ, descs⟩, false⟩

end Setup

/-! ## Who creates the pool -/

section Created

variable {τ : Type} {env : PoolEnv τ}

/-- One port after the other adjusts the descriptors. -/
def adjustPorts (env : PoolEnv τ) (ports : List (BitVec 16)) (descs : Descriptors) :
    Option Descriptors :=
  ports.foldlM (fun descs portid => env.rteEthDevAdjustNbRxTxDesc portid descs) descs

theorem adjustPorts_append {ports : List (BitVec 16)} {portid : BitVec 16}
    {start before after : Descriptors} (earlier : adjustPorts env ports start = some before)
    (adjusted : env.rteEthDevAdjustNbRxTxDesc portid before = some after) :
    adjustPorts env (ports ++ [portid]) start = some after := by
  rw [adjustPorts, List.foldlM_append]
  change (adjustPorts env ports start).bind _ = _
  rw [earlier]
  change (env.rteEthDevAdjustNbRxTxDesc portid before).bind _ = _
  rw [adjusted]
  rfl

/-- The pool has the size that the first port requested, whatever the later ones did. -/
structure Created (env : PoolEnv τ) (request : BitVec 16 → Descriptors → BitVec 32 → Prop)
    (start : Descriptors) (ports : List (BitVec 16)) (pools : Pools τ) : Prop where
  inv : MemInv env.toMemEnv pools.mem
  before : ports = [] → pools = ⟨.initial τ, start⟩
  created : ∀ port rest, ports = port :: rest → ∃ first size,
    env.rteEthDevAdjustNbRxTxDesc port start = some first ∧
      adjustPorts env rest first = some pools.descs ∧ request port first size ∧
      ∀ socketid, env.Hosts socketid → pools.mem.pktmbufPool 0 socketid = some size

variable {request : BitVec 16 → Descriptors → BitVec 32 → Prop} {start : Descriptors}
  {ports : List (BitVec 16)}

theorem created_nothing : Created env request start [] ⟨.initial τ, start⟩ where
  inv := .initial _
  before := fun _ => rfl
  created := by
    intro port rest impossible
    cases impossible

theorem initPortMem_shared (shared : env.perPortPool = false) (portid : BitVec 16)
    (size single : BitVec 32) {before after : MemState τ}
    (done : initPortMem env portid size single before = some after) :
    initMem env.toMemEnv 0 size before = .ok after := by
  rw [initPortMem, if_neg (by rw [shared]; exact Bool.false_ne_true)] at done
  cases result : initMem env.toMemEnv 0 size before with
  | error reason =>
      rw [result] at done
      cases done
  | ok next =>
      rw [result] at done
      cases done
      rfl

/-- The next port creates the pool if it is the first one, and otherwise keeps it. -/
theorem Created.next {before : Pools τ} (created : Created env request start ports before)
    {portid : BitVec 16} {descs : Descriptors} {size : BitVec 32} {mem : MemState τ}
    (adjusted : env.rteEthDevAdjustNbRxTxDesc portid before.descs = some descs)
    (requested : request portid descs size)
    (done : initMem env.toMemEnv 0 size before.mem = .ok mem) :
    Created env request start (ports ++ [portid]) ⟨mem, descs⟩ := by
  have ended := (initMem_ends created.inv).of_ok done
  have hosted {socketid : Nat} (hosts : env.Hosts socketid) :
      (mem.pktmbufPool 0 socketid).isSome := by
    rcases hosts with ⟨lcoreId, enabled, rfl⟩
    exact (ended.ready lcoreId trivial enabled).2
  refine ⟨ended.inv, fun impossible => absurd impossible (by simp), ?_⟩
  intro port rest split
  cases ports with
  | nil =>
      cases split
      have untouched := created.before rfl
      rw [untouched] at adjusted
      refine ⟨descs, size, adjusted, rfl, requested, ?_⟩
      intro socketid hosts
      rcases ended.extended.pools 0 socketid with same | ⟨_, _, isNew⟩
      · have present := hosted hosts
        rw [same, untouched] at present
        cases present
      · exact isNew
  | cons head tail =>
      cases split
      rcases created.created _ _ rfl with
        ⟨first, firstSize, firstAdjusted, restAdjusted, firstRequested, pool⟩
      refine ⟨first, firstSize, firstAdjusted, adjustPorts_append restAdjusted adjusted,
        firstRequested, ?_⟩
      intro socketid hosts
      rw [ended.extended.keeps (by rw [pool socketid hosts]; rfl), pool socketid hosts]

end Created

/-! ## What each mode creates -/

section Modes

variable {τ : Type} {env : PoolEnv τ} {params : List LcoreParams} {mask : BitVec 32}

theorem pollPort_cases {before after : PollState τ} {portid : BitVec 16}
    (done : pollPort env params mask before portid = some after) :
    (portInMask mask portid.toNat = false ∧ after = before) ∨
      (portInMask mask portid.toNat = true ∧ ∃ nbRxQueue descs mem addr queues,
        getPortNRxQueues params portid = some nbRxQueue ∧
        (env.eal.rteEthDevInfoGet portid = true ∧
          env.eal.rteEthDevConfigure portid nbRxQueue (nTxQueue env.eal) = true) ∧
        env.rteEthDevAdjustNbRxTxDesc portid before.pools.descs = some descs ∧
        env.eal.rteEthMacaddrGet portid = some addr ∧
        initPortMem env portid (pollRequest env (nbPorts env) nbRxQueue descs)
          (pollRequest env 1 nbRxQueue descs) before.pools.mem = some mem ∧
        setupTxQueues env.eal portid before.setup.lcoreConf = some queues ∧
        after = ⟨⟨mem, descs⟩, ⟨before.setup.addrs.setPort portid.toNat addr, queues.2⟩⟩) := by
  rw [pollPort] at done
  split at done
  · next disabled =>
      cases done
      exact .inl ⟨disabled, rfl⟩
  · next enabled =>
      right
      rcases Option.bind_eq_some_iff.mp done with ⟨nbRxQueue, counted, done⟩
      rcases Option.bind_eq_some_iff.mp done with ⟨_, info, done⟩
      rcases Option.bind_eq_some_iff.mp done with ⟨_, configured, done⟩
      rcases Option.bind_eq_some_iff.mp done with ⟨descs, adjusted, done⟩
      rcases Option.bind_eq_some_iff.mp done with ⟨addr, isAddr, done⟩
      rcases Option.bind_eq_some_iff.mp done with ⟨mem, inited, done⟩
      rcases Option.bind_eq_some_iff.mp done with ⟨queues, added, done⟩
      cases done
      exact ⟨Bool.of_not_eq_false enabled, nbRxQueue, descs, mem, addr, queues, counted,
        ⟨by simpa [guard] using info, by simpa [guard] using configured⟩, adjusted, isAddr, inited,
        added, rfl⟩

/-- What a port requests in poll mode. -/
def PollRequests (env : PoolEnv τ) (params : List LcoreParams) (portid : BitVec 16)
    (descs : Descriptors) (size : BitVec 32) : Prop :=
  ∃ nbRxQueue, getPortNRxQueues params portid = some nbRxQueue ∧
    size = pollRequest env (nbPorts env) nbRxQueue descs

theorem filter_append_of_disabled {done : List (BitVec 16)} {portid : BitVec 16}
    (disabled : portInMask mask portid.toNat = false) :
    (done ++ [portid]).filter (fun port => portInMask mask port.toNat) =
      done.filter fun port => portInMask mask port.toNat := by
  rw [List.filter_append, List.filter_singleton, disabled, cond_false, List.append_nil]

theorem filter_append_of_enabled {done : List (BitVec 16)} {portid : BitVec 16}
    (enabled : portInMask mask portid.toNat = true) :
    (done ++ [portid]).filter (fun port => portInMask mask port.toNat) =
      done.filter (fun port => portInMask mask port.toNat) ++ [portid] := by
  rw [List.filter_append, List.filter_singleton, enabled, cond_true]

theorem pollPorts_created (shared : env.perPortPool = false) {descs : Descriptors}
    {setup : SetupState} {state : PollState τ}
    (ran : env.eal.rteEthForeachDev.foldlM (pollPort env params mask)
      ⟨⟨.initial τ, descs⟩, setup⟩ = some state) :
    Created env (PollRequests env params) descs (enabledPorts env.eal mask) state.pools := by
  apply inv_of_foldlM (fun done (state : PollState τ) => Created env (PollRequests env params)
    descs (done.filter fun port => portInMask mask port.toNat) state.pools) ?_ created_nothing ran
  intro done portid before after created stepped
  rcases pollPort_cases stepped with ⟨disabled, rfl⟩ |
    ⟨enabled, nbRxQueue, descs, mem, addr, queues, counted, _, adjusted, _, inited, _, rfl⟩
  · rw [filter_append_of_disabled disabled]
    exact created
  · rw [filter_append_of_enabled enabled]
    exact created.next adjusted ⟨nbRxQueue, counted, rfl⟩ (initPortMem_shared shared _ _ _ inited)

theorem eventPort_cases {ethRxQueues : BitVec 16} {before after : EventState τ}
    {portid : BitVec 16} (running : before.hangs = false)
    (done : eventPort env ethRxQueues mask before portid = some after) :
    (portInMask mask portid.toNat = false ∧ after = before) ∨
      (portInMask mask portid.toNat = true ∧ ∃ descs mem,
        env.rteEthDevAdjustNbRxTxDesc portid before.pools.descs = some descs ∧
        initPortMem env portid (eventRequest env descs)
          (eventNbMbufPort (descs.nbRxd.setWidth 32) (BitVec.ofNat 32 (rteLcoreCount env.eal)))
          before.pools.mem = some mem ∧
        after = ⟨⟨mem, descs⟩, decide (256 ≤ ethRxQueues.toNat)⟩) := by
  rw [eventPort, if_neg (by rw [running]; exact Bool.false_ne_true)] at done
  split at done
  · next disabled =>
      cases done
      exact .inl ⟨disabled, rfl⟩
  · next enabled =>
      right
      rcases Option.bind_eq_some_iff.mp done with ⟨_, _, done⟩
      rcases Option.bind_eq_some_iff.mp done with ⟨_, _, done⟩
      rcases Option.bind_eq_some_iff.mp done with ⟨descs, adjusted, done⟩
      rcases Option.bind_eq_some_iff.mp done with ⟨mem, inited, done⟩
      rcases Option.bind_eq_some_iff.mp done with ⟨_, _, done⟩
      rcases Option.bind_eq_some_iff.mp done with ⟨_, _, done⟩
      cases done
      exact ⟨Bool.of_not_eq_false enabled, descs, mem, adjusted, inited, rfl⟩

/-- The ports that the event mode gets to. -/
def reachedPorts (ethRxQueues : BitVec 16) (ports : List (BitVec 16)) : List (BitVec 16) :=
  if 256 ≤ ethRxQueues.toNat then ports.take 1 else ports

theorem eventPorts_created (shared : env.perPortPool = false) {ethRxQueues : BitVec 16}
    {descs : Descriptors} {state : EventState τ}
    (ran : ethDevPortSetup env ethRxQueues mask descs = some state) :
    Created env (fun _ descs size => size = eventRequest env descs) descs
      (reachedPorts ethRxQueues (enabledPorts env.eal mask)) state.pools := by
  have both := inv_of_foldlM (fun done (state : EventState τ) =>
    Created env (fun _ descs size => size = eventRequest env descs) descs
      (reachedPorts ethRxQueues (done.filter fun port => portInMask mask port.toNat)) state.pools ∧
    (state.hangs = true ↔ 256 ≤ ethRxQueues.toNat ∧
      (done.filter fun port => portInMask mask port.toNat) ≠ [])) ?_ ?_ ran
  · exact both.1
  · rintro done portid before after ⟨created, hangs⟩ stepped
    by_cases stuck : before.hangs = true
    · rw [eventPort, if_pos stuck] at stepped
      cases stepped
      rcases hangs.mp stuck with ⟨many, nonempty⟩
      cases enabled : portInMask mask portid.toNat with
      | false =>
          rw [filter_append_of_disabled enabled]
          exact ⟨created, hangs⟩
      | true =>
          rw [filter_append_of_enabled enabled]
          rw [reachedPorts, if_pos many] at created ⊢
          have atLeastOne := List.length_pos_iff.mpr nonempty
          rw [List.take_append_of_le_length atLeastOne]
          refine ⟨created, fun _ => ⟨many, ?_⟩, fun _ => stuck⟩
          exact fun empty => nonempty (List.append_eq_nil_iff.mp empty).1
    · have running := Bool.eq_false_of_not_eq_true stuck
      rcases eventPort_cases running stepped with ⟨disabled, rfl⟩ |
        ⟨enabled, descs, mem, adjusted, inited, rfl⟩
      · rw [filter_append_of_disabled disabled]
        exact ⟨created, hangs⟩
      · rw [filter_append_of_enabled enabled]
        have next := created.next adjusted rfl (initPortMem_shared shared _ _ _ inited)
        by_cases many : 256 ≤ ethRxQueues.toNat
        · have none : (done.filter fun port => portInMask mask port.toNat) = [] := by
            by_contra nonempty
            exact stuck (hangs.mpr ⟨many, nonempty⟩)
          rw [none] at next ⊢
          rw [reachedPorts, if_pos many] at next ⊢
          refine ⟨next, fun _ => ⟨many, List.cons_ne_nil _ _⟩, fun _ => decide_eq_true many⟩
        · rw [reachedPorts, if_neg many] at next ⊢
          exact ⟨next, fun isMany => absurd (of_decide_eq_true isMany) many,
            fun isMany => absurd isMany.1 many⟩
  · constructor
    · rw [List.filter_nil, reachedPorts]
      split
      · exact created_nothing
      · exact created_nothing
    · constructor
      · intro impossible
        cases impossible
      · rintro ⟨_, impossible⟩
        exact absurd rfl impossible

end Modes

/-! ## The sizes as numbers -/

section Sizes

theorem toNat_rteMax (a b : BitVec 32) : (rteMax a b).toNat = max a.toNat b.toNat := by
  rw [rteMax]
  split
  · next greater => exact (Nat.max_eq_left (Nat.le_of_lt (BitVec.lt_def.mp greater))).symm
  · next smaller =>
      have less : a.toNat ≤ b.toNat := Nat.not_lt.mp fun greater => smaller (BitVec.lt_def.mpr greater)
      exact (Nat.max_eq_right less).symm

/-- A product of two bounded numbers that stays in the range. -/
theorem toNat_mul_bounded {a b : BitVec 32} {x y : Nat} (left : a.toNat ≤ x) (right : b.toNat ≤ y)
    (fits : x * y < 2 ^ 32) : (a * b).toNat = a.toNat * b.toNat ∧ a.toNat * b.toNat ≤ x * y := by
  have bound := Nat.mul_le_mul left right
  exact ⟨BitVec.toNat_mul_of_lt (Nat.lt_of_le_of_lt bound fits), bound⟩

theorem toNat_maxPktBurst : (BitVec.ofNat 32 maxPktBurst).toNat = maxPktBurst := rfl

theorem toNat_mempoolCacheSize : (BitVec.ofNat 32 mempoolCacheSize).toNat = mempoolCacheSize := rfl

section Request

variable {nports nbLcores nbRxd nbTxd : BitVec 32} (fewPorts : nports.toNat ≤ 32)
  (fewLcores : nbLcores.toNat ≤ 128) (fewRxd : nbRxd.toNat ≤ 65535) (fewTxd : nbTxd.toNat ≤ 65535)

include fewPorts fewLcores

theorem toNat_tables :
    (nports * nbLcores * BitVec.ofNat 32 maxPktBurst).toNat =
        nports.toNat * (nbLcores.toNat * maxPktBurst) ∧
      nports.toNat * (nbLcores.toNat * maxPktBurst) ≤ 2097152 := by
  rcases toNat_mul_bounded fewPorts fewLcores (by decide) with ⟨lcores, lcoresBound⟩
  rcases toNat_mul_bounded (lcores.trans_le lcoresBound)
    (Nat.le_of_eq toNat_maxPktBurst) (by decide) with ⟨tables, tablesBound⟩
  rw [lcores, toNat_maxPktBurst, Nat.mul_assoc] at tables tablesBound
  exact ⟨tables, tablesBound⟩

include fewRxd fewTxd

/-- No product and no sum of these is out of range. -/
theorem toNat_nbMbuf {nbRxQueue nTxQueue : BitVec 32} (fewQueues : nbRxQueue.toNat ≤ 128)
    (fewTxQueues : nTxQueue.toNat ≤ 128) :
    (nbMbuf nports nbRxQueue nbRxd nbLcores nTxQueue nbTxd).toNat =
      max (nports.toNat * (nbRxQueue.toNat * nbRxd.toNat) +
        nports.toNat * (nbLcores.toNat * maxPktBurst) +
        nports.toNat * (nTxQueue.toNat * nbTxd.toNat) + nbLcores.toNat * mempoolCacheSize) 8192 := by
  rcases toNat_mul_bounded fewPorts fewQueues (by decide) with ⟨rxQueues, rxQueuesBound⟩
  rcases toNat_mul_bounded (rxQueues.trans_le rxQueuesBound) fewRxd (by decide) with ⟨rx, rxBound⟩
  rcases toNat_mul_bounded fewPorts fewTxQueues (by decide) with ⟨txQueues, txQueuesBound⟩
  rcases toNat_mul_bounded (txQueues.trans_le txQueuesBound) fewTxd (by decide) with ⟨tx, txBound⟩
  rcases toNat_tables fewPorts fewLcores with ⟨tables, tablesBound⟩
  rcases toNat_mul_bounded fewLcores (Nat.le_of_eq toNat_mempoolCacheSize)
    (by decide) with ⟨cache, cacheBound⟩
  rw [rxQueues, Nat.mul_assoc] at rx rxBound
  rw [txQueues, Nat.mul_assoc] at tx txBound
  rw [toNat_mempoolCacheSize] at cache cacheBound
  have small : mempoolCacheSize = 512 := rfl
  have least : (8192#32).toNat = 8192 := rfl
  rw [nbMbuf, toNat_rteMax, least]
  simp only [BitVec.toNat_add, rx, tx, tables, cache]
  rw [small] at cacheBound ⊢
  omega

theorem toNat_eventNbMbuf :
    (eventNbMbuf nports nbRxd nbTxd nbLcores).toNat =
      max (nports.toNat * nbRxd.toNat + nports.toNat * nbTxd.toNat +
        nports.toNat * (nbLcores.toNat * maxPktBurst) + nbLcores.toNat * mempoolCacheSize) 8192 := by
  rcases toNat_mul_bounded fewPorts fewRxd (by decide) with ⟨rx, rxBound⟩
  rcases toNat_mul_bounded fewPorts fewTxd (by decide) with ⟨tx, txBound⟩
  rcases toNat_tables fewPorts fewLcores with ⟨tables, tablesBound⟩
  rcases toNat_mul_bounded fewLcores (Nat.le_of_eq toNat_mempoolCacheSize)
    (by decide) with ⟨cache, cacheBound⟩
  rw [toNat_mempoolCacheSize] at cache cacheBound
  have small : mempoolCacheSize = 512 := rfl
  have least : (8192#32).toNat = 8192 := rfl
  rw [eventNbMbuf, toNat_rteMax, least]
  simp only [BitVec.toNat_add, rx, tx, tables, cache]
  rw [small] at cacheBound ⊢
  omega

end Request

theorem length_rteEthForeachDev (eal : Eal) : eal.rteEthForeachDev.length ≤ rteMaxEthports := by
  have nodup : (eal.rteEthForeachDev.map BitVec.toNat).Nodup :=
    eal.nodup.map fun _ _ => BitVec.eq_of_toNat_eq
  have within : eal.rteEthForeachDev.map BitVec.toNat ⊆ List.range rteMaxEthports := by
    intro number member
    rcases List.mem_map.mp member with ⟨port, present, rfl⟩
    exact List.mem_range.mpr (eal.devices port present)
  have fits := (nodup.subperm within).length_le
  rwa [List.length_map, List.length_range] at fits

/-- The queue ids are checked, so that no port has more queues than are allowed. -/
theorem nbRxQueue_le {eal : Eal} {params : List LcoreParams} {port nbRxQueue : BitVec 16}
    (checked : checkLcoreParams eal params = true)
    (counted : getPortNRxQueues params port = some nbRxQueue) :
    nbRxQueue.toNat ≤ maxRxQueuePerPort := by
  have ids := getPortNRxQueues_spec checked counted
  by_contra large
  have member : maxRxQueuePerPort ∈ queueIds params port := by
    rw [ids]
    exact List.mem_range.mpr (Nat.lt_of_not_le large)
  rcases List.mem_map.mp member with ⟨param, ofPort, isQueue⟩
  have below := (checkLcoreParams_mem checked (List.mem_filter.mp ofPort).1).1
  omega

variable {τ : Type} {env : PoolEnv τ}

theorem toNat_pollRequest {params : List LcoreParams} {port nbRxQueue : BitVec 16}
    {descs : Descriptors} (checked : checkLcoreParams env.eal params = true)
    (counted : getPortNRxQueues params port = some nbRxQueue) :
    (pollRequest env (nbPorts env) nbRxQueue descs).toNat =
      max (nbPorts env * (nbRxQueue.toNat * descs.nbRxd.toNat) +
        nbPorts env * (rteLcoreCount env.eal * maxPktBurst) +
        nbPorts env * (nTxQueue env.eal * descs.nbTxd.toNat) +
        rteLcoreCount env.eal * mempoolCacheSize) 8192 := by
  have fewPorts := length_rteEthForeachDev env.eal
  have fewLcores := rteLcoreCount_le env.eal
  have fewQueues := nbRxQueue_le checked counted
  have fewTxQueues : nTxQueue env.eal ≤ rteLcoreCount env.eal := Nat.min_le_left _ _
  rw [rteMaxEthports] at fewPorts
  rw [rteMaxLcore] at fewLcores
  rw [maxRxQueuePerPort] at fewQueues
  have ports : (BitVec.ofNat 32 (nbPorts env)).toNat = nbPorts env :=
    Nat.mod_eq_of_lt (by rw [nbPorts]; omega)
  have lcores : (BitVec.ofNat 32 (rteLcoreCount env.eal)).toNat = rteLcoreCount env.eal :=
    Nat.mod_eq_of_lt (by omega)
  have txQueues : (BitVec.ofNat 32 (nTxQueue env.eal)).toNat = nTxQueue env.eal :=
    Nat.mod_eq_of_lt (by omega)
  have rxd := descs.nbRxd.isLt
  have txd := descs.nbTxd.isLt
  have wide (x : BitVec 16) : (x.setWidth 32).toNat = x.toNat :=
    BitVec.toNat_setWidth_of_le (by decide)
  rw [pollRequest, toNat_nbMbuf, ports, lcores, txQueues, wide, wide, wide]
  · rw [ports]
    exact fewPorts
  · rw [lcores]
    exact fewLcores
  · rw [wide]
    omega
  · rw [wide]
    omega
  · rw [wide]
    exact fewQueues
  · rw [txQueues]
    exact fewTxQueues.trans fewLcores

theorem toNat_eventRequest (descs : Descriptors) :
    (eventRequest env descs).toNat =
      max (nbPorts env * descs.nbRxd.toNat + nbPorts env * descs.nbTxd.toNat +
        nbPorts env * (rteLcoreCount env.eal * maxPktBurst) +
        rteLcoreCount env.eal * mempoolCacheSize) 8192 := by
  have fewPorts := length_rteEthForeachDev env.eal
  have fewLcores := rteLcoreCount_le env.eal
  rw [rteMaxEthports] at fewPorts
  rw [rteMaxLcore] at fewLcores
  have ports : (BitVec.ofNat 32 (nbPorts env)).toNat = nbPorts env :=
    Nat.mod_eq_of_lt (by rw [nbPorts]; omega)
  have lcores : (BitVec.ofNat 32 (rteLcoreCount env.eal)).toNat = rteLcoreCount env.eal :=
    Nat.mod_eq_of_lt (by omega)
  have rxd := descs.nbRxd.isLt
  have txd := descs.nbTxd.isLt
  have wide (x : BitVec 16) : (x.setWidth 32).toNat = x.toNat :=
    BitVec.toNat_setWidth_of_le (by decide)
  rw [eventRequest, toNat_eventNbMbuf, ports, lcores, wide, wide]
  · rw [ports]
    exact fewPorts
  · rw [lcores]
    exact fewLcores
  · rw [wide]
    omega
  · rw [wide]
    omega

end Sizes

/-! ## What is needed -/

section Needs

variable {τ : Type} (env : PoolEnv τ)

def rxQueues (params : List LcoreParams) (portid : BitVec 16) : Nat :=
  ((getPortNRxQueues params portid).getD 0#16).toNat

/-- The number of mbufs that can be held at once in poll mode: in the rings of the ports, in
the tables of the lcores and in the caches. -/
def pollDemand (params : List LcoreParams) (mask : BitVec 32) (descs : Descriptors) : Nat :=
  ((enabledPorts env.eal mask).map fun portid =>
    rxQueues params portid * descs.nbRxd.toNat + nTxQueue env.eal * descs.nbTxd.toNat +
      rteLcoreCount env.eal * maxPktBurst).sum +
    rteLcoreCount env.eal * mempoolCacheSize

/-- The number of mbufs in the rings in event mode. -/
def eventDemand (ethRxQueues : BitVec 16) (mask : BitVec 32) (descs : Descriptors) : Nat :=
  ((enabledPorts env.eal mask).map fun _ =>
    ethRxQueues.toNat * descs.nbRxd.toNat + descs.nbTxd.toNat).sum

/-- The pool on a socket is large enough. -/
def PoolSuffices (pools : Pools τ) (socketid demand : Nat) : Prop :=
  ∀ size, pools.mem.pktmbufPool 0 socketid = some size → demand ≤ size.toNat

/-- All RX queues together have as many descriptors as those of the first port would have on
every port, or there is enough room in the share of ports that are not enabled. Small
configurations are covered by the least size. -/
def PollPoolFits (params : List LcoreParams) (mask : BitVec 32) (start : Descriptors) : Prop :=
  ∀ port rest first last, enabledPorts env.eal mask = port :: rest →
    env.rteEthDevAdjustNbRxTxDesc port start = some first →
    adjustPorts env rest first = some last →
    let perPort := fun descs : Descriptors =>
      nTxQueue env.eal * descs.nbTxd.toNat + rteLcoreCount env.eal * maxPktBurst
    let rxMbufs := ((enabledPorts env.eal mask).map (rxQueues params)).sum * last.nbRxd.toNat
    rxMbufs + (rest.length + 1) * perPort last ≤
        nbPorts env * (rxQueues params port * first.nbRxd.toNat + perPort first) ∨
      rxMbufs + (rest.length + 1) * perPort last + rteLcoreCount env.eal * mempoolCacheSize ≤ 8192

/-- All rings fit into what is requested for one RX queue on each port, with the tables and
caches, or into the least size. -/
def EventPoolFits (ethRxQueues : BitVec 16) (mask : BitVec 32) (start : Descriptors) : Prop :=
  ∀ port rest first last, enabledPorts env.eal mask = port :: rest →
    env.rteEthDevAdjustNbRxTxDesc port start = some first →
    adjustPorts env (if 256 ≤ ethRxQueues.toNat then [] else rest) first = some last →
    (rest.length + 1) * (ethRxQueues.toNat * last.nbRxd.toNat + last.nbTxd.toNat) ≤
      max (nbPorts env * (first.nbRxd.toNat + first.nbTxd.toNat) +
        (nbPorts env * maxPktBurst + mempoolCacheSize) * rteLcoreCount env.eal) 8192

variable {env} {params : List LcoreParams} {mask : BitVec 32} {start : Descriptors}

/-- A pool suffices if and only if the size that was requested first does. -/
theorem poolSuffices_iff {request : BitVec 16 → Descriptors → BitVec 32 → Prop}
    {ports : List (BitVec 16)} {pools : Pools τ} {socketid : Nat} {demand : Descriptors → Nat}
    (created : Created env request start ports pools) (hosted : env.Hosts socketid)
    (functional : ∀ port descs size size', request port descs size → request port descs size' →
      size = size') :
    PoolSuffices pools socketid (demand pools.descs) ↔
      ∀ port rest first last size, ports = port :: rest →
        env.rteEthDevAdjustNbRxTxDesc port start = some first →
        adjustPorts env rest first = some last → request port first size →
        demand last ≤ size.toNat := by
  cases ports with
  | nil =>
      constructor
      · intro _ port rest _ _ _ impossible
        cases impossible
      · intro _ size isPool
        rw [created.before rfl] at isPool
        cases isPool
  | cons port rest =>
      rcases created.created port rest rfl with
        ⟨first, size, adjusted, restAdjusted, requested, pool⟩
      constructor
      · intro suffices' port' rest' first' last' size' same adjusted' restAdjusted' requested'
        cases same
        cases adjusted.symm.trans adjusted'
        cases restAdjusted.symm.trans restAdjusted'
        cases functional _ _ _ _ requested requested'
        exact suffices' size (pool socketid hosted)
      · intro fits size' isPool
        cases (pool socketid hosted).symm.trans isPool
        exact fits port rest first pools.descs size rfl adjusted restAdjusted requested

theorem pollDemand_eq {port : BitVec 16} {rest : List (BitVec 16)}
    (ports : enabledPorts env.eal mask = port :: rest) (descs : Descriptors) :
    pollDemand env params mask descs =
      ((enabledPorts env.eal mask).map (rxQueues params)).sum * descs.nbRxd.toNat +
        (rest.length + 1) * (nTxQueue env.eal * descs.nbTxd.toNat +
          rteLcoreCount env.eal * maxPktBurst) +
        rteLcoreCount env.eal * mempoolCacheSize := by
  have sums (list : List (BitVec 16)) (x y : Nat) :
      (list.map fun portid => rxQueues params portid * x + y).sum =
        (list.map (rxQueues params)).sum * x + list.length * y := by
    induction list with
    | nil => simp
    | cons head tail induction =>
        simp only [List.map_cons, List.sum_cons, List.length_cons, induction]
        ring
  have count : (enabledPorts env.eal mask).length = rest.length + 1 := by
    rw [ports, List.length_cons]
  rw [pollDemand]
  simp only [Nat.add_assoc]
  rw [sums, count]
  ring

theorem eventDemand_eq {port : BitVec 16} {rest : List (BitVec 16)} {ethRxQueues : BitVec 16}
    (ports : enabledPorts env.eal mask = port :: rest) (descs : Descriptors) :
    eventDemand env ethRxQueues mask descs =
      (rest.length + 1) * (ethRxQueues.toNat * descs.nbRxd.toNat + descs.nbTxd.toNat) := by
  rw [eventDemand, ports, List.map_const', List.sum_replicate, List.length_cons]
  rfl

theorem pollPool_suffices_iff (shared : env.perPortPool = false) {socketid : Nat}
    (hosted : env.Hosts socketid) {addrs : EthAddrs} {state : PollState τ}
    (ran : pollResourceSetup env params mask addrs start = some state) :
    PoolSuffices state.pools socketid (pollDemand env params mask state.pools.descs) ↔
      PollPoolFits env params mask start := by
  rw [pollResourceSetup] at ran
  rcases Option.bind_eq_some_iff.mp ran with ⟨_, lcoresChecked, ran⟩
  rcases Option.bind_eq_some_iff.mp ran with ⟨lcoreConf, _, ran⟩
  rcases Option.bind_eq_some_iff.mp ran with ⟨_, _, ran⟩
  rcases Option.bind_eq_some_iff.mp ran with ⟨last, ports, ran⟩
  rcases Option.bind_eq_some_iff.mp ran with ⟨_, _, ran⟩
  cases ran
  have checked : checkLcoreParams env.eal params = true := by simpa [guard] using lcoresChecked
  have created := pollPorts_created shared ports
  rw [poolSuffices_iff created hosted]
  · rw [PollPoolFits]
    constructor
    · intro fits port rest first last isFirst adjusted restAdjusted
      rcases created.created port rest isFirst with ⟨_, _, _, _, ⟨nbRxQueue, counted, _⟩, _⟩
      have enough := fits port rest first last _ isFirst adjusted restAdjusted
        ⟨nbRxQueue, counted, rfl⟩
      have queues : rxQueues params port = nbRxQueue.toNat := by rw [rxQueues, counted]; rfl
      rw [pollDemand_eq isFirst, toNat_pollRequest checked counted, le_max_iff] at enough
      dsimp only
      rw [queues]
      refine enough.imp ?_ fun least => least
      intro enough
      nlinarith only [enough]
    · rintro fits port rest first last _ isFirst adjusted restAdjusted ⟨nbRxQueue, counted, rfl⟩
      have enough := fits port rest first last isFirst adjusted restAdjusted
      have queues : rxQueues params port = nbRxQueue.toNat := by rw [rxQueues, counted]; rfl
      dsimp only at enough
      rw [queues] at enough
      rw [pollDemand_eq isFirst, toNat_pollRequest checked counted, le_max_iff]
      refine enough.imp ?_ fun least => least
      intro enough
      nlinarith only [enough]
  · rintro port descs size size' ⟨nbRxQueue, counted, rfl⟩ ⟨nbRxQueue', counted', rfl⟩
    rw [counted] at counted'
    cases counted'
    rfl

theorem reachedPorts_cons (ethRxQueues : BitVec 16) (port : BitVec 16) (rest : List (BitVec 16)) :
    reachedPorts ethRxQueues (port :: rest) =
      port :: if 256 ≤ ethRxQueues.toNat then [] else rest := by
  rw [reachedPorts]
  split
  · rfl
  · rfl

theorem eventPool_suffices_iff (shared : env.perPortPool = false) {socketid : Nat}
    (hosted : env.Hosts socketid) {ethRxQueues : BitVec 16} {state : EventState τ}
    (ran : ethDevPortSetup env ethRxQueues mask start = some state) :
    PoolSuffices state.pools socketid (eventDemand env ethRxQueues mask state.pools.descs) ↔
      EventPoolFits env ethRxQueues mask start := by
  have enough_iff {port : BitVec 16} {rest : List (BitVec 16)} {first last : Descriptors}
      (ports : enabledPorts env.eal mask = port :: rest) :
      eventDemand env ethRxQueues mask last ≤ (eventRequest env first).toNat ↔
        (rest.length + 1) * (ethRxQueues.toNat * last.nbRxd.toNat + last.nbTxd.toNat) ≤
          max (nbPorts env * (first.nbRxd.toNat + first.nbTxd.toNat) +
            (nbPorts env * maxPktBurst + mempoolCacheSize) * rteLcoreCount env.eal) 8192 := by
    have size : nbPorts env * first.nbRxd.toNat + nbPorts env * first.nbTxd.toNat +
        nbPorts env * (rteLcoreCount env.eal * maxPktBurst) +
        rteLcoreCount env.eal * mempoolCacheSize =
          nbPorts env * (first.nbRxd.toNat + first.nbTxd.toNat) +
            (nbPorts env * maxPktBurst + mempoolCacheSize) * rteLcoreCount env.eal := by
      ring
    rw [eventDemand_eq ports, toNat_eventRequest, size]
  rw [poolSuffices_iff (eventPorts_created shared ran) hosted
    fun _ _ _ _ same same' => same.trans same'.symm, EventPoolFits]
  constructor
  · intro fits port rest first last isFirst adjusted restAdjusted
    have reached := reachedPorts_cons ethRxQueues port rest
    rw [← isFirst] at reached
    exact (enough_iff isFirst).mp (fits port _ first last _ reached adjusted restAdjusted rfl)
  · rintro fits port rest first last _ reached adjusted restAdjusted rfl
    cases ports : enabledPorts env.eal mask with
    | nil =>
        rw [ports, reachedPorts] at reached
        split at reached
        · cases reached
        · cases reached
    | cons head tail =>
        rw [ports, reachedPorts_cons] at reached
        rcases List.cons.inj reached with ⟨rfl, rfl⟩
        exact (enough_iff ports).mpr (fits head tail first last ports adjusted restAdjusted)

/-- Without `--per-port-pool` and with all lcores on one socket, the pool is large enough if
and only if what the first enabled port requests covers the needs of all. -/
theorem mbufPool_suffices_iff (env : PoolEnv τ) (shared : env.perPortPool = false) {socketid : Nat}
    (oneSocket : ∀ other, env.Hosts other ↔ other = socketid) (mask : BitVec 32)
    (start : Descriptors) :
    (∀ params addrs state, pollResourceSetup env params mask addrs start = some state →
      (PoolSuffices state.pools socketid (pollDemand env params mask state.pools.descs) ↔
        PollPoolFits env params mask start)) ∧
    ∀ ethRxQueues state, ethDevPortSetup env ethRxQueues mask start = some state →
      (PoolSuffices state.pools socketid (eventDemand env ethRxQueues mask state.pools.descs) ↔
        EventPoolFits env ethRxQueues mask start) := by
  have hosted := (oneSocket socketid).mpr rfl
  constructor
  · intro params addrs state ran
    exact pollPool_suffices_iff shared hosted ran
  · intro ethRxQueues state ran
    exact eventPool_suffices_iff shared hosted ran

end Needs

/-- Two ports and two lcores on one socket, and nothing to adjust. -/
def oneSocket : PoolEnv Unit where
  eal := twoPortEal
  numaOn := false
  rteLcoreToSocketId := fun _ => 0
  mode := .lpm
  vectorEnabled := false
  vectorSize := 64#16
  rtePktmbufPoolCreate := fun _ _ _ _ => true
  rteEventVectorPoolCreate := fun _ _ _ _ => true
  createTables := fun _ _ _ => some ((), ())
  perPortPool := false
  rteEthDevAdjustNbRxTxDesc := fun _ descs => some descs

theorem oneSocket_hosts (other : Nat) : oneSocket.Hosts other ↔ other = 0 := by
  constructor
  · rintro ⟨lcoreId, _, isSocket⟩
    exact isSocket.symm
  · rintro rfl
    exact ⟨2, rfl, rfl⟩

/-- The first port has more queues than the second. -/
theorem mbufPool_suffices_three :
    (∃ state, pollResourceSetup oneSocket threeQueues 0x3#32 .zero ⟨1024#16, 1024#16⟩ = some state ∧
      PoolSuffices state.pools 0 (pollDemand oneSocket threeQueues 0x3#32 state.pools.descs)) ∧
    ∃ state, ethDevPortSetup oneSocket 1#16 0x3#32 ⟨1024#16, 1024#16⟩ = some state ∧
      PoolSuffices state.pools 0 (eventDemand oneSocket 1#16 0x3#32 state.pools.descs) := by
  have enabled : enabledPorts oneSocket.eal 0x3#32 = [0#16, 1#16] := by decide
  have suffices_iff := mbufPool_suffices_iff oneSocket rfl oneSocket_hosts 0x3#32
    ⟨1024#16, 1024#16⟩
  constructor
  · have succeeds : (pollResourceSetup oneSocket threeQueues 0x3#32 .zero
        ⟨1024#16, 1024#16⟩).isSome = true := by
      decide +kernel
    rcases Option.isSome_iff_exists.mp succeeds with ⟨state, ran⟩
    refine ⟨state, ran, (suffices_iff.1 _ _ _ ran).mpr ?_⟩
    intro port rest first last isFirst adjusted restAdjusted
    rw [enabled] at isFirst
    cases isFirst
    cases adjusted
    cases restAdjusted
    exact .inl (by decide)
  · have succeeds : (ethDevPortSetup oneSocket 1#16 0x3#32 ⟨1024#16, 1024#16⟩).isSome = true := by
      decide +kernel
    rcases Option.isSome_iff_exists.mp succeeds with ⟨state, ran⟩
    refine ⟨state, ran, (suffices_iff.2 _ _ ran).mpr ?_⟩
    intro port rest first last isFirst adjusted restAdjusted
    rw [enabled] at isFirst
    cases isFirst
    cases adjusted
    cases restAdjusted
    decide

/-- One queue of the first port and three of the second. -/
def fourQueues : List LcoreParams :=
  [⟨0#16, 0#16, 2#32⟩, ⟨1#16, 0#16, 2#32⟩, ⟨1#16, 1#16, 3#32⟩, ⟨1#16, 2#16, 3#32⟩]

/-- The pool is short by two rings in poll mode, and in event mode it has the least size for
any number of RX queues. -/
theorem mbufPool_tooSmall :
    (∃ state, pollResourceSetup oneSocket fourQueues 0x3#32 .zero ⟨1024#16, 1024#16⟩ = some state ∧
      state.pools.mem.pktmbufPool 0 0 = some 9216#32 ∧
      pollDemand oneSocket fourQueues 0x3#32 state.pools.descs = 11264 ∧
      ¬ PoolSuffices state.pools 0 (pollDemand oneSocket fourQueues 0x3#32 state.pools.descs)) ∧
    ∃ state, ethDevPortSetup oneSocket 8#16 0x3#32 ⟨1024#16, 1024#16⟩ = some state ∧
      state.pools.mem.pktmbufPool 0 0 = some 8192#32 ∧
      eventDemand oneSocket 8#16 0x3#32 state.pools.descs = 18432 ∧
      ¬ PoolSuffices state.pools 0 (eventDemand oneSocket 8#16 0x3#32 state.pools.descs) := by
  constructor
  · have computed : (pollResourceSetup oneSocket fourQueues 0x3#32 .zero
        ⟨1024#16, 1024#16⟩).map (fun state => (state.pools.mem.pktmbufPool 0 0, state.pools.descs)) =
          some (some 9216#32, ⟨1024#16, 1024#16⟩) := by
      decide +kernel
    rcases Option.map_eq_some_iff.mp computed with ⟨state, ran, result⟩
    rcases Prod.mk.inj result with ⟨pool, descs⟩
    have demand : pollDemand oneSocket fourQueues 0x3#32 state.pools.descs = 11264 := by
      rw [descs]
      decide
    refine ⟨state, ran, pool, demand, ?_⟩
    intro enough
    have tooMuch := enough _ pool
    rw [demand] at tooMuch
    exact absurd tooMuch (by decide)
  · have computed : (ethDevPortSetup oneSocket 8#16 0x3#32 ⟨1024#16, 1024#16⟩).map
        (fun state => (state.pools.mem.pktmbufPool 0 0, state.pools.descs)) =
          some (some 8192#32, ⟨1024#16, 1024#16⟩) := by
      decide +kernel
    rcases Option.map_eq_some_iff.mp computed with ⟨state, ran, result⟩
    rcases Prod.mk.inj result with ⟨pool, descs⟩
    have demand : eventDemand oneSocket 8#16 0x3#32 state.pools.descs = 18432 := by
      rw [descs]
      decide
    refine ⟨state, ran, pool, demand, ?_⟩
    intro enough
    have tooMuch := enough _ pool
    rw [demand] at tooMuch
    exact absurd tooMuch (by decide)

/-! ## The set-up of ports and lcores -/

section Refines

variable {τ : Type} {env : PoolEnv τ} {params : List LcoreParams} {mask : BitVec 32}

/-- The environment of the set-up without its memory. -/
def PoolEnv.withoutMem (env : PoolEnv τ) : Eal :=
  { env.eal with initMem := fun _ => true }

theorem pollPort_setup {before after : PollState τ} {portid : BitVec 16}
    (done : pollPort env params mask before portid = some after) :
    setupPort env.withoutMem params mask before.setup portid = some after.setup := by
  rcases pollPort_cases done with ⟨disabled, rfl⟩ |
    ⟨enabled, nbRxQueue, descs, mem, addr, queues, counted, ⟨info, configured⟩, _, isAddr, _, added,
      rfl⟩
  · rw [setupPort, if_pos disabled]
  · have infoGiven : guard (f := Option) (env.withoutMem.rteEthDevInfoGet portid = true) =
        some () := if_pos info
    have deviceConfigured : guard (f := Option) (env.withoutMem.rteEthDevConfigure portid nbRxQueue
        (nTxQueue env.withoutMem) = true) = some () := if_pos configured
    have memory : guard (f := Option) (env.withoutMem.initMem portid = true) = some () := if_pos rfl
    rw [setupPort, if_neg (by rw [enabled]; exact Bool.noConfusion)]
    apply Option.bind_eq_some_iff.mpr ⟨nbRxQueue, counted, ?_⟩
    apply Option.bind_eq_some_iff.mpr ⟨(), infoGiven, ?_⟩
    apply Option.bind_eq_some_iff.mpr ⟨(), deviceConfigured, ?_⟩
    apply Option.bind_eq_some_iff.mpr ⟨addr, isAddr, ?_⟩
    apply Option.bind_eq_some_iff.mpr ⟨(), memory, ?_⟩
    exact Option.bind_eq_some_iff.mpr ⟨queues, added, rfl⟩

/-- A set-up with memory is one of ports and lcores. -/
theorem pollResourceSetup_setup {addrs : EthAddrs} {start : Descriptors} {state : PollState τ}
    (ran : pollResourceSetup env params mask addrs start = some state) :
    l3fwdPollResourceSetup env.withoutMem params mask addrs = some state.setup := by
  rw [pollResourceSetup] at ran
  rcases Option.bind_eq_some_iff.mp ran with ⟨_, lcoresChecked, ran⟩
  rcases Option.bind_eq_some_iff.mp ran with ⟨lcoreConf, listed, ran⟩
  rcases Option.bind_eq_some_iff.mp ran with ⟨_, portsChecked, ran⟩
  rcases Option.bind_eq_some_iff.mp ran with ⟨last, ports, ran⟩
  rcases Option.bind_eq_some_iff.mp ran with ⟨_, queuesSetUp, ran⟩
  cases ran
  have setUp : ∀ (devices : List (BitVec 16)) (before after : PollState τ),
      devices.foldlM (pollPort env params mask) before = some after →
      devices.foldlM (setupPort env.withoutMem params mask) before.setup = some after.setup := by
    intro devices
    induction devices with
    | nil =>
        intro before after done
        cases done
        rfl
    | cons portid devices induction =>
        intro before after done
        rw [List.foldlM_cons] at done ⊢
        rcases Option.bind_eq_some_iff.mp done with ⟨middle, stepped, done⟩
        apply Option.bind_eq_some_iff.mpr
        exact ⟨middle.setup, pollPort_setup stepped, induction middle after done⟩
  rw [l3fwdPollResourceSetup]
  apply Option.bind_eq_some_iff.mpr ⟨(), lcoresChecked, ?_⟩
  apply Option.bind_eq_some_iff.mpr ⟨lcoreConf, listed, ?_⟩
  apply Option.bind_eq_some_iff.mpr ⟨(), portsChecked, ?_⟩
  apply Option.bind_eq_some_iff.mpr ⟨state.setup, setUp _ _ _ ports, ?_⟩
  exact Option.bind_eq_some_iff.mpr ⟨(), queuesSetUp, rfl⟩

end Refines

end PacketForwarding.L3fwd
