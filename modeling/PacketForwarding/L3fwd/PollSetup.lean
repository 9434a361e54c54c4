import PacketForwarding.L3fwd.Lcore

/-! # Setting up ports and lcores

Every lcore gets the RX queues that the configuration lists for it, and one TX queue on
every port. `rte_exit` ends the program and is `none`.
-/

namespace PacketForwarding.L3fwd

open Lanes

def maxRxQueuePerPort : Nat := 128

def maxRxQueuePerLcore : Nat := 16

def maxTxQueuePerPort : Nat := rteMaxLcore

/-- One `(port,queue,lcore)` of the configuration. -/
structure LcoreParams where
  portId : BitVec 16
  queueId : BitVec 16
  lcoreId : BitVec 32

/-- What the environment has, and for each call that may end the program whether it
succeeds. `rteEthDevConfigure` stands for all calls that only concern the device. -/
structure Eal where
  rteLcoreIsEnabled : Nat → Bool
  rteEthForeachDev : List (BitVec 16)
  rteEthDevInfoGet : BitVec 16 → Bool
  rteEthDevConfigure : BitVec 16 → BitVec 16 → Nat → Bool
  rteEthMacaddrGet : BitVec 16 → Option (BitVec 48)
  initMem : BitVec 16 → Bool
  rteEthTxQueueSetup : BitVec 16 → BitVec 16 → Bool
  rteEthRxQueueSetup : BitVec 16 → BitVec 16 → Bool
  lcores : ∀ lcore, rteLcoreIsEnabled lcore = true → lcore < rteMaxLcore
  devices : ∀ port ∈ rteEthForeachDev, port.toNat < rteMaxEthports
  nodup : rteEthForeachDev.Nodup
  present : ∀ port, rteEthDevInfoGet port = true → port ∈ rteEthForeachDev

def rteEthDevIsValidPort (eal : Eal) (portid : BitVec 16) : Bool :=
  decide (portid ∈ eal.rteEthForeachDev)

/-- The enabled lcores, in the order in which the loops meet them. -/
def enabledLcores (eal : Eal) : List Nat :=
  (List.range rteMaxLcore).filter eal.rteLcoreIsEnabled

def rteLcoreCount (eal : Eal) : Nat :=
  (enabledLcores eal).length

/-- The ports that are set up, in order. -/
def enabledPorts (eal : Eal) (mask : BitVec 32) : List (BitVec 16) :=
  eal.rteEthForeachDev.filter fun portid => portInMask mask portid.toNat

/-! ## RX queues -/

def checkLcoreParams (eal : Eal) (params : List LcoreParams) : Bool :=
  params.all fun param =>
    decide (param.queueId.toNat < maxRxQueuePerPort) && eal.rteLcoreIsEnabled param.lcoreId.toNat

def checkPortConfig (eal : Eal) (mask : BitVec 32) (params : List LcoreParams) : Bool :=
  params.all fun param =>
    portInMask mask param.portId.toNat && rteEthDevIsValidPort eal param.portId

/-- The queue ids of a port must be in sequence. -/
def nextRxQueue (port : BitVec 16) (queue : Int) (param : LcoreParams) : Option Int :=
  if param.portId = port then
    if (param.queueId.toNat : Int) = queue + 1 then some param.queueId.toNat else none
  else
    some queue

def getPortNRxQueues (params : List LcoreParams) (port : BitVec 16) : Option (BitVec 16) :=
  (params.foldlM (nextRxQueue port) (-1)).map fun queue => BitVec.ofInt 16 (queue + 1)

def LcoreParams.rxQueue (param : LcoreParams) : LcoreRxQueue :=
  ⟨param.portId, param.queueId⟩

def addRxQueue (lcoreConf : Nat → LcoreConf) (param : LcoreParams) : Option (Nat → LcoreConf) :=
  let lcore := param.lcoreId.toNat
  let qconf := lcoreConf lcore
  if maxRxQueuePerLcore ≤ qconf.rxQueueList.length then
    none
  else
    some (Function.update lcoreConf lcore
      { qconf with rxQueueList := qconf.rxQueueList ++ [param.rxQueue] })

def initLcoreRxQueues (params : List LcoreParams) (lcoreConf : Nat → LcoreConf) :
    Option (Nat → LcoreConf) :=
  params.foldlM addRxQueue lcoreConf

/-! ## Addresses -/

/-- The addresses the program keeps for every port. -/
structure EthAddrs where
  destEthAddr : Nat → BitVec 64
  portsEthAddr : Nat → BitVec 48
  valEth : Nat → Register

/-- `*(uint64_t *)(val_eth + portid) = addr` -/
def storeDest (register : Register) (addr : BitVec 64) : Register :=
  ofLanes 8 16 fun i => if i < 8 then lane 8 addr i else lane 8 register i

/-- Copy a MAC address to the second six bytes. -/
def storeSrc (register : Register) (addr : BitVec 48) : Register :=
  ofLanes 8 16 fun i => if 6 ≤ i ∧ i < 12 then lane 8 addr (i - 6) else lane 8 register i

def EthAddrs.setPort (addrs : EthAddrs) (portid : Nat) (addr : BitVec 48) : EthAddrs :=
  { addrs with
    portsEthAddr := Function.update addrs.portsEthAddr portid addr
    valEth := Function.update addrs.valEth portid (storeSrc (addrs.valEth portid) addr) }

/-! ## TX queues -/

structure SetupState where
  addrs : EthAddrs
  lcoreConf : Nat → LcoreConf

def LcoreConf.addTxQueue (qconf : LcoreConf) (portid queueid : BitVec 16) : LcoreConf :=
  { qconf with
    txQueueId := Function.update qconf.txQueueId portid queueid
    txPortId := qconf.txPortId ++ [portid] }

/-- The next TX queue of a port, if the lcore is enabled. -/
def setupTxQueue (eal : Eal) (portid : BitVec 16) (queues : BitVec 16 × (Nat → LcoreConf))
    (lcoreId : Nat) : Option (BitVec 16 × (Nat → LcoreConf)) :=
  if eal.rteLcoreIsEnabled lcoreId = false then
    some queues
  else if eal.rteEthTxQueueSetup portid queues.1 = false then
    none
  else
    let qconf := (queues.2 lcoreId).addTxQueue portid queues.1
    some (queues.1 + 1, Function.update queues.2 lcoreId qconf)

/-- Init one TX queue per couple (lcore,port). -/
def setupTxQueues (eal : Eal) (portid : BitVec 16) (lcoreConf : Nat → LcoreConf) :
    Option (BitVec 16 × (Nat → LcoreConf)) :=
  (List.range rteMaxLcore).foldlM (setupTxQueue eal portid) (0#16, lcoreConf)

def nTxQueue (eal : Eal) : Nat :=
  min (rteLcoreCount eal) maxTxQueuePerPort

def setupPort (eal : Eal) (params : List LcoreParams) (mask : BitVec 32) (state : SetupState)
    (portid : BitVec 16) : Option SetupState :=
  -- skip ports that are not enabled
  if portInMask mask portid.toNat = false then
    some state
  else do
    let nbRxQueue ← getPortNRxQueues params portid
    guard (eal.rteEthDevInfoGet portid)
    guard (eal.rteEthDevConfigure portid nbRxQueue (nTxQueue eal))
    let addr ← eal.rteEthMacaddrGet portid
    guard (eal.initMem portid)
    let queues ← setupTxQueues eal portid state.lcoreConf
    return { addrs := state.addrs.setPort portid.toNat addr, lcoreConf := queues.2 }

/-- An RX queue of an lcore. -/
def setupRxQueue (eal : Eal) (queue : LcoreRxQueue) : Bool :=
  eal.rteEthDevInfoGet queue.portId && eal.rteEthRxQueueSetup queue.portId queue.queueId

/-- The set-up runs once, before any lcore has queues. -/
def l3fwdPollResourceSetup (eal : Eal) (params : List LcoreParams) (mask : BitVec 32)
    (addrs : EthAddrs) : Option SetupState := do
  guard (checkLcoreParams eal params)
  let lcoreConf ← initLcoreRxQueues params fun _ => default
  guard (checkPortConfig eal mask params)
  let state ← eal.rteEthForeachDev.foldlM (setupPort eal params mask) ⟨addrs, lcoreConf⟩
  guard ((enabledLcores eal).all fun lcore =>
    (state.lcoreConf lcore).rxQueueList.all (setupRxQueue eal))
  return state

/-! ## Which queues a port has -/

/-- The queue ids of a port, in the order of the configuration. -/
def queueIds (params : List LcoreParams) (port : BitVec 16) : List Nat :=
  (params.filter fun param => param.portId = port).map fun param => param.queueId.toNat

theorem queueIds_cons_self {param : LcoreParams} {port : BitVec 16} (params : List LcoreParams)
    (same : param.portId = port) :
    queueIds (param :: params) port = param.queueId.toNat :: queueIds params port := by
  simp [queueIds, same]

theorem queueIds_cons_of_ne {param : LcoreParams} {port : BitVec 16} (params : List LcoreParams)
    (different : param.portId ≠ port) :
    queueIds (param :: params) port = queueIds params port := by
  simp [queueIds, different]

/-- If the loop ends, it has seen the queues from `next` on in sequence. -/
theorem nextRxQueue_range (port : BitVec 16) :
    ∀ (params : List LcoreParams) (next : Nat) (last : Int),
      params.foldlM (nextRxQueue port) ((next : Int) - 1) = some last →
      ∃ count : Nat, last = ((next + count : Nat) : Int) - 1 ∧
        queueIds params port = List.range' next count := by
  intro params
  induction params with
  | nil =>
      intro next last ended
      cases ended
      exact ⟨0, rfl, rfl⟩
  | cons param params induction =>
      intro next last ended
      rw [List.foldlM_cons] at ended
      rcases Option.bind_eq_some_iff.mp ended with ⟨queue, stepped, rest⟩
      by_cases same : param.portId = port
      · rw [nextRxQueue, if_pos same] at stepped
        by_cases inSequence : (param.queueId.toNat : Int) = (next : Int) - 1 + 1
        · rw [if_pos inSequence] at stepped
          cases stepped
          have isNext : param.queueId.toNat = next := by omega
          have current : (param.queueId.toNat : Int) = ((next + 1 : Nat) : Int) - 1 := by omega
          rw [current] at rest
          rcases induction (next + 1) last rest with ⟨count, isLast, ids⟩
          refine ⟨count + 1, ?_, ?_⟩
          · omega
          · rw [queueIds_cons_self params same, ids, isNext, List.range'_succ]
        · rw [if_neg inSequence] at stepped
          cases stepped
      · rw [nextRxQueue, if_neg same] at stepped
        cases stepped
        rcases induction next last rest with ⟨count, isLast, ids⟩
        exact ⟨count, isLast, (queueIds_cons_of_ne params same).trans ids⟩

theorem checkLcoreParams_mem {eal : Eal} {params : List LcoreParams}
    (checked : checkLcoreParams eal params = true) {param : LcoreParams} (member : param ∈ params) :
    param.queueId.toNat < maxRxQueuePerPort ∧
      eal.rteLcoreIsEnabled param.lcoreId.toNat = true := by
  have passed := List.all_eq_true.mp checked param member
  rw [Bool.and_eq_true] at passed
  exact ⟨of_decide_eq_true passed.1, passed.2⟩

/-- The queues of a port are those below the number that is counted. -/
theorem getPortNRxQueues_spec {eal : Eal} {params : List LcoreParams} {port : BitVec 16}
    {nbRxQueue : BitVec 16} (checked : checkLcoreParams eal params = true)
    (counted : getPortNRxQueues params port = some nbRxQueue) :
    queueIds params port = List.range nbRxQueue.toNat := by
  rcases Option.map_eq_some_iff.mp counted with ⟨last, ended, isCount⟩
  rcases nextRxQueue_range port params 0 last ended with ⟨count, isLast, ids⟩
  rw [← List.range_eq_range'] at ids
  -- the check of the queue ids keeps the number within sixteen bits
  have small : count ≤ maxRxQueuePerPort := by
    by_contra large
    have member : maxRxQueuePerPort ∈ queueIds params port := by
      rw [ids]
      exact List.mem_range.mpr (Nat.lt_of_not_le large)
    rcases List.mem_map.mp member with ⟨param, ofPort, isQueue⟩
    have below := (checkLcoreParams_mem checked (List.mem_filter.mp ofPort).1).1
    omega
  have isNumber : nbRxQueue.toNat = count := by
    have whole : last + 1 = (count : Int) := by omega
    rw [← isCount, whole, BitVec.ofInt_natCast, BitVec.toNat_ofNat]
    simp only [maxRxQueuePerPort] at small
    omega
  rw [ids, isNumber]

/-! ## Which queues an lcore polls -/

/-- The RX queues that the configuration lists for an lcore. -/
def listedRxQueues (params : List LcoreParams) (lcore : Nat) : List LcoreRxQueue :=
  (params.filter fun param => param.lcoreId.toNat = lcore).map LcoreParams.rxQueue

/-- An lcore after its queues have been listed. -/
structure RxQueuesListed (params : List LcoreParams) (before after : LcoreConf) (lcore : Nat) :
    Prop where
  listed : after = { before with
    rxQueueList := before.rxQueueList ++ listedRxQueues params lcore }
  within : before.rxQueueList.length ≤ maxRxQueuePerLcore →
    after.rxQueueList.length ≤ maxRxQueuePerLcore

theorem addRxQueue_spec {lcoreConf lcoreConf' : Nat → LcoreConf} {param : LcoreParams}
    (added : addRxQueue lcoreConf param = some lcoreConf') (lcore : Nat) :
    RxQueuesListed [param] (lcoreConf lcore) (lcoreConf' lcore) lcore := by
  unfold addRxQueue at added
  dsimp only at added
  split at added
  · cases added
  · rename_i room
    cases added
    by_cases same : param.lcoreId.toNat = lcore
    · have listed : listedRxQueues [param] lcore = [param.rxQueue] := by
        simp [listedRxQueues, same]
      constructor
      · rw [listed, same, Function.update_self]
      · intro _
        rw [same, Function.update_self]
        rw [same] at room
        simp only [List.length_append, List.length_singleton]
        omega
    · have listed : listedRxQueues [param] lcore = [] := by
        simp [listedRxQueues, same]
      have other : lcore ≠ param.lcoreId.toNat := fun equal => same equal.symm
      constructor
      · rw [listed, Function.update_of_ne other, List.append_nil]
      · rw [Function.update_of_ne other]
        exact id

theorem initLcoreRxQueues_spec :
    ∀ (params : List LcoreParams) (lcoreConf lcoreConf' : Nat → LcoreConf),
      initLcoreRxQueues params lcoreConf = some lcoreConf' →
      ∀ lcore, RxQueuesListed params (lcoreConf lcore) (lcoreConf' lcore) lcore := by
  intro params
  induction params with
  | nil =>
      intro lcoreConf lcoreConf' ended lcore
      cases ended
      refine ⟨?_, id⟩
      simp [listedRxQueues]
  | cons param params induction =>
      intro lcoreConf lcoreConf' ended lcore
      unfold initLcoreRxQueues at ended
      rw [List.foldlM_cons] at ended
      rcases Option.bind_eq_some_iff.mp ended with ⟨middle, added, rest⟩
      have first := addRxQueue_spec added lcore
      have others := induction middle lcoreConf' rest lcore
      constructor
      · have split : listedRxQueues (param :: params) lcore =
            listedRxQueues [param] lcore ++ listedRxQueues params lcore := by
          simp only [listedRxQueues, ← List.map_append, ← List.filter_append,
            List.singleton_append]
        rw [others.listed, first.listed, split]
        simp only [List.append_assoc]
      · exact fun within => others.within (first.within within)

theorem rxQueueList_eq {params : List LcoreParams} {lcoreConf : Nat → LcoreConf}
    (listed : initLcoreRxQueues params (fun _ => default) = some lcoreConf) (lcore : Nat) :
    (lcoreConf lcore).rxQueueList = listedRxQueues params lcore := by
  rw [(initLcoreRxQueues_spec params _ _ listed lcore).listed]
  rfl

theorem mem_rxQueueList {params : List LcoreParams} {lcoreConf : Nat → LcoreConf}
    (listed : initLcoreRxQueues params (fun _ => default) = some lcoreConf) {lcore : Nat}
    {queue : LcoreRxQueue} :
    queue ∈ (lcoreConf lcore).rxQueueList ↔
      ∃ param ∈ params, param.lcoreId.toNat = lcore ∧ param.rxQueue = queue := by
  rw [rxQueueList_eq listed, listedRxQueues, List.mem_map]
  simp only [List.mem_filter, decide_eq_true_eq, and_assoc]

/-! ## No queue is polled twice -/

theorem mem_enabledPorts {eal : Eal} {mask : BitVec 32} {port : BitVec 16} :
    port ∈ enabledPorts eal mask ↔
      port ∈ eal.rteEthForeachDev ∧ portInMask mask port.toNat = true := by
  rw [enabledPorts, List.mem_filter]

theorem checkPortConfig_mem {eal : Eal} {mask : BitVec 32} {params : List LcoreParams}
    (checked : checkPortConfig eal mask params = true) {param : LcoreParams}
    (member : param ∈ params) : param.portId ∈ enabledPorts eal mask := by
  have passed := List.all_eq_true.mp checked param member
  rw [Bool.and_eq_true] at passed
  exact mem_enabledPorts.mpr ⟨of_decide_eq_true passed.2, passed.1⟩

/-- How often a queue is listed in all is how often its id is listed for its port. -/
theorem count_rxQueue (params : List LcoreParams) (queue : LcoreRxQueue) :
    (params.map LcoreParams.rxQueue).count queue =
      (queueIds params queue.portId).count queue.queueId.toNat := by
  induction params with
  | nil => rfl
  | cons param params induction =>
      rw [List.map_cons, List.count_cons, induction]
      by_cases samePort : param.portId = queue.portId
      · rw [queueIds_cons_self params samePort, List.count_cons]
        have sameQueue : param.rxQueue = queue ↔
            param.queueId.toNat = queue.queueId.toNat := by
          constructor
          · rintro rfl
            rfl
          · intro sameId
            cases queue
            cases param
            simp only at samePort sameId
            rw [LcoreParams.rxQueue, samePort, BitVec.eq_of_toNat_eq sameId]
        simp only [beq_iff_eq, sameQueue]
      · have other : param.rxQueue ≠ queue := by
          rintro rfl
          exact samePort rfl
        rw [queueIds_cons_of_ne params samePort, if_neg (by simpa using other), Nat.add_zero]

/-- All queues of a configuration, and no lcore polls one of another. -/
structure RxQueuesAssigned (eal : Eal) (mask : BitVec 32) (params : List LcoreParams)
    (lcoreConf : Nat → LcoreConf) : Prop where
  polled : ∀ port ∈ enabledPorts eal mask, ∀ nbRxQueue,
    getPortNRxQueues params port = some nbRxQueue → ∀ queue, queue < nbRxQueue →
      ∃ lcore ∈ enabledLcores eal, (lcoreConf lcore).rxQueueList.count ⟨port, queue⟩ = 1 ∧
        ∀ other, other ≠ lcore → ⟨port, queue⟩ ∉ (lcoreConf other).rxQueueList
  only : ∀ lcore, ∀ queue ∈ (lcoreConf lcore).rxQueueList,
    queue.portId ∈ enabledPorts eal mask ∧
      ∃ nbRxQueue, getPortNRxQueues params queue.portId = some nbRxQueue ∧
        queue.queueId < nbRxQueue
  within : ∀ lcore, (lcoreConf lcore).rxQueueList.length ≤ maxRxQueuePerLcore

/-- Where the queues of each port are counted up from zero, no queue is listed twice. -/
theorem nodup_rxQueues {params : List LcoreParams}
    (ranges : ∀ param ∈ params, ∃ count, queueIds params param.portId = List.range count) :
    (params.map LcoreParams.rxQueue).Nodup := by
  apply List.nodup_iff_count_le_one.mpr
  intro queue
  by_cases member : queue ∈ params.map LcoreParams.rxQueue
  · rcases List.mem_map.mp member with ⟨param, isParam, rfl⟩
    rcases ranges param isParam with ⟨count, range⟩
    rw [count_rxQueue]
    change (queueIds params param.portId).count _ ≤ 1
    rw [range]
    exact List.nodup_iff_count_le_one.mp List.nodup_range _
  · rw [List.count_eq_zero_of_not_mem member]
    exact Nat.zero_le 1

/-- The sequence rule alone makes every queue occur once: it is checked for each port, and
the lcores share the list. -/
theorem rxQueues_assigned {eal : Eal} {mask : BitVec 32} {params : List LcoreParams}
    {lcoreConf : Nat → LcoreConf} (checkedLcores : checkLcoreParams eal params = true)
    (listed : initLcoreRxQueues params (fun _ => default) = some lcoreConf)
    (checkedPorts : checkPortConfig eal mask params = true)
    (counted : ∀ port ∈ enabledPorts eal mask, (getPortNRxQueues params port).isSome) :
    RxQueuesAssigned eal mask params lcoreConf := by
  have ids : ∀ param ∈ params, ∃ nbRxQueue, getPortNRxQueues params param.portId = some nbRxQueue ∧
      queueIds params param.portId = List.range nbRxQueue.toNat := by
    intro param member
    have enabled := checkPortConfig_mem checkedPorts member
    rcases Option.isSome_iff_exists.mp (counted _ enabled) with ⟨nbRxQueue, isNumber⟩
    exact ⟨nbRxQueue, isNumber, getPortNRxQueues_spec checkedLcores isNumber⟩
  have nodup := nodup_rxQueues fun param member =>
    have ⟨_, _, range⟩ := ids param member
    ⟨_, range⟩
  constructor
  · intro port enabled nbRxQueue isNumber queue below
    have range := getPortNRxQueues_spec checkedLcores isNumber
    have isId : queue.toNat ∈ queueIds params port := by
      rw [range]
      exact List.mem_range.mpr below
    rcases List.mem_map.mp isId with ⟨param, ofPort, sameId⟩
    rcases List.mem_filter.mp ofPort with ⟨member, samePort⟩
    have isQueue : param.rxQueue = ⟨port, queue⟩ := by
      rw [LcoreParams.rxQueue, of_decide_eq_true samePort, BitVec.eq_of_toNat_eq sameId]
    have runs := (checkLcoreParams_mem checkedLcores member).2
    refine ⟨param.lcoreId.toNat, ?_, ?_, ?_⟩
    · exact List.mem_filter.mpr ⟨List.mem_range.mpr (eal.lcores _ runs), runs⟩
    · apply List.count_eq_one_of_mem
      · rw [rxQueueList_eq listed]
        exact nodup.sublist (List.Sublist.map _ List.filter_sublist)
      · exact (mem_rxQueueList listed).mpr ⟨param, member, rfl, isQueue⟩
    · intro other different polled
      rcases (mem_rxQueueList listed).mp polled with ⟨param', member', isOther, isQueue'⟩
      have same := List.inj_on_of_nodup_map nodup member' member (isQueue'.trans isQueue.symm)
      rw [same] at isOther
      exact different isOther.symm
  · intro lcore queue polled
    rcases (mem_rxQueueList listed).mp polled with ⟨param, member, _, rfl⟩
    rcases ids param member with ⟨nbRxQueue, isNumber, range⟩
    refine ⟨checkPortConfig_mem checkedPorts member, nbRxQueue, isNumber, ?_⟩
    have isId : param.queueId.toNat ∈ queueIds params param.portId :=
      List.mem_map.mpr ⟨param, List.mem_filter.mpr ⟨member, decide_eq_true rfl⟩, rfl⟩
    rw [range] at isId
    exact List.mem_range.mp isId
  · intro lcore
    exact (initLcoreRxQueues_spec params _ _ listed lcore).within (Nat.zero_le _)

/-! ## The TX queues of a port -/

/-- How many enabled lcores come before an lcore. -/
def txRank (eal : Eal) (lcore : Nat) : Nat :=
  Nat.count (fun other => eal.rteLcoreIsEnabled other = true) lcore

theorem txRank_rteMaxLcore (eal : Eal) : txRank eal rteMaxLcore = rteLcoreCount eal := by
  rw [rteLcoreCount, enabledLcores, ← List.countP_eq_length_filter, txRank, Nat.count]
  apply List.countP_congr
  intro lcore _
  rw [decide_eq_true_eq]

/-- An enabled lcore has a rank that no other enabled lcore has. -/
theorem txRank_injective {eal : Eal} {lcore other : Nat}
    (enabled : eal.rteLcoreIsEnabled lcore = true) (enabled' : eal.rteLcoreIsEnabled other = true)
    (same : txRank eal lcore = txRank eal other) : lcore = other :=
  Nat.count_injective enabled enabled' same

theorem txRank_lt {eal : Eal} {lcore : Nat} (enabled : eal.rteLcoreIsEnabled lcore = true) :
    txRank eal lcore < rteLcoreCount eal := by
  rw [← txRank_rteMaxLcore]
  exact Nat.count_strict_mono enabled (eal.lcores lcore enabled)

theorem exists_txRank (eal : Eal) {rank : Nat} :
    ∀ bound, rank < txRank eal bound →
      ∃ lcore, eal.rteLcoreIsEnabled lcore = true ∧ txRank eal lcore = rank := by
  intro bound
  induction bound with
  | zero => exact fun impossible => absurd impossible (Nat.not_lt_zero _)
  | succ bound induction =>
      intro below
      rw [txRank, Nat.count_succ] at below
      by_cases enabled : eal.rteLcoreIsEnabled bound = true
      · rw [if_pos enabled] at below
        rcases Nat.lt_succ_iff_lt_or_eq.mp below with earlier | last
        · exact induction earlier
        · exact ⟨bound, enabled, last.symm⟩
      · rw [if_neg enabled, Nat.add_zero] at below
        exact induction below

theorem rteLcoreCount_le (eal : Eal) : rteLcoreCount eal ≤ rteMaxLcore := by
  have all := List.length_filter_le eal.rteLcoreIsEnabled (List.range rteMaxLcore)
  rwa [List.length_range] at all

/-- No port has fewer queues than there are lcores. -/
theorem nTxQueue_eq (eal : Eal) : nTxQueue eal = rteLcoreCount eal :=
  Nat.min_eq_left (rteLcoreCount_le eal)

theorem setupTxQueue_cases {eal : Eal} {portid : BitVec 16}
    {queues queues' : BitVec 16 × (Nat → LcoreConf)} {lcoreId : Nat}
    (stepped : setupTxQueue eal portid queues lcoreId = some queues') :
    (eal.rteLcoreIsEnabled lcoreId = false ∧ queues' = queues) ∨
      (eal.rteLcoreIsEnabled lcoreId = true ∧ queues'.1 = queues.1 + 1#16 ∧
        queues'.2 = Function.update queues.2 lcoreId
          ((queues.2 lcoreId).addTxQueue portid queues.1)) := by
  unfold setupTxQueue at stepped
  by_cases disabled : eal.rteLcoreIsEnabled lcoreId = false
  · rw [if_pos disabled] at stepped
    cases stepped
    exact Or.inl ⟨disabled, rfl⟩
  · rw [if_neg disabled] at stepped
    split at stepped
    · cases stepped
    · cases stepped
      exact Or.inr ⟨by simpa using disabled, rfl, rfl⟩

/-- What the first `count` lcores got. -/
theorem setupTxQueue_fold (eal : Eal) (portid : BitVec 16) (lcoreConf : Nat → LcoreConf) :
    ∀ count queues,
      (List.range count).foldlM (setupTxQueue eal portid) (0#16, lcoreConf) = some queues →
      queues.1 = BitVec.ofNat 16 (txRank eal count) ∧
      ∀ lcore, queues.2 lcore =
        if lcore < count ∧ eal.rteLcoreIsEnabled lcore = true then
          (lcoreConf lcore).addTxQueue portid (BitVec.ofNat 16 (txRank eal lcore))
        else lcoreConf lcore := by
  intro count
  induction count with
  | zero =>
      intro queues ended
      cases ended
      refine ⟨rfl, fun lcore => ?_⟩
      rw [if_neg fun both => Nat.not_lt_zero _ both.1]
  | succ count induction =>
      intro queues ended
      rw [List.range_succ, List.foldlM_append] at ended
      rcases Option.bind_eq_some_iff.mp ended with ⟨middle, before, last⟩
      rcases induction middle before with ⟨rank, confs⟩
      rw [List.foldlM_cons] at last
      rcases Option.bind_eq_some_iff.mp last with ⟨queues', stepped, same⟩
      cases same
      rcases setupTxQueue_cases stepped with ⟨disabled, rfl⟩ | ⟨enabled, next, updated⟩
      · have notEnabled : ¬ eal.rteLcoreIsEnabled count = true := by simp [disabled]
        constructor
        · rw [rank, txRank, txRank, Nat.count_succ, if_neg notEnabled, Nat.add_zero]
        · intro lcore
          rw [confs lcore]
          apply if_congr _ rfl rfl
          constructor
          · exact fun both => ⟨Nat.lt_succ_of_lt both.1, both.2⟩
          · rintro ⟨within, runs⟩
            have notLast : lcore ≠ count := by
              rintro rfl
              exact notEnabled runs
            exact ⟨by omega, runs⟩
      · constructor
        · rw [next, rank, txRank, txRank, Nat.count_succ, if_pos enabled, BitVec.ofNat_add]
        · intro lcore
          rw [updated]
          by_cases isLast : lcore = count
          · rw [isLast, Function.update_self, confs count, rank,
              if_neg fun both => Nat.lt_irrefl _ both.1,
              if_pos ⟨Nat.lt_succ_self count, enabled⟩]
          · rw [Function.update_of_ne isLast, confs lcore]
            exact if_congr (and_congr_left' (by omega)) rfl rfl

/-- Every enabled lcore gets the queue of its rank. -/
theorem setupTxQueues_spec {eal : Eal} {portid : BitVec 16} {lcoreConf : Nat → LcoreConf}
    {queues : BitVec 16 × (Nat → LcoreConf)}
    (setUp : setupTxQueues eal portid lcoreConf = some queues) (lcore : Nat) :
    queues.2 lcore =
      if eal.rteLcoreIsEnabled lcore = true then
        (lcoreConf lcore).addTxQueue portid (BitVec.ofNat 16 (txRank eal lcore))
      else lcoreConf lcore := by
  rw [(setupTxQueue_fold eal portid lcoreConf rteMaxLcore queues setUp).2 lcore]
  exact if_congr (and_iff_right_of_imp (eal.lcores lcore)) rfl rfl

/-! ## All ports -/

/-- What the set-up of a port can do. -/
theorem setupPort_cases {eal : Eal} {params : List LcoreParams} {mask : BitVec 32}
    {state state' : SetupState} {portid : BitVec 16}
    (setUp : setupPort eal params mask state portid = some state') :
    (portInMask mask portid.toNat = false ∧ state' = state) ∨
      (portInMask mask portid.toNat = true ∧ ∃ nbRxQueue addr queues,
        getPortNRxQueues params portid = some nbRxQueue ∧
        eal.rteEthMacaddrGet portid = some addr ∧
        setupTxQueues eal portid state.lcoreConf = some queues ∧
        state' = ⟨state.addrs.setPort portid.toNat addr, queues.2⟩) := by
  unfold setupPort at setUp
  by_cases enabled : portInMask mask portid.toNat = false
  · rw [if_pos enabled] at setUp
    cases setUp
    exact Or.inl ⟨enabled, rfl⟩
  · rw [if_neg enabled] at setUp
    rcases Option.bind_eq_some_iff.mp setUp with ⟨nbRxQueue, counted, setUp⟩
    rcases Option.bind_eq_some_iff.mp setUp with ⟨_, _, setUp⟩
    rcases Option.bind_eq_some_iff.mp setUp with ⟨_, _, setUp⟩
    rcases Option.bind_eq_some_iff.mp setUp with ⟨addr, isAddr, setUp⟩
    rcases Option.bind_eq_some_iff.mp setUp with ⟨_, _, setUp⟩
    rcases Option.bind_eq_some_iff.mp setUp with ⟨queues, added, setUp⟩
    cases setUp
    exact Or.inr ⟨by simpa using enabled, nbRxQueue, addr, queues, counted, isAddr, added, rfl⟩

/-- The lcores after the given ports have been set up. -/
structure PortsSetUp (eal : Eal) (ports : List (BitVec 16)) (before after : Nat → LcoreConf) :
    Prop where
  rxQueueList : ∀ lcore, (after lcore).rxQueueList = (before lcore).rxQueueList
  txMbufs : ∀ lcore, (after lcore).txMbufs = (before lcore).txMbufs
  txPortId : ∀ lcore, (after lcore).txPortId =
    if eal.rteLcoreIsEnabled lcore = true then (before lcore).txPortId ++ ports
    else (before lcore).txPortId
  txQueueId : ∀ lcore, eal.rteLcoreIsEnabled lcore = true → ∀ port,
    (after lcore).txQueueId port =
      if port ∈ ports then BitVec.ofNat 16 (txRank eal lcore) else (before lcore).txQueueId port

namespace PortsSetUp

theorem nil (eal : Eal) (lcoreConf : Nat → LcoreConf) : PortsSetUp eal [] lcoreConf lcoreConf where
  rxQueueList := fun _ => rfl
  txMbufs := fun _ => rfl
  txPortId := by
    intro lcore
    rw [List.append_nil, ite_self]
  txQueueId := fun _ _ _ => (if_neg List.not_mem_nil).symm

theorem one {eal : Eal} {portid : BitVec 16} {lcoreConf : Nat → LcoreConf}
    {queues : BitVec 16 × (Nat → LcoreConf)}
    (setUp : setupTxQueues eal portid lcoreConf = some queues) :
    PortsSetUp eal [portid] lcoreConf queues.2 where
  rxQueueList := by
    intro lcore
    rw [setupTxQueues_spec setUp lcore]
    split <;> rfl
  txMbufs := by
    intro lcore
    rw [setupTxQueues_spec setUp lcore]
    split <;> rfl
  txPortId := by
    intro lcore
    rw [setupTxQueues_spec setUp lcore]
    split <;> rfl
  txQueueId := by
    intro lcore enabled port
    rw [setupTxQueues_spec setUp lcore, if_pos enabled, LcoreConf.addTxQueue]
    simp only [List.mem_singleton, Function.update_apply]

theorem trans {eal : Eal} {ports more : List (BitVec 16)} {start middle last : Nat → LcoreConf}
    (before : PortsSetUp eal ports start middle) (after : PortsSetUp eal more middle last) :
    PortsSetUp eal (ports ++ more) start last where
  rxQueueList := fun lcore => (after.rxQueueList lcore).trans (before.rxQueueList lcore)
  txMbufs := fun lcore => (after.txMbufs lcore).trans (before.txMbufs lcore)
  txPortId := by
    intro lcore
    rw [after.txPortId, before.txPortId]
    by_cases enabled : eal.rteLcoreIsEnabled lcore = true
    · rw [if_pos enabled, if_pos enabled, if_pos enabled, List.append_assoc]
    · rw [if_neg enabled, if_neg enabled, if_neg enabled]
  txQueueId := by
    intro lcore enabled port
    rw [after.txQueueId lcore enabled, before.txQueueId lcore enabled]
    by_cases late : port ∈ more
    · rw [if_pos late, if_pos (List.mem_append_right _ late)]
    · rw [if_neg late]
      exact if_congr (by simp [late]) rfl rfl

end PortsSetUp

theorem setupPorts_spec {eal : Eal} {params : List LcoreParams} {mask : BitVec 32} :
    ∀ (ports : List (BitVec 16)) (state state' : SetupState),
      ports.foldlM (setupPort eal params mask) state = some state' →
      PortsSetUp eal (ports.filter fun portid => portInMask mask portid.toNat)
        state.lcoreConf state'.lcoreConf := by
  intro ports
  induction ports with
  | nil =>
      intro state state' ended
      cases ended
      exact PortsSetUp.nil eal _
  | cons port ports induction =>
      intro state state' ended
      rw [List.foldlM_cons] at ended
      rcases Option.bind_eq_some_iff.mp ended with ⟨middle, stepped, rest⟩
      have others := induction middle state' rest
      rcases setupPort_cases stepped with ⟨disabled, rfl⟩ | ⟨enabled, _, _, _, _, _, added, rfl⟩
      · have skipped : (port :: ports).filter (fun portid => portInMask mask portid.toNat) =
            ports.filter fun portid => portInMask mask portid.toNat :=
          List.filter_cons_of_neg (by simp [disabled])
        rw [skipped]
        exact others
      · have kept : (port :: ports).filter (fun portid => portInMask mask portid.toNat) =
            [port] ++ ports.filter fun portid => portInMask mask portid.toNat :=
          List.filter_cons_of_pos enabled
        rw [kept]
        exact (PortsSetUp.one added).trans others

/-- The parts of a set-up that succeeds. -/
theorem l3fwdPollResourceSetup_cases {eal : Eal} {params : List LcoreParams} {mask : BitVec 32}
    {addrs : EthAddrs} {state : SetupState}
    (setUp : l3fwdPollResourceSetup eal params mask addrs = some state) :
    checkLcoreParams eal params = true ∧ checkPortConfig eal mask params = true ∧
      ∃ lcoreConf, initLcoreRxQueues params (fun _ => default) = some lcoreConf ∧
        eal.rteEthForeachDev.foldlM (setupPort eal params mask) ⟨addrs, lcoreConf⟩ =
          some state := by
  unfold l3fwdPollResourceSetup at setUp
  rcases Option.bind_eq_some_iff.mp setUp with ⟨_, checkedLcores, setUp⟩
  rcases Option.bind_eq_some_iff.mp setUp with ⟨lcoreConf, listed, setUp⟩
  rcases Option.bind_eq_some_iff.mp setUp with ⟨_, checkedPorts, setUp⟩
  rcases Option.bind_eq_some_iff.mp setUp with ⟨state', ports, setUp⟩
  rcases Option.bind_eq_some_iff.mp setUp with ⟨_, _, setUp⟩
  cases setUp
  exact ⟨by simpa [guard] using checkedLcores, by simpa [guard] using checkedPorts, lcoreConf,
    listed, ports⟩

/-- Two ports and two lcores, and no call that fails. -/
def twoPortEal : Eal where
  rteLcoreIsEnabled := fun lcore => decide (lcore = 2 ∨ lcore = 3)
  rteEthForeachDev := [0#16, 1#16]
  rteEthDevInfoGet := fun port => decide (port ∈ [0#16, 1#16])
  rteEthDevConfigure := fun _ _ _ => true
  rteEthMacaddrGet := fun port => some (0x020000000000#48 + port.setWidth 48)
  initMem := fun _ => true
  rteEthTxQueueSetup := fun _ _ => true
  rteEthRxQueueSetup := fun _ _ => true
  lcores := by
    intro lcore enabled
    have either := of_decide_eq_true enabled
    simp only [rteMaxLcore]
    omega
  devices := by simp [rteMaxEthports]
  nodup := by decide
  present := fun _ succeeded => of_decide_eq_true succeeded

/-- Three queues of two ports, on two lcores. -/
def threeQueues : List LcoreParams :=
  [⟨0#16, 0#16, 2#32⟩, ⟨1#16, 0#16, 2#32⟩, ⟨0#16, 1#16, 3#32⟩]

theorem rxQueues_assigned_three :
    ∃ lcoreConf, initLcoreRxQueues threeQueues (fun _ => default) = some lcoreConf ∧
      RxQueuesAssigned twoPortEal 0x3#32 threeQueues lcoreConf := by
  have counted : (enabledPorts twoPortEal 0x3#32).all
      (fun port => (getPortNRxQueues threeQueues port).isSome) = true := by decide
  exact ⟨_, rfl, rxQueues_assigned (by decide) rfl (by decide) (List.all_eq_true.mp counted)⟩

/-- The lcores that the set-up leaves. -/
theorem l3fwdPollResourceSetup_lcores {eal : Eal} {params : List LcoreParams} {mask : BitVec 32}
    {addrs : EthAddrs} {state : SetupState}
    (setUp : l3fwdPollResourceSetup eal params mask addrs = some state) :
    (∀ lcore ∈ enabledLcores eal, (state.lcoreConf lcore).txPortId = enabledPorts eal mask ∧
      ∀ port ∈ enabledPorts eal mask,
        (state.lcoreConf lcore).txQueueId port = BitVec.ofNat 16 (txRank eal lcore)) ∧
    (∀ lcore, lcore ∉ enabledLcores eal → (state.lcoreConf lcore).txPortId = []) ∧
    (∀ lcore, ∀ queue ∈ (state.lcoreConf lcore).rxQueueList,
      lcore ∈ enabledLcores eal ∧ queue.portId ∈ enabledPorts eal mask) ∧
    ∀ lcore port, ((state.lcoreConf lcore).txMbufs port).len = 0 := by
  rcases l3fwdPollResourceSetup_cases setUp with ⟨checkedLcores, checkedPorts, lcoreConf, listed,
    ports⟩
  have added : PortsSetUp eal (enabledPorts eal mask) lcoreConf state.lcoreConf :=
    setupPorts_spec _ _ _ ports
  have noPorts : ∀ lcore, (lcoreConf lcore).txPortId = [] := by
    intro lcore
    rw [(initLcoreRxQueues_spec params _ _ listed lcore).listed]
    rfl
  refine ⟨?_, ?_, ?_, ?_⟩
  · intro lcore member
    have enabled := (List.mem_filter.mp member).2
    refine ⟨?_, ?_⟩
    · rw [added.txPortId, if_pos enabled, noPorts, List.nil_append]
    · intro port isPort
      rw [added.txQueueId lcore enabled, if_pos isPort]
  · intro lcore notMember
    have disabled : ¬ eal.rteLcoreIsEnabled lcore = true := fun enabled =>
      notMember (List.mem_filter.mpr ⟨List.mem_range.mpr (eal.lcores lcore enabled), enabled⟩)
    rw [added.txPortId, if_neg disabled, noPorts]
  · intro lcore queue polled
    rw [added.rxQueueList] at polled
    rcases (mem_rxQueueList listed).mp polled with ⟨param, member, rfl, rfl⟩
    have enabled := (checkLcoreParams_mem checkedLcores member).2
    exact ⟨List.mem_filter.mpr ⟨List.mem_range.mpr (eal.lcores _ enabled), enabled⟩,
      checkPortConfig_mem checkedPorts member⟩
  · intro lcore port
    rw [added.txMbufs, (initLcoreRxQueues_spec params _ _ listed lcore).listed]
    rfl

/-! ## No queue is sent on twice -/

theorem nodup_enabledPorts (eal : Eal) (mask : BitVec 32) : (enabledPorts eal mask).Nodup :=
  eal.nodup.filter _

theorem length_enabledPorts (eal : Eal) (mask : BitVec 32) :
    (enabledPorts eal mask).length ≤ rteMaxEthports := by
  have nodup : ((enabledPorts eal mask).map BitVec.toNat).Nodup :=
    (nodup_enabledPorts eal mask).map fun _ _ => BitVec.eq_of_toNat_eq
  have within : (enabledPorts eal mask).map BitVec.toNat ⊆ List.range rteMaxEthports := by
    intro number member
    rcases List.mem_map.mp member with ⟨port, enabled, rfl⟩
    exact List.mem_range.mpr (eal.devices port (mem_enabledPorts.mp enabled).1)
  have fits := (nodup.subperm within).length_le
  rwa [List.length_map, List.length_range] at fits

/-- Every port has one TX queue for each lcore, and every lcore can send on every port. -/
structure TxQueuesAssigned (eal : Eal) (mask : BitVec 32) (lcoreConf : Nat → LcoreConf) :
    Prop where
  distinct : ∀ port ∈ enabledPorts eal mask, ∀ lcore ∈ enabledLcores eal,
    ∀ other ∈ enabledLcores eal,
      (lcoreConf lcore).txQueueId port = (lcoreConf other).txQueueId port → lcore = other
  all : ∀ port ∈ enabledPorts eal mask, ∀ queue : BitVec 16,
    (∃ lcore ∈ enabledLcores eal, (lcoreConf lcore).txQueueId port = queue) ↔
      queue.toNat < nTxQueue eal
  once : ∀ lcore ∈ enabledLcores eal, ∀ port,
    (lcoreConf lcore).txPortId.count port = if port ∈ enabledPorts eal mask then 1 else 0
  within : ∀ lcore, (lcoreConf lcore).txPortId.length ≤ rteMaxEthports

theorem txQueues_assigned {eal : Eal} {params : List LcoreParams} {mask : BitVec 32}
    {addrs : EthAddrs} {state : SetupState}
    (setUp : l3fwdPollResourceSetup eal params mask addrs = some state) :
    TxQueuesAssigned eal mask state.lcoreConf := by
  rcases l3fwdPollResourceSetup_lcores setUp with ⟨onEnabled, onOthers, _, _⟩
  have toNat_rank : ∀ lcore ∈ enabledLcores eal, ∀ port ∈ enabledPorts eal mask,
      ((state.lcoreConf lcore).txQueueId port).toNat = txRank eal lcore := by
    intro lcore member port isPort
    have below := txRank_lt (List.mem_filter.mp member).2
    have few : rteLcoreCount eal ≤ 128 := rteLcoreCount_le eal
    rw [(onEnabled lcore member).2 port isPort, BitVec.toNat_ofNat]
    exact Nat.mod_eq_of_lt (by omega)
  constructor
  · intro port isPort lcore member other member' same
    apply txRank_injective (List.mem_filter.mp member).2 (List.mem_filter.mp member').2
    rw [← toNat_rank lcore member port isPort, ← toNat_rank other member' port isPort, same]
  · intro port isPort queue
    rw [nTxQueue_eq]
    constructor
    · rintro ⟨lcore, member, rfl⟩
      rw [toNat_rank lcore member port isPort]
      exact txRank_lt (List.mem_filter.mp member).2
    · intro below
      rw [← txRank_rteMaxLcore] at below
      rcases exists_txRank eal rteMaxLcore below with ⟨lcore, enabled, isRank⟩
      have member : lcore ∈ enabledLcores eal :=
        List.mem_filter.mpr ⟨List.mem_range.mpr (eal.lcores lcore enabled), enabled⟩
      refine ⟨lcore, member, BitVec.eq_of_toNat_eq ?_⟩
      rw [toNat_rank lcore member port isPort, isRank]
  · intro lcore member port
    rw [(onEnabled lcore member).1, (nodup_enabledPorts eal mask).count]
  · intro lcore
    by_cases member : lcore ∈ enabledLcores eal
    · rw [(onEnabled lcore member).1]
      exact length_enabledPorts eal mask
    · rw [onOthers lcore member]
      exact Nat.zero_le _

theorem txQueues_assigned_two :
    ∃ state, l3fwdPollResourceSetup twoPortEal threeQueues 0x3#32
        ⟨fun _ => 0, fun _ => 0, fun _ => 0⟩ = some state ∧
      TxQueuesAssigned twoPortEal 0x3#32 state.lcoreConf := by
  have succeeds : (l3fwdPollResourceSetup twoPortEal threeQueues 0x3#32
      ⟨fun _ => 0, fun _ => 0, fun _ => 0⟩).isSome = true := by
    decide +kernel
  rcases Option.isSome_iff_exists.mp succeeds with ⟨state, setUp⟩
  exact ⟨state, setUp, txQueues_assigned setUp⟩

end PacketForwarding.L3fwd
