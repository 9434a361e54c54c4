import PacketForwarding.L2fwd.MainLoop

/-! # One writer for each port

The lcores take no locks because there is nothing to guard. No port is polled by two lcores,
and since no two ports have one destination, none is sent to by two lcores either.
-/

namespace PacketForwarding.L2fwd

open CString

/-! ## What an lcore owns -/

/-- The lcore sends to this port. -/
def Config.Targets (config : Config) (lcore port : Nat) : Prop :=
  ∃ portid ∈ config.rxPortList lcore, config.dstPorts portid = port

/-- An lcore owns what belongs to the ports that it sends to, and the counts of the ports that
it polls. -/
def Config.Owns (config : Config) (lcore : Nat) : Location → Prop
  | .txBuffer port => config.Targets lcore port
  | .tx port => config.Targets lcore port
  | .dropped port => config.Targets lcore port
  | .rx port => port ∈ config.rxPortList lcore

/-- A counter that is being added to is owned. -/
def Lcore.Within (config : Config) (lcore : Nat) (own : Lcore) : Prop :=
  ∀ addition, own.adding = some addition → config.Owns lcore addition.counter.location

/-- No port is polled by two lcores, and none is sent to by two. -/
structure Config.Partitioned (config : Config) : Prop where
  polled : ∀ port one other, port ∈ config.rxPortList one → port ∈ config.rxPortList other →
    one = other
  targets : ∀ port one other, config.Targets one port → config.Targets other port → one = other

section Owned

variable {config : Config}

theorem Config.Partitioned.unique (parts : config.Partitioned) {one other : Nat}
    {location : Location} (owns : config.Owns one location) (alsoOwns : config.Owns other location) :
    one = other := by
  cases location with
  | txBuffer port => exact parts.targets port one other owns alsoOwns
  | tx port => exact parts.targets port one other owns alsoOwns
  | dropped port => exact parts.targets port one other owns alsoOwns
  | rx port => exact parts.polled port one other owns alsoOwns

theorem targets_of_port {lcore i portid : Nat} (port : (config.rxPortList lcore)[i]? = some portid) :
    config.Targets lcore (config.dstPorts portid) :=
  ⟨portid, List.mem_of_getElem? port, rfl⟩

theorem within_none (lcore : Nat) (pc : Pc) : Lcore.Within config lcore ⟨pc, none⟩ := by
  intro addition impossible
  cases impossible

theorem within_addSent {lcore port : Nat} (target : config.Targets lcore port) (pc : Pc)
    (sent : Nat) : Lcore.Within config lcore ⟨pc, addSent port sent⟩ := by
  intro addition adding
  change addSent port sent = some addition at adding
  rw [addSent] at adding
  split at adding
  · cases adding
  · cases adding
    exact target

/-- A step keeps what an lcore may add to. -/
theorem LcoreStep.within {lcore : Nat} {own next : Lcore} {memory memory' : Memory}
    {writes : List Location} (within : own.Within config lcore)
    (step : LcoreStep config lcore own memory writes next memory') : next.Within config lcore := by
  cases step with
  | load pc counter amount =>
      rintro _ ⟨rfl⟩
      exact within (.load counter amount) rfl
  | store | quit | due | notDue | drained | noPackets | forwarded | polled =>
      exact within_none lcore _
  | rxBurst =>
      rintro _ ⟨rfl⟩
      exact List.mem_of_getElem? ‹(config.rxPortList lcore)[_]? = some _›
  | flush | simpleForward =>
      exact within_addSent (targets_of_port ‹(config.rxPortList lcore)[_]? = some _›) _ _

/-- A step only writes to what the lcore owns. -/
theorem LcoreStep.owns {lcore : Nat} {own next : Lcore} {memory memory' : Memory}
    {writes : List Location} (within : own.Within config lcore)
    (step : LcoreStep config lcore own memory writes next memory') :
    ∀ location ∈ writes, config.Owns lcore location := by
  cases step with
  | load | quit | due | notDue | drained | noPackets | rxBurst | forwarded | polled =>
      exact fun _ impossible => absurd impossible List.not_mem_nil
  | store pc counter value =>
      intro location member
      rw [List.mem_singleton.mp member]
      exact within (.store counter value) rfl
  | flush | simpleForward =>
      have target := targets_of_port ‹(config.rxPortList lcore)[_]? = some _›
      intro location member
      rcases List.mem_cons.mp member with rfl | last
      · exact target
      · rw [List.mem_singleton.mp last]
        exact target

theorem owned_loops (parts : config.Partitioned) :
    Threads.Owned (LcoreStep config) (fun lcore own => own.Within config lcore) config.Owns where
  kept := fun _ _ _ _ _ _ within step => step.within within
  within := fun _ _ _ _ _ _ within step => step.owns within
  unique := fun _ _ _ owns alsoOwns => parts.unique owns alsoOwns

end Owned

/-! ## What is set up -/

/-- The ports and the lcores that poll them. -/
structure Setup where
  map : PortMap
  assignment : Assignment

/-- What `main` does with ports and lcores before it launches the loops. -/
def initialise (lcoreEnabled : Nat → Bool) (rxQueuePerLcore nbPorts : Nat)
    (enabledPortMask : BitVec 32) (portmap : Option (List PortPairParams)) : Option Setup := do
  let map ← initPorts nbPorts enabledPortMask portmap
  let assignment ← assignLcores lcoreEnabled rxQueuePerLcore nbPorts map.enabledPortMask
  return ⟨map, assignment⟩

/-- What the loops are given. -/
def Setup.config (setup : Setup) (macUpdating : Bool) (portsEthAddr : Nat → BitVec 48) : Config where
  rxPortList := setup.assignment.rxPortList
  dstPorts := setup.map.dstPorts
  macUpdating := macUpdating
  portsEthAddr := portsEthAddr

/-- Every enabled port is polled by one lcore, and every port is sent to by one at most. -/
structure Setup.Distributes (setup : Setup) (lcoreEnabled : Nat → Bool)
    (rxQueuePerLcore nbPorts : Nat) : Prop where
  polled : ∀ port, setup.map.Enabled nbPorts port →
    ∃! slot : Nat × Nat, (setup.assignment.rxPortList slot.1)[slot.2]? = some port
  usable : ∀ lcore index port, (setup.assignment.rxPortList lcore)[index]? = some port →
    lcoreEnabled lcore = true ∧ lcore < rteMaxLcore ∧ index < maxRxQueuePerLcore ∧
      setup.map.Enabled nbPorts port
  limit : ∀ lcore, (setup.assignment.rxPortList lcore).length ≤ rxQueuePerLcore
  nbLcores : setup.assignment.nbLcores = ((Finset.range rteMaxLcore).filter fun lcore =>
    setup.assignment.rxPortList lcore ≠ []).card
  targets : ∀ port one other, (∃ polled ∈ setup.assignment.rxPortList one,
      setup.map.dstPorts polled = port) →
    (∃ polled ∈ setup.assignment.rxPortList other, setup.map.dstPorts polled = port) → one = other

/-- In whatever order the lcores take their steps, nothing is written by two of them. -/
def SingleWriter (config : Config) : Prop :=
  ∀ trace last, LoopsRun config trace last →
    ∀ one other writes writes' location, (one, writes) ∈ trace → location ∈ writes →
      (other, writes') ∈ trace → location ∈ writes' → one = other

section Initialised

variable {lcoreEnabled : Nat → Bool} {rxQueuePerLcore nbPorts : Nat}

theorem PortMap.Pairs.injective {map : PortMap} {pairs : List (Nat × Nat)}
    (made : map.Pairs nbPorts pairs) {one other : Nat} (oneEnabled : map.Enabled nbPorts one)
    (otherEnabled : map.Enabled nbPorts other) (same : map.dstPorts one = map.dstPorts other) :
    one = other := by
  rw [← (made.involution oneEnabled).2, same, (made.involution otherEnabled).2]

theorem enabled_iff_polled {setup : Setup} (holds : setup.assignment.Holds lcoreEnabled
      rxQueuePerLcore (enabledPorts nbPorts setup.map.enabledPortMask)) (port : Nat) :
    setup.map.Enabled nbPorts port ↔ ∃ lcore, port ∈ setup.assignment.rxPortList lcore :=
  mem_enabledPorts.symm.trans (holds.assigned port)

theorem partitioned_of_holds {setup : Setup} {pairs : List (Nat × Nat)}
    (made : setup.map.Pairs nbPorts pairs)
    (holds : setup.assignment.Holds lcoreEnabled rxQueuePerLcore
      (enabledPorts nbPorts setup.map.enabledPortMask)) (macUpdating : Bool)
    (portsEthAddr : Nat → BitVec 48) : (setup.config macUpdating portsEthAddr).Partitioned := by
  constructor
  · exact holds.unique
  · rintro _ one other ⟨port, member, rfl⟩ ⟨port', member', same⟩
    have enabled := (enabled_iff_polled holds port).mpr ⟨one, member⟩
    have enabled' := (enabled_iff_polled holds port').mpr ⟨other, member'⟩
    rw [made.injective enabled' enabled same] at member'
    exact holds.unique port one other member member'

theorem distributes_of_holds (bound : rxQueuePerLcore < maxRxQueuePerLcore)
    {setup : Setup} {pairs : List (Nat × Nat)} (made : setup.map.Pairs nbPorts pairs)
    (holds : setup.assignment.Holds lcoreEnabled rxQueuePerLcore
      (enabledPorts nbPorts setup.map.enabledPortMask)) :
    setup.Distributes lcoreEnabled rxQueuePerLcore nbPorts := by
  have enabled := enabled_iff_polled holds
  constructor
  · intro port isEnabled
    rcases (enabled port).mp isEnabled with ⟨lcore, member⟩
    rcases List.getElem?_of_mem member with ⟨index, at_⟩
    refine ⟨(lcore, index), at_, ?_⟩
    rintro ⟨other, index'⟩ atOther
    have same : other = lcore := holds.unique port other lcore (List.mem_of_getElem? atOther) member
    subst same
    rcases List.getElem?_eq_some_iff.mp at_ with ⟨_, value⟩
    rcases List.getElem?_eq_some_iff.mp atOther with ⟨_, value'⟩
    have sameIndex : index' = index :=
      (holds.nodup other).getElem_inj_iff.mp (value'.trans value.symm)
    rw [sameIndex]
  · intro lcore index port at_
    have member := List.mem_of_getElem? at_
    rcases holds.usable lcore (List.ne_nil_of_mem member) with ⟨usable, inside⟩
    have small := (List.getElem?_eq_some_iff.mp at_).1
    exact ⟨usable, inside, (small.trans_le (holds.limit lcore)).trans bound,
      (enabled port).mpr ⟨lcore, member⟩⟩
  · exact holds.limit
  · exact holds.nbLcores
  · exact (partitioned_of_holds made holds false fun _ => 0#48).targets

/-- The lcores that are launched divide the ports among them, and no two of them ever write
to the same buffer or counter. -/
theorem lcores_single_writer (few : nbPorts ≤ rteMaxEthports) (mask : BitVec 32)
    (portmap : Option (List PortPairParams)) (qArg : Option Bytes)
    (parsed : parseRxQueuePerLcore qArg = some rxQueuePerLcore) {setup : Setup}
    (initialised : initialise lcoreEnabled rxQueuePerLcore nbPorts mask portmap = some setup) :
    setup.Distributes lcoreEnabled rxQueuePerLcore nbPorts ∧
      ∀ macUpdating portsEthAddr, SingleWriter (setup.config macUpdating portsEthAddr) := by
  simp only [initialise, Option.bind_eq_bind, Option.bind_eq_some_iff] at initialised
  rcases initialised with ⟨map, init, assignment, assigned, same⟩
  cases same
  have made := initPorts_pairs few init
  have holds := assignLcores_holds assigned
  refine ⟨@distributes_of_holds _ _ _ (parseRxQueuePerLcore_bounds parsed).2 ⟨map, assignment⟩ _
    made holds, ?_⟩
  intro macUpdating portsEthAddr trace last run one other writes writes' location wrote inside
    alsoWrote alsoInside
  have parts := @partitioned_of_holds _ _ _ ⟨map, assignment⟩ _ made holds macUpdating portsEthAddr
  exact (owned_loops parts).single_writer (fun lcore => within_none lcore _) run wrote inside
    alsoWrote alsoInside

end Initialised

/-- Four ports on two lcores. -/
theorem lcores_single_writer_four :
    ∃ setup, initialise (fun lcore => decide (lcore < 2)) 2 4 15#32 none = some setup ∧
      setup.Distributes (fun lcore => decide (lcore < 2)) 2 4 ∧
      ∀ macUpdating portsEthAddr, SingleWriter (setup.config macUpdating portsEthAddr) := by
  have parsed : parseRxQueuePerLcore (some [50#8]) = some 2 := by decide
  have initialised : (initialise (fun lcore => decide (lcore < 2)) 2 4 15#32 none).isSome := rfl
  rcases Option.isSome_iff_exists.mp initialised with ⟨setup, same⟩
  exact ⟨setup, same, lcores_single_writer (by decide) 15#32 none (some [50#8]) parsed same⟩

end PacketForwarding.L2fwd
