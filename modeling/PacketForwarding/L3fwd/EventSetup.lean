import PacketForwarding.Foundation.Endings
import PacketForwarding.L3fwd.PollSetup

/-! # Setting up the event device

The number of event queues is settled with the device first, then the table of queue ids
is filled, and at last every enabled port gets a queue from the table. With an internal
port all queues belong to workers. In the generic variant the last one is the single link
queue of the TX adapter.
-/

namespace PacketForwarding.L3fwd

/-! ## The device and its tables -/

/-- `rte_panic` ends the program. A read or write outside `event_q_id` is a fault. -/
inductive EventFault
  | rtePanic
  | eventQIdIndex (index : Nat)
  deriving DecidableEq

/-- What the event device offers, and for each call that may end the program whether it
succeeds. `rxAdapterReady` stands for all calls about the RX adapter of a port before its
queues are added, `rxAdapterStart` and `txAdapterSetup` for those after. -/
structure EventLib where
  maxEventQueues : BitVec 8
  maxEventPorts : BitVec 8
  rteEventDevConfigure : BitVec 8 → BitVec 8 → Bool
  rteEventQueueDefaultConfGet : Bool
  rteEventQueueSetup : Nat → Bool
  rteEventPortDefaultConfGet : Bool
  rteEventPortSetup : Nat → Bool
  rxAdapterReady : Nat → BitVec 16 → Bool
  rxAdapterQueueAdd : Nat → BitVec 16 → BitVec 8 → Bool
  rxAdapterStart : Nat → Bool
  txAdapterSetup : BitVec 8 → Bool

/-- `struct l3fwd_event_queues`. The table has `nbQueues` entries. -/
structure EventQueues where
  eventQId : Nat → BitVec 8
  nbQueues : BitVec 8

namespace EventQueues

def read (evq : EventQueues) (index : Nat) : Except EventFault (BitVec 8) :=
  if index < evq.nbQueues.toNat then .ok (evq.eventQId index) else .error (.eventQIdIndex index)

def write (evq : EventQueues) (index : Nat) (value : BitVec 8) : Except EventFault EventQueues :=
  if index < evq.nbQueues.toNat then
    .ok { evq with eventQId := Function.update evq.eventQId index value }
  else
    .error (.eventQIdIndex index)

end EventQueues

/-- A call that ends the program if it fails. -/
def orPanic (succeeds : Bool) : Except EventFault Unit :=
  if succeeds then .ok () else .error .rtePanic

/-- `struct l3fwd_event_ports` without its lock. The table has `nbPorts` entries. -/
structure EventPorts where
  eventPId : Nat → BitVec 8
  nbPorts : BitVec 8

/-- What the setup leaves behind: the tables, and the queue of each ethernet port. -/
structure EventSetup where
  evq : EventQueues
  evp : EventPorts
  rxQueues : List (BitVec 16 × BitVec 8)

/-! ## Queues and ports of the device -/

/-- The smaller of what is wanted and what the device has. There are not more than 33
queues or 128 workers to be wanted. -/
def capped (wanted : Nat) (limit : BitVec 8) : BitVec 8 :=
  if limit.toNat < wanted then limit else BitVec.ofNat 8 wanted

/-- One queue for each ethdev port + one Tx adapter Single link queue. -/
def l3fwdEventDeviceSetupGeneric (lib : EventLib) (eal : Eal) (mask : BitVec 32)
    (serviceLcores : Nat) : Except EventFault (BitVec 8 × BitVec 8) := do
  let ethdevCount := (enabledPorts eal mask).length
  let nbEventQueues := capped (ethdevCount + 1) lib.maxEventQueues
  let numWorkers := capped (rteLcoreCount eal - serviceLcores) lib.maxEventPorts
  orPanic (lib.rteEventDevConfigure nbEventQueues numWorkers)
  return (nbEventQueues, numWorkers)

def l3fwdEventDeviceSetupInternalPort (lib : EventLib) (eal : Eal) (mask : BitVec 32) :
    Except EventFault (BitVec 8 × BitVec 8) := do
  let ethdevCount := (enabledPorts eal mask).length
  let nbEventQueues := capped ethdevCount lib.maxEventQueues
  let numWorkers := capped (rteLcoreCount eal) lib.maxEventPorts
  orPanic (lib.rteEventDevConfigure nbEventQueues numWorkers)
  return (nbEventQueues, numWorkers)

/-- Set a queue up and enter it into the table. -/
def setupQueue (lib : EventLib) (evq : EventQueues) (eventQId : Nat) :
    Except EventFault EventQueues := do
  orPanic (lib.rteEventQueueSetup eventQId)
  evq.write eventQId (BitVec.ofNat 8 eventQId)

/-- The last queue is set up with a single link. -/
def l3fwdEventQueueSetupGeneric (lib : EventLib) (nbQueues : BitVec 8) :
    Except EventFault EventQueues := do
  orPanic lib.rteEventQueueDefaultConfGet
  let evq ← (List.range (nbQueues.toNat - 1)).foldlM (setupQueue lib) ⟨fun _ => 0, nbQueues⟩
  setupQueue lib evq (nbQueues.toNat - 1)

def l3fwdEventQueueSetupInternalPort (lib : EventLib) (nbQueues : BitVec 8) :
    Except EventFault EventQueues := do
  orPanic lib.rteEventQueueDefaultConfGet
  (List.range nbQueues.toNat).foldlM (setupQueue lib) ⟨fun _ => 0, nbQueues⟩

/-- Set a port up, link it to the queues and enter it into the table. -/
def setupEventPort (lib : EventLib) (evp : EventPorts) (eventPId : Nat) :
    Except EventFault EventPorts := do
  orPanic (lib.rteEventPortSetup eventPId)
  return { evp with
    eventPId := Function.update evp.eventPId eventPId (BitVec.ofNat 8 eventPId) }

def l3fwdEventPortSetup (lib : EventLib) (nbPorts : BitVec 8) : Except EventFault EventPorts := do
  orPanic lib.rteEventPortDefaultConfGet
  (List.range nbPorts.toNat).foldlM (setupEventPort lib) ⟨fun _ => 0, nbPorts⟩

/-! ## Queues of the ethernet ports -/

/-- `if (i < nb_queues) i++` -/
def EventQueues.next (evq : EventQueues) (i : Nat) : Nat :=
  if i < evq.nbQueues.toNat then i + 1 else i

/-- Give each of the ports the next queue of the table. The ports share the RX adapter 0,
or each one has its own. -/
def addRxQueues (lib : EventLib) (evq : EventQueues) (shared : Bool) :
    Nat → Nat → List (BitVec 16) → Except EventFault (List (BitVec 16 × BitVec 8))
  | _, _, [] => .ok []
  | adapterId, qId, portId :: rest => do
      orPanic (lib.rxAdapterReady adapterId portId)
      let queueId ← evq.read qId
      orPanic (lib.rxAdapterQueueAdd adapterId portId queueId)
      let adapterId := if shared then adapterId else adapterId + 1
      let others ← addRxQueues lib evq shared adapterId (evq.next qId) rest
      return (portId, queueId) :: others

def l3fwdRxTxAdapterSetupGeneric (lib : EventLib) (eal : Eal) (mask : BitVec 32)
    (evq : EventQueues) : Except EventFault (List (BitVec 16 × BitVec 8)) := do
  let rxQueues ← addRxQueues lib evq true 0 0 (enabledPorts eal mask)
  orPanic (lib.rxAdapterStart 0)
  let txQueue ← evq.read (evq.nbQueues.toNat - 1)
  orPanic (lib.txAdapterSetup txQueue)
  return rxQueues

/-- Without a queue of its own, the TX adapter has nothing to do with the table. -/
def l3fwdRxTxAdapterSetupInternalPort (lib : EventLib) (eal : Eal) (mask : BitVec 32)
    (evq : EventQueues) : Except EventFault (List (BitVec 16 × BitVec 8)) :=
  addRxQueues lib evq false 0 0 (enabledPorts eal mask)

/-! ## The whole setup -/

/-- The two variants, which differ in who transmits. -/
inductive EventOps
  | generic
  | internalPort
  deriving DecidableEq

/-- The queues that are no worker's. -/
def EventOps.txQueues : EventOps → Nat
  | .generic => 1
  | .internalPort => 0

namespace EventOps

def eventDeviceSetup (ops : EventOps) (lib : EventLib) (eal : Eal) (mask : BitVec 32)
    (serviceLcores : Nat) : Except EventFault (BitVec 8 × BitVec 8) :=
  match ops with
  | .generic => l3fwdEventDeviceSetupGeneric lib eal mask serviceLcores
  | .internalPort => l3fwdEventDeviceSetupInternalPort lib eal mask

def eventQueueSetup (ops : EventOps) (lib : EventLib) (nbQueues : BitVec 8) :
    Except EventFault EventQueues :=
  match ops with
  | .generic => l3fwdEventQueueSetupGeneric lib nbQueues
  | .internalPort => l3fwdEventQueueSetupInternalPort lib nbQueues

def adapterSetup (ops : EventOps) (lib : EventLib) (eal : Eal) (mask : BitVec 32)
    (evq : EventQueues) : Except EventFault (List (BitVec 16 × BitVec 8)) :=
  match ops with
  | .generic => l3fwdRxTxAdapterSetupGeneric lib eal mask evq
  | .internalPort => l3fwdRxTxAdapterSetupInternalPort lib eal mask evq

end EventOps

/-- The steps of `l3fwd_event_resource_setup` that concern the tables. -/
def l3fwdEventResourceSetup (ops : EventOps) (lib : EventLib) (eal : Eal) (mask : BitVec 32)
    (serviceLcores : Nat) : Except EventFault EventSetup := do
  let (nbQueues, nbPorts) ← ops.eventDeviceSetup lib eal mask serviceLcores
  let evq ← ops.eventQueueSetup lib nbQueues
  let evp ← l3fwdEventPortSetup lib nbPorts
  let rxQueues ← ops.adapterSetup lib eal mask evq
  return ⟨evq, evp, rxQueues⟩

/-! ## The tables -/

/-- Giving up is allowed, reading or writing outside the table is not. -/
abbrev Panics (fault : EventFault) : Prop := fault = .rtePanic

theorem orPanic_ends (succeeds : Bool) : Ends (fun _ => True) Panics (orPanic succeeds) := by
  cases succeeds with
  | true => trivial
  | false => rfl

/-- The first entries of the table are its own indices. -/
structure EventQueues.Filled (nbQueues : BitVec 8) (count : Nat) (evq : EventQueues) : Prop where
  nbQueues : evq.nbQueues = nbQueues
  entries : ∀ index, index < count → evq.eventQId index = BitVec.ofNat 8 index

theorem setupQueue_ends (lib : EventLib) {nbQueues : BitVec 8} {evq : EventQueues} {index : Nat}
    (filled : evq.Filled nbQueues index) (inside : index < nbQueues.toNat) :
    Ends (EventQueues.Filled nbQueues (index + 1)) Panics (setupQueue lib evq index) := by
  refine (orPanic_ends _).bind ?_
  intro _ _
  rw [EventQueues.write, filled.nbQueues, if_pos inside]
  refine ⟨rfl, ?_⟩
  intro other before
  rcases Nat.lt_succ_iff_lt_or_eq.mp before with earlier | same
  · rw [← filled.entries other earlier]
    exact Function.update_of_ne (Nat.ne_of_lt earlier) _ _
  · rw [same]
    exact Function.update_self _ _ _

theorem setupQueues_ends (lib : EventLib) {nbQueues : BitVec 8} {count : Nat}
    (inside : count ≤ nbQueues.toNat) :
    Ends (EventQueues.Filled nbQueues count) Panics
      ((List.range count).foldlM (setupQueue lib) ⟨fun _ => 0, nbQueues⟩) := by
  refine Ends.foldlM_range (fun round evq => EventQueues.Filled nbQueues round evq) ?_ ?_
  · intro round evq before filled
    exact setupQueue_ends lib filled (before.trans_le inside)
  · exact ⟨rfl, fun _ impossible => absurd impossible (Nat.not_lt_zero _)⟩

theorem l3fwdEventQueueSetupGeneric_ends (lib : EventLib) {nbQueues : BitVec 8}
    (positive : 0 < nbQueues.toNat) :
    Ends (EventQueues.Filled nbQueues nbQueues.toNat) Panics
      (l3fwdEventQueueSetupGeneric lib nbQueues) := by
  refine (orPanic_ends _).bind ?_
  intro _ _
  refine (setupQueues_ends lib (Nat.sub_le _ 1)).bind ?_
  intro evq filled
  have last := setupQueue_ends lib filled (Nat.sub_lt positive Nat.one_pos)
  rw [Nat.sub_add_cancel positive] at last
  exact last

theorem l3fwdEventQueueSetupInternalPort_ends (lib : EventLib) (nbQueues : BitVec 8) :
    Ends (EventQueues.Filled nbQueues nbQueues.toNat) Panics
      (l3fwdEventQueueSetupInternalPort lib nbQueues) := by
  refine (orPanic_ends _).bind ?_
  intro _ _
  exact setupQueues_ends lib (Nat.le_refl _)

/-- The device has the event ports from 0 on. -/
structure EventPorts.Filled (nbPorts : BitVec 8) (count : Nat) (evp : EventPorts) : Prop where
  nbPorts : evp.nbPorts = nbPorts
  entries : ∀ index, index < count → evp.eventPId index = BitVec.ofNat 8 index

theorem l3fwdEventPortSetup_ends (lib : EventLib) (nbPorts : BitVec 8) :
    Ends (EventPorts.Filled nbPorts nbPorts.toNat) Panics (l3fwdEventPortSetup lib nbPorts) := by
  refine (orPanic_ends _).bind ?_
  intro _ _
  refine Ends.foldlM_range (fun round evp => EventPorts.Filled nbPorts round evp) ?_ ?_
  · intro round evp _ filled
    refine (orPanic_ends _).bind ?_
    intro _ _
    refine ⟨filled.nbPorts, ?_⟩
    intro other before
    rcases Nat.lt_succ_iff_lt_or_eq.mp before with earlier | same
    · rw [← filled.entries other earlier]
      exact Function.update_of_ne (Nat.ne_of_lt earlier) _ _
    · rw [same]
      exact Function.update_self _ _ _
  · exact ⟨rfl, fun _ impossible => absurd impossible (Nat.not_lt_zero _)⟩

/-! ## The queues of the ports -/

section RxQueues

variable {lib : EventLib} {evq : EventQueues} {nbQueues : BitVec 8}
  (filled : evq.Filled nbQueues nbQueues.toNat) (shared : Bool)

include filled

theorem EventQueues.read_inside {index : Nat} (inside : index < nbQueues.toNat) :
    evq.read index = .ok (BitVec.ofNat 8 index) := by
  rw [EventQueues.read, filled.nbQueues, if_pos inside, filled.entries index inside]

theorem EventQueues.read_outside {index : Nat} (outside : ¬ index < nbQueues.toNat) :
    evq.read index = .error (.eventQIdIndex index) := by
  rw [EventQueues.read, filled.nbQueues, if_neg outside]

theorem EventQueues.next_inside {index : Nat} (inside : index < nbQueues.toNat) :
    evq.next index = index + 1 := by
  rw [EventQueues.next, filled.nbQueues, if_pos inside]

omit filled in
theorem toNat_queueId {index : Nat} (inside : index < nbQueues.toNat) :
    (BitVec.ofNat 8 index).toNat = index := by
  rw [BitVec.toNat_ofNat]
  exact Nat.mod_eq_of_lt (inside.trans nbQueues.isLt)

/-- With a queue left for each port, the ports get the next queues in order. -/
theorem addRxQueues_ends : ∀ (ports : List (BitVec 16)) (adapterId qId : Nat),
    qId + ports.length ≤ nbQueues.toNat →
    Ends (fun rxQueues => rxQueues.map Prod.fst = ports ∧
      ∀ assigned ∈ rxQueues, assigned.2.toNat < qId + ports.length) Panics
      (addRxQueues lib evq shared adapterId qId ports) := by
  intro ports
  induction ports with
  | nil =>
      intro adapterId qId _
      exact ⟨rfl, fun _ impossible => absurd impossible List.not_mem_nil⟩
  | cons port rest induction =>
      intro adapterId qId enough
      rw [List.length_cons] at enough
      have inside : qId < nbQueues.toNat := by omega
      rw [addRxQueues, EventQueues.read_inside filled inside, EventQueues.next_inside filled inside]
      refine (orPanic_ends _).bind ?_
      intro _ _
      refine (orPanic_ends _).bind ?_
      intro _ _
      refine (induction _ (qId + 1) (by omega)).bind ?_
      rintro others ⟨ports, queues⟩
      refine ⟨congrArg (port :: ·) ports, ?_⟩
      intro assigned member
      rw [List.length_cons]
      rcases List.mem_cons.mp member with first | later
      · rw [first]
        change (BitVec.ofNat 8 qId).toNat < _
        rw [toNat_queueId inside]
        omega
      · have before := queues assigned later
        omega

/-- Queues below a bound go round only if there is one for each port. -/
theorem addRxQueues_bound {bound : Nat} : ∀ (ports : List (BitVec 16)) (adapterId qId : Nat),
    qId ≤ bound →
    Ends (fun rxQueues => (∀ assigned ∈ rxQueues, assigned.2.toNat < bound) →
      qId + ports.length ≤ bound) (fun _ => True)
      (addRxQueues lib evq shared adapterId qId ports) := by
  intro ports
  induction ports with
  | nil =>
      intro adapterId qId below _
      exact below
  | cons port rest induction =>
      intro adapterId qId below
      rw [addRxQueues]
      refine (Ends.any _).bind ?_
      intro _ _
      by_cases inside : qId < nbQueues.toNat
      · have found : Ends (fun queueId => queueId = BitVec.ofNat 8 qId) (fun _ => True)
            (evq.read qId) := by
          rw [EventQueues.read_inside filled inside]
          rfl
        rw [EventQueues.next_inside filled inside]
        refine found.bind ?_
        rintro _ rfl
        refine (Ends.any _).bind ?_
        intro _ _
        by_cases atBound : qId < bound
        · refine (induction _ (qId + 1) atBound).bind ?_
          intro others fits all
          have rest := fits fun assigned member => all assigned (List.mem_cons_of_mem _ member)
          rw [List.length_cons]
          omega
        · refine (Ends.any _).bind ?_
          intro others _ all
          have first := all (port, BitVec.ofNat 8 qId) List.mem_cons_self
          rw [toNat_queueId inside] at first
          exact absurd first atBound
      · rw [EventQueues.read_outside filled inside]
        trivial

end RxQueues

/-! ## Every port is served by a worker -/

/-- Every enabled port has a queue, and the queue is a worker's. -/
structure RxServed (ops : EventOps) (eal : Eal) (mask : BitVec 32) (setup : EventSetup) :
    Prop where
  ports : setup.rxQueues.map Prod.fst = enabledPorts eal mask
  queues : ∀ assigned ∈ setup.rxQueues,
    assigned.2.toNat < setup.evq.nbQueues.toNat - ops.txQueues

theorem capped_toNat {wanted : Nat} (small : wanted < 256) (limit : BitVec 8) :
    (capped wanted limit).toNat = min wanted limit.toNat := by
  unfold capped
  split
  · omega
  · rw [BitVec.toNat_ofNat, Nat.mod_eq_of_lt small]
    omega

section Served

variable (ops : EventOps) (lib : EventLib) (eal : Eal) (mask : BitVec 32)

theorem eventDeviceSetup_ends (serviceLcores : Nat) :
    Ends (fun device => device.1.toNat =
        min ((enabledPorts eal mask).length + ops.txQueues) lib.maxEventQueues.toNat) Panics
      (ops.eventDeviceSetup lib eal mask serviceLcores) := by
  have few := length_enabledPorts eal mask
  rw [rteMaxEthports] at few
  cases ops with
  | generic =>
      refine (orPanic_ends _).bind ?_
      intro _ _
      exact capped_toNat (by omega) _
  | internalPort =>
      refine (orPanic_ends _).bind ?_
      intro _ _
      exact capped_toNat (by omega) _

theorem eventQueueSetup_ends {nbQueues : BitVec 8} (single : ops.txQueues ≤ nbQueues.toNat) :
    Ends (EventQueues.Filled nbQueues nbQueues.toNat) Panics
      (ops.eventQueueSetup lib nbQueues) := by
  cases ops with
  | generic => exact l3fwdEventQueueSetupGeneric_ends lib single
  | internalPort => exact l3fwdEventQueueSetupInternalPort_ends lib nbQueues

variable {evq : EventQueues} {nbQueues : BitVec 8}

theorem adapterSetup_ends (filled : evq.Filled nbQueues nbQueues.toNat)
    (enough : (enabledPorts eal mask).length + ops.txQueues ≤ nbQueues.toNat) :
    Ends (fun rxQueues => rxQueues.map Prod.fst = enabledPorts eal mask ∧
      ∀ assigned ∈ rxQueues, assigned.2.toNat < (enabledPorts eal mask).length) Panics
      (ops.adapterSetup lib eal mask evq) := by
  have added : ∀ shared, Ends (fun rxQueues => rxQueues.map Prod.fst = enabledPorts eal mask ∧
      ∀ assigned ∈ rxQueues, assigned.2.toNat < (enabledPorts eal mask).length) Panics
      (addRxQueues lib evq shared 0 0 (enabledPorts eal mask)) := by
    intro shared
    have all := @addRxQueues_ends lib evq nbQueues filled shared (enabledPorts eal mask) 0 0
    rw [Nat.zero_add] at all
    exact all (by omega)
  cases ops with
  | generic =>
      refine (added true).bind ?_
      intro rxQueues served
      refine (orPanic_ends _).bind ?_
      intro _ _
      have last : evq.nbQueues.toNat - 1 < nbQueues.toNat := by
        rw [filled.nbQueues]
        change _ + 1 ≤ _ at enough
        omega
      rw [EventQueues.read_inside filled last]
      refine (orPanic_ends _).bind ?_
      intro _ _
      exact served
  | internalPort => exact added false

theorem adapterSetup_bound (filled : evq.Filled nbQueues nbQueues.toNat) :
    Ends (fun rxQueues =>
      (∀ assigned ∈ rxQueues, assigned.2.toNat < nbQueues.toNat - ops.txQueues) →
        (enabledPorts eal mask).length ≤ nbQueues.toNat - ops.txQueues) (fun _ => True)
      (ops.adapterSetup lib eal mask evq) := by
  have added : ∀ shared, Ends (fun rxQueues =>
      (∀ assigned ∈ rxQueues, assigned.2.toNat < nbQueues.toNat - ops.txQueues) →
        (enabledPorts eal mask).length ≤ nbQueues.toNat - ops.txQueues) (fun _ => True)
      (addRxQueues lib evq shared 0 0 (enabledPorts eal mask)) := by
    intro shared
    have all := @addRxQueues_bound lib evq nbQueues filled shared (nbQueues.toNat - ops.txQueues)
      (enabledPorts eal mask) 0 0 (Nat.zero_le _)
    rw [Nat.zero_add] at all
    exact all
  cases ops with
  | generic =>
      refine (added true).bind ?_
      intro rxQueues fits
      refine (Ends.any _).bind ?_
      intro _ _
      refine (Ends.any _).bind ?_
      intro _ _
      refine (Ends.any _).bind ?_
      intro _ _
      exact fits
  | internalPort => exact added false

theorem eventResourceSetup_ends (serviceLcores : Nat)
    (enough : (enabledPorts eal mask).length + ops.txQueues ≤ lib.maxEventQueues.toNat) :
    Ends (RxServed ops eal mask) Panics
      (l3fwdEventResourceSetup ops lib eal mask serviceLcores) := by
  refine (eventDeviceSetup_ends ops lib eal mask serviceLcores).bind ?_
  rintro ⟨nbQueues, nbPorts⟩ queues
  change nbQueues.toNat = _ at queues
  rw [Nat.min_eq_left enough] at queues
  refine (eventQueueSetup_ends ops lib (by omega)).bind ?_
  intro evq filled
  refine (l3fwdEventPortSetup_ends lib nbPorts).bind ?_
  intro evp _
  refine (adapterSetup_ends ops lib eal mask filled (by omega)).bind ?_
  rintro rxQueues ⟨ports, assignedBelow⟩
  refine ⟨ports, ?_⟩
  intro assigned member
  have below := assignedBelow assigned member
  change _ < evq.nbQueues.toNat - _
  rw [filled.nbQueues]
  omega

theorem eventResourceSetup_bound (serviceLcores : Nat) (positive : 0 < lib.maxEventQueues.toNat) :
    Ends (fun setup => RxServed ops eal mask setup →
        (enabledPorts eal mask).length + ops.txQueues ≤ lib.maxEventQueues.toNat) (fun _ => True)
      (l3fwdEventResourceSetup ops lib eal mask serviceLcores) := by
  have device := (eventDeviceSetup_ends ops lib eal mask serviceLcores).imp
    (fun _ good => good) (fun _ _ => trivial)
  refine device.bind ?_
  rintro ⟨nbQueues, nbPorts⟩ queues
  change nbQueues.toNat = _ at queues
  have single : ops.txQueues ≤ nbQueues.toNat := by
    cases ops <;> simp only [EventOps.txQueues] at * <;> omega
  have table := (eventQueueSetup_ends ops lib single).imp (fun _ good => good) (fun _ _ => trivial)
  refine table.bind ?_
  intro evq filled
  refine (Ends.any _).bind ?_
  intro evp _
  refine (adapterSetup_bound ops lib eal mask filled).bind ?_
  intro rxQueues fits served
  have below := served.queues
  rw [filled.nbQueues] at below
  have few := fits below
  omega

end Served

/-! ## A device that accepts everything -/

def EventLib.accepting (maxEventQueues : BitVec 8) : EventLib where
  maxEventQueues := maxEventQueues
  maxEventPorts := 255
  rteEventDevConfigure _ _ := true
  rteEventQueueDefaultConfGet := true
  rteEventQueueSetup _ := true
  rteEventPortDefaultConfGet := true
  rteEventPortSetup _ := true
  rxAdapterReady _ _ := true
  rxAdapterQueueAdd _ _ _ := true
  rxAdapterStart _ := true
  txAdapterSetup _ := true

section Accepting

variable (ops : EventOps) (max : BitVec 8) (eal : Eal) (mask : BitVec 32)

abbrev NotPanics (fault : EventFault) : Prop := fault ≠ .rtePanic

theorem read_notPanics (evq : EventQueues) (index : Nat) :
    Ends (fun _ => True) NotPanics (evq.read index) := by
  rw [EventQueues.read]
  split
  · trivial
  · exact EventFault.noConfusion

theorem setupQueue_accepting (evq : EventQueues) (index : Nat) :
    Ends (fun _ => True) NotPanics (setupQueue (.accepting max) evq index) := by
  change Ends _ _ (evq.write index _)
  rw [EventQueues.write]
  split
  · trivial
  · exact EventFault.noConfusion

theorem addRxQueues_accepting (evq : EventQueues) (shared : Bool) :
    ∀ (ports : List (BitVec 16)) (adapterId qId : Nat), Ends (fun _ => True) NotPanics
      (addRxQueues (.accepting max) evq shared adapterId qId ports) := by
  intro ports
  induction ports with
  | nil =>
      intro _ _
      trivial
  | cons port rest induction =>
      intro adapterId qId
      refine (read_notPanics evq qId).bind ?_
      intro queueId _
      refine (induction _ _).bind ?_
      intro _ _
      trivial

theorem eventQueueSetup_accepting (nbQueues : BitVec 8) :
    Ends (fun _ => True) NotPanics (ops.eventQueueSetup (.accepting max) nbQueues) := by
  have loop : ∀ count, Ends (fun _ => True) NotPanics ((List.range count).foldlM
      (setupQueue (.accepting max)) ⟨fun _ => 0, nbQueues⟩) := by
    intro count
    refine Ends.foldlM_range (fun _ _ => True) ?_ trivial
    intro round evq _ _
    exact setupQueue_accepting max evq round
  cases ops with
  | generic =>
      refine (loop _).bind ?_
      intro evq _
      exact setupQueue_accepting max evq _
  | internalPort => exact loop _

theorem adapterSetup_accepting (evq : EventQueues) :
    Ends (fun _ => True) NotPanics (ops.adapterSetup (.accepting max) eal mask evq) := by
  have added := addRxQueues_accepting max evq
  cases ops with
  | generic =>
      refine (added true _ 0 0).bind ?_
      intro rxQueues _
      refine (read_notPanics evq _).bind ?_
      intro _ _
      trivial
  | internalPort => exact added false _ 0 0

theorem eventPortSetup_accepting (nbPorts : BitVec 8) :
    Ends (fun _ => True) NotPanics (l3fwdEventPortSetup (.accepting max) nbPorts) := by
  refine Ends.foldlM_range (fun _ _ => True) ?_ trivial
  intro _ _ _ _
  trivial

theorem eventResourceSetup_accepting (serviceLcores : Nat) :
    Ends (fun _ => True) NotPanics
      (l3fwdEventResourceSetup ops (.accepting max) eal mask serviceLcores) := by
  have device : Ends (fun _ => True) NotPanics
      (ops.eventDeviceSetup (.accepting max) eal mask serviceLcores) := by
    cases ops with
    | generic => trivial
    | internalPort => trivial
  refine device.bind ?_
  rintro ⟨nbQueues, nbPorts⟩ _
  refine (eventQueueSetup_accepting ops max nbQueues).bind ?_
  intro evq _
  refine (eventPortSetup_accepting max nbPorts).bind ?_
  intro _ _
  refine (adapterSetup_accepting ops max eal mask evq).bind ?_
  intro _ _
  trivial

end Accepting

/-! ## When every port is served -/

/-- Every port is served on every device with this limit if and only if the limit leaves a
queue for each port, and for the generic variant one more. -/
theorem rxQueues_served_iff (ops : EventOps) (eal : Eal) (mask : BitVec 32)
    (serviceLcores : Nat) (max : BitVec 8) (two : 2 ≤ max.toNat) :
    (∀ lib : EventLib, lib.maxEventQueues = max →
      Ends (RxServed ops eal mask) Panics
        (l3fwdEventResourceSetup ops lib eal mask serviceLcores)) ↔
      (enabledPorts eal mask).length + ops.txQueues ≤ max.toNat := by
  constructor
  · intro served
    have good := served (.accepting max) rfl
    have accepted := eventResourceSetup_accepting ops max eal mask serviceLcores
    have bound := eventResourceSetup_bound ops (.accepting max) eal mask serviceLcores
      (Nat.lt_of_lt_of_le Nat.two_pos two)
    cases run : l3fwdEventResourceSetup ops (.accepting max) eal mask serviceLcores with
    | ok setup => exact bound.of_ok run (good.of_ok run)
    | error fault =>
        rw [run] at good accepted
        exact absurd good accepted
  · rintro enough lib rfl
    exact eventResourceSetup_ends ops lib eal mask serviceLcores enough

theorem rxQueues_served_iff_three :
    2 ≤ (3#8).toNat ∧ ∀ lib : EventLib, lib.maxEventQueues = 3#8 →
      Ends (RxServed .generic twoPortEal 0x3#32) Panics
        (l3fwdEventResourceSetup .generic lib twoPortEal 0x3#32 0) :=
  ⟨by decide, (rxQueues_served_iff .generic twoPortEal 0x3#32 0 3#8 (by decide)).mpr (by decide)⟩

/-- With two ports and two queues, the second port gets the queue of the TX adapter. -/
theorem rxQueues_txQueue :
    ∃ setup, l3fwdEventResourceSetup .generic (.accepting 2#8) twoPortEal 0x3#32 0 = .ok setup ∧
      setup.evq.nbQueues = 2#8 ∧ setup.rxQueues = [(0#16, 0#8), (1#16, 1#8)] ∧
      ¬ RxServed .generic twoPortEal 0x3#32 setup := by
  refine ⟨_, rfl, rfl, rfl, ?_⟩
  intro served
  have second := served.queues (1#16, 1#8) (List.mem_cons_of_mem _ List.mem_cons_self)
  exact absurd second (by decide)

end PacketForwarding.L3fwd
