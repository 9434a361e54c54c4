import PacketForwarding.L3fwd.EventPorts
import PacketForwarding.L3fwd.EventSingle

/-! # How many events a worker asks for

The event ports are set up with the depths the program wants, as far as the default
configuration of the device has them. What the workers ask for at a time is taken from that
default configuration itself, and kept in eight bits.
-/

namespace PacketForwarding.L3fwd

/-! ## Setting up the event ports -/

/-- `struct rte_event_port_conf` -/
structure RteEventPortConf where
  newEventThreshold : BitVec 32
  dequeueDepth : BitVec 16
  enqueueDepth : BitVec 16
  eventPortCfg : BitVec 32
  deriving DecidableEq

/-- `RTE_EVENT_PORT_CFG_DISABLE_IMPL_REL` -/
def eventPortCfgDisableImplRel : BitVec 32 := 1#32

/-- The calls of the setup of the ports: whether there is memory for their table, and what
the device answers. A port is linked to the first queues of a table, or to all queues. -/
structure EventPortLib where
  mallocEventPId : BitVec 8 → Bool
  rteEventPortDefaultConfGet : Option RteEventPortConf
  rteEventPortSetup : Nat → RteEventPortConf → Bool
  rteEventPortLink : Nat → Option (Nat → BitVec 8) → BitVec 16 → Int

/-- What the setup of the ports reads and writes of `struct l3fwd_event_resources`. -/
structure EventResources where
  defPConf : RteEventPortConf
  disableImplicitRelease : BitVec 8
  evq : EventQueues
  evp : EventPorts
  deqDepth : BitVec 8

/-- The resources behind the setup, and the ports as the device got them. -/
structure EventPortSetup where
  rsrc : EventResources
  configured : List (Nat × RteEventPortConf)

/-- `event_p_conf` to begin with. -/
def wantedPortConf : RteEventPortConf where
  newEventThreshold := 4096#32
  dequeueDepth := 32#16
  enqueueDepth := 32#16
  eventPortCfg := 0#32

/-- `event_p_conf` as the ports get it. -/
def eventPConf (disableImplicitRelease : BitVec 8) (defPConf : RteEventPortConf) :
    RteEventPortConf where
  newEventThreshold :=
    if defPConf.newEventThreshold.slt wantedPortConf.newEventThreshold then
      defPConf.newEventThreshold
    else
      wantedPortConf.newEventThreshold
  dequeueDepth :=
    if defPConf.dequeueDepth < wantedPortConf.dequeueDepth then
      defPConf.dequeueDepth
    else
      wantedPortConf.dequeueDepth
  enqueueDepth :=
    if defPConf.enqueueDepth < wantedPortConf.enqueueDepth then
      defPConf.enqueueDepth
    else
      wantedPortConf.enqueueDepth
  eventPortCfg := if disableImplicitRelease ≠ 0#8 then eventPortCfgDisableImplRel else 0#32

/-- One port: set up, linked and entered into the table. -/
def configurePort (lib : EventPortLib) (conf : RteEventPortConf) (linked : Nat → Bool)
    (ports : EventPorts × List (Nat × RteEventPortConf)) (eventPId : Nat) :
    Except EventFault (EventPorts × List (Nat × RteEventPortConf)) := do
  orPanic (lib.rteEventPortSetup eventPId conf)
  orPanic (linked eventPId)
  return ({ ports.1 with
    eventPId := Function.update ports.1.eventPId eventPId (BitVec.ofNat 8 eventPId) },
    ports.2 ++ [(eventPId, conf)])

/-- What the two variants have in common. -/
def configurePorts (lib : EventPortLib) (rsrc : EventResources) (linked : Nat → Bool) :
    Except EventFault EventPortSetup := do
  orPanic (lib.mallocEventPId rsrc.evp.nbPorts)
  match lib.rteEventPortDefaultConfGet with
  | none => .error .rtePanic
  | some defPConf =>
      let conf := eventPConf rsrc.disableImplicitRelease defPConf
      let (evp, configured) ← (List.range rsrc.evp.nbPorts.toNat).foldlM
        (configurePort lib conf linked) (⟨fun _ => 0#8, rsrc.evp.nbPorts⟩, [])
      -- the depth of the device, in a field of eight bits
      return ⟨{ rsrc with
        evp := evp, defPConf := conf, deqDepth := defPConf.dequeueDepth.setWidth 8 }, configured⟩

/-- Each port is linked to the queues of the table but the last one. -/
def l3fwdEventPortSetupGeneric (lib : EventPortLib) (rsrc : EventResources) :
    Except EventFault EventPortSetup :=
  let nbLinks : Int := rsrc.evq.nbQueues.toNat - 1
  configurePorts lib rsrc fun eventPId =>
    lib.rteEventPortLink eventPId (some rsrc.evq.eventQId) (BitVec.ofInt 16 nbLinks) == nbLinks

def l3fwdEventPortSetupInternalPort (lib : EventPortLib) (rsrc : EventResources) :
    Except EventFault EventPortSetup :=
  configurePorts lib rsrc fun eventPId => 0 ≤ lib.rteEventPortLink eventPId none 0#16

def EventOps.eventPortSetup (ops : EventOps) (lib : EventPortLib) (rsrc : EventResources) :
    Except EventFault EventPortSetup :=
  match ops with
  | .generic => l3fwdEventPortSetupGeneric lib rsrc
  | .internalPort => l3fwdEventPortSetupInternalPort lib rsrc

/-! ## The loops of the workers -/

/-- `const uint16_t deq_len = evt_rsrc->deq_depth` -/
def EventResources.deqLen (rsrc : EventResources) : BitVec 16 := rsrc.deqDepth.setWidth 16

/-- `nb_events` of each `rte_event_dequeue_burst`, for the answers of the device in turn. A
turn without events only waits. -/
def dequeueLoop {σ : Type} (process : σ → List RteEvent → σ) (deqLen : BitVec 16) :
    σ → List (BitVec 16 → List RteEvent) → List (BitVec 16)
  | _, [] => []
  | state, rteEventDequeueBurst :: rest =>
      let events := rteEventDequeueBurst deqLen
      let next := if events.length = 0 then state else process state events
      deqLen :: dequeueLoop process deqLen next rest

/-- `lpm_event_loop_burst`, `lpm_event_loop_vector`, `fib_event_loop`,
`fib_event_loop_vector`, `em_event_loop_burst` and `em_event_loop_vector`, each with its own
way to process the events. A worker without an event port returns at once. -/
def EventResources.eventLoop {σ : Type} (rsrc : EventResources)
    (process : σ → List RteEvent → σ) (eventPId : Int) (state : σ)
    (answers : List (BitVec 16 → List RteEvent)) : List (BitVec 16) :=
  if eventPId < 0 then [] else dequeueLoop process rsrc.deqLen state answers

/-- A request asks for something, for no more than the depth that is kept and the depth the
worker's port was set up with, and the answer fits into `events`. -/
structure RequestFits (setup : EventPortSetup) (eventPId : Int) (nbEvents : BitVec 16) :
    Prop where
  positive : 1 ≤ nbEvents.toNat
  kept : nbEvents.toNat ≤ setup.rsrc.defPConf.dequeueDepth.toNat
  configured : ∀ port conf, (port, conf) ∈ setup.configured → eventPId = port →
    nbEvents.toNat ≤ conf.dequeueDepth.toNat
  inside : nbEvents.toNat ≤ maxPktBurst

/-- All requests of all runs of the loops fit. -/
def EventPortSetup.DeqLenFits (setup : EventPortSetup) : Prop :=
  ∀ (σ : Type) (process : σ → List RteEvent → σ) (eventPId : Int) (state : σ)
    (answers : List (BitVec 16 → List RteEvent)),
    ∀ nbEvents ∈ setup.rsrc.eventLoop process eventPId state answers,
      RequestFits setup eventPId nbEvents

/-! ## What the setup leaves behind -/

/-- The first ports are in the table and have the same configuration. -/
structure PortsConfigured (nbPorts : BitVec 8) (conf : RteEventPortConf) (count : Nat)
    (ports : EventPorts × List (Nat × RteEventPortConf)) : Prop where
  filled : ports.1.Filled nbPorts count
  configured : ports.2 = (List.range count).map fun eventPId => (eventPId, conf)

theorem configurePort_ends (lib : EventPortLib) {conf : RteEventPortConf} (linked : Nat → Bool)
    {nbPorts : BitVec 8} {count : Nat} {ports : EventPorts × List (Nat × RteEventPortConf)}
    (done : PortsConfigured nbPorts conf count ports) :
    Ends (PortsConfigured nbPorts conf (count + 1)) Panics
      (configurePort lib conf linked ports count) := by
  refine (orPanic_ends _).bind ?_
  intro _ _
  refine (orPanic_ends _).bind ?_
  intro _ _
  refine ⟨⟨done.filled.nbPorts, ?_⟩, ?_⟩
  · intro other before
    rcases Nat.lt_succ_iff_lt_or_eq.mp before with earlier | same
    · rw [← done.filled.entries other earlier]
      exact Function.update_of_ne (Nat.ne_of_lt earlier) _ _
    · rw [same]
      exact Function.update_self _ _ _
  · rw [done.configured, List.range_succ, List.map_append]
    rfl

/-- What is there behind a setup for the default configuration of the device. -/
structure EventPortsSetUp (rsrc : EventResources) (defPConf : RteEventPortConf)
    (setup : EventPortSetup) : Prop where
  filled : setup.rsrc.evp.Filled rsrc.evp.nbPorts rsrc.evp.nbPorts.toNat
  kept : setup.rsrc.defPConf = eventPConf rsrc.disableImplicitRelease defPConf
  deqDepth : setup.rsrc.deqDepth = defPConf.dequeueDepth.setWidth 8
  configured : setup.configured =
    (List.range rsrc.evp.nbPorts.toNat).map fun eventPId => (eventPId, setup.rsrc.defPConf)

section Setup

variable {lib : EventPortLib} (rsrc : EventResources) {defPConf : RteEventPortConf}
  (given : lib.rteEventPortDefaultConfGet = some defPConf)

include given

theorem configurePorts_ends (linked : Nat → Bool) :
    Ends (EventPortsSetUp rsrc defPConf) Panics (configurePorts lib rsrc linked) := by
  rw [configurePorts, given]
  refine (orPanic_ends _).bind ?_
  intro _ _
  have ports : Ends (PortsConfigured rsrc.evp.nbPorts
      (eventPConf rsrc.disableImplicitRelease defPConf) rsrc.evp.nbPorts.toNat) Panics
      ((List.range rsrc.evp.nbPorts.toNat).foldlM
        (configurePort lib (eventPConf rsrc.disableImplicitRelease defPConf) linked)
        (⟨fun _ => 0#8, rsrc.evp.nbPorts⟩, [])) := by
    apply Ends.foldlM_range
    · intro count ports _ done
      exact configurePort_ends lib linked done
    · exact ⟨⟨rfl, fun _ impossible => absurd impossible (Nat.not_lt_zero _)⟩, rfl⟩
  refine ports.bind ?_
  intro configured done
  exact ⟨done.filled, rfl, rfl, done.configured⟩

theorem eventPortSetup_ends (ops : EventOps) :
    Ends (EventPortsSetUp rsrc defPConf) Panics (ops.eventPortSetup lib rsrc) := by
  cases ops with
  | generic => exact configurePorts_ends rsrc given _
  | internalPort => exact configurePorts_ends rsrc given _

end Setup

theorem eventPConf_dequeueDepth (release : BitVec 8) (defPConf : RteEventPortConf) :
    (eventPConf release defPConf).dequeueDepth.toNat = min defPConf.dequeueDepth.toNat 32 := by
  simp only [eventPConf, wantedPortConf, BitVec.lt_def]
  split
  · next smaller => exact (Nat.min_eq_left (Nat.le_of_lt smaller)).symm
  · next atLeast => exact (Nat.min_eq_right (Nat.not_lt.mp atLeast)).symm

theorem EventPortsSetUp.deqLen {rsrc : EventResources} {defPConf : RteEventPortConf}
    {setup : EventPortSetup} (setUp : EventPortsSetUp rsrc defPConf setup) :
    setup.rsrc.deqLen.toNat = defPConf.dequeueDepth.toNat % 256 := by
  rw [EventResources.deqLen, setUp.deqDepth, BitVec.toNat_setWidth, BitVec.toNat_setWidth]
  omega

/-! ## What the loops ask for -/

theorem mem_dequeueLoop {σ : Type} {process : σ → List RteEvent → σ} {deqLen : BitVec 16}
    {nbEvents : BitVec 16} : ∀ {answers : List (BitVec 16 → List RteEvent)} {state : σ},
    nbEvents ∈ dequeueLoop process deqLen state answers → nbEvents = deqLen := by
  intro answers
  induction answers with
  | nil =>
      intro state member
      cases member
  | cons answer rest induction =>
      intro state member
      rcases List.mem_cons.mp member with first | later
      · exact first
      · exact induction later

theorem mem_eventLoop {σ : Type} {rsrc : EventResources} {process : σ → List RteEvent → σ}
    {eventPId : Int} {state : σ} {answers : List (BitVec 16 → List RteEvent)}
    {nbEvents : BitVec 16} (member : nbEvents ∈ rsrc.eventLoop process eventPId state answers) :
    nbEvents = rsrc.deqLen := by
  rw [EventResources.eventLoop] at member
  split at member
  · cases member
  · exact mem_dequeueLoop member

/-- Whether the requests fit depends on `deq_len` alone. -/
theorem EventPortsSetUp.deqLenFits_iff {rsrc : EventResources} {defPConf : RteEventPortConf}
    {setup : EventPortSetup} (setUp : EventPortsSetUp rsrc defPConf setup) :
    setup.DeqLenFits ↔ 1 ≤ setup.rsrc.deqLen.toNat ∧
      setup.rsrc.deqLen.toNat ≤ setup.rsrc.defPConf.dequeueDepth.toNat := by
  constructor
  · intro fits
    -- one turn of a worker with an event port
    have request := fits Unit (fun state _ => state) 0 () [fun _ => []] setup.rsrc.deqLen
      List.mem_cons_self
    exact ⟨request.positive, request.kept⟩
  · intro bounds σ process eventPId state answers nbEvents member
    rw [mem_eventLoop member]
    refine ⟨bounds.1, bounds.2, ?_, ?_⟩
    · intro port conf configured _
      rw [setUp.configured] at configured
      rcases List.mem_map.mp configured with ⟨_, _, same⟩
      rw [← (Prod.mk.inj same).2]
      exact bounds.2
    · have small : setup.rsrc.deqLen.toNat < 256 := by
        rw [setUp.deqLen]
        exact Nat.mod_lt _ (by decide)
      exact Nat.le_of_lt (small.trans (by decide))

/-- The requests of the workers fit if and only if the lower eight bits of the depth the
device reports are a depth from 1 to 32. -/
theorem eventPortSetup_deqLenFits_iff (ops : EventOps) {lib : EventPortLib}
    {rsrc : EventResources} {defPConf : RteEventPortConf} {setup : EventPortSetup}
    (given : lib.rteEventPortDefaultConfGet = some defPConf)
    (positive : 1 ≤ defPConf.dequeueDepth.toNat)
    (done : ops.eventPortSetup lib rsrc = .ok setup) :
    setup.DeqLenFits ↔
      1 ≤ defPConf.dequeueDepth.toNat % 256 ∧ defPConf.dequeueDepth.toNat % 256 ≤ 32 := by
  have setUp := (eventPortSetup_ends rsrc given ops).of_ok done
  rw [setUp.deqLenFits_iff, setUp.deqLen, setUp.kept, eventPConf_dequeueDepth]
  have below := Nat.mod_le defPConf.dequeueDepth.toNat 256
  omega

/-- A device that reports a depth and accepts everything. -/
def EventPortLib.reporting (depth : BitVec 16) : EventPortLib where
  mallocEventPId := fun _ => true
  rteEventPortDefaultConfGet := some ⟨4096#32, depth, 32#16, 0#32⟩
  rteEventPortSetup := fun _ _ => true
  rteEventPortLink := fun _ _ nbLinks => nbLinks.toInt

/-- Two event ports and three event queues. -/
def twoEventPorts : EventResources where
  defPConf := ⟨0#32, 0#16, 0#16, 0#32⟩
  disableImplicitRelease := 0#8
  evq := ⟨fun index => BitVec.ofNat 8 index, 3#8⟩
  evp := ⟨fun _ => 0#8, 2#8⟩
  deqDepth := 0#8

theorem eventPortSetup_deqLenFits_iff_sixteen :
    ∃ setup, EventOps.generic.eventPortSetup (.reporting 16#16) twoEventPorts = .ok setup ∧
      setup.DeqLenFits := by
  have done : EventOps.generic.eventPortSetup (.reporting 16#16) twoEventPorts = .ok _ := rfl
  have given : (EventPortLib.reporting 16#16).rteEventPortDefaultConfGet =
      some ⟨4096#32, 16#16, 32#16, 0#32⟩ := rfl
  exact ⟨_, done, (eventPortSetup_deqLenFits_iff .generic given (by decide) done).mpr (by decide)⟩

/-- With a depth of 64 the workers ask for more than the ports give, with a depth of 256
for nothing at all. -/
theorem eventPortSetup_deqLenExceeds :
    (∃ setup, l3fwdEventPortSetupGeneric (.reporting 64#16) twoEventPorts = .ok setup ∧
      setup.rsrc.deqLen = 64#16 ∧ setup.rsrc.defPConf.dequeueDepth = 32#16 ∧
      ¬ setup.DeqLenFits) ∧
    ∃ setup, l3fwdEventPortSetupInternalPort (.reporting 256#16) twoEventPorts = .ok setup ∧
      setup.rsrc.deqLen = 0#16 ∧ ¬ setup.DeqLenFits := by
  have asked {setup : EventPortSetup} (fits : setup.DeqLenFits) :=
    fits Unit (fun state _ => state) 0 () [fun _ => []] setup.rsrc.deqLen List.mem_cons_self
  constructor
  · refine ⟨_, rfl, rfl, rfl, ?_⟩
    intro fits
    exact absurd (asked fits).kept (by decide)
  · refine ⟨_, rfl, rfl, ?_⟩
    intro fits
    exact absurd (asked fits).positive (by decide)

end PacketForwarding.L3fwd
