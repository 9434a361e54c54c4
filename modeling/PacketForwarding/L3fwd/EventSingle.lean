import PacketForwarding.L3fwd.EmGeneric
import PacketForwarding.L3fwd.LpmLoop

/-! # The event loops that take one event at a time

A worker dequeues an event, processes its packet and enqueues it again, until it sees
that it has to quit. The clean-up behind the loop decides by two variables of the loop
what there is left to free. Shutdown can be requested between any two actions.
-/

namespace PacketForwarding.L3fwd

/-! ## Workers -/

/-- `RTE_EVENT_OP_NEW`, `RTE_EVENT_OP_FORWARD` and `RTE_EVENT_OP_RELEASE` -/
inductive RteEventOp
  | new
  | forward
  | release
  deriving Inhabited

/-- The part of an event that the loops read or write. -/
structure RteEvent where
  mbuf : MbufPtr
  queueId : BitVec 8
  op : RteEventOp
  deriving Inhabited

/-- `L3FWD_EVENT_TX_ENQ` with the queue for transmission, or `L3FWD_EVENT_TX_DIRECT` -/
inductive TxMode
  | enq (txQId : BitVec 8)
  | direct

/-- What a worker does to the packet of an event: process it, and perhaps already free
it. -/
structure EventWorker where
  process : RteMbuf → RteMbuf
  frees : RteMbuf → Bool
  txMode : TxMode

/-- The packet gets its destination port, new addresses and the RFC1812 checks. Without
vector instructions the addresses come first. -/
def lpmProcessEventPkt (build : Build) (env : Env) (tables : LpmTables) (mbuf : RteMbuf) :
    RteMbuf :=
  let mbuf := { mbuf with port := lpmGetDstPort tables mbuf mbuf.port }
  match build with
  | .simd => processOwnPort env mbuf
  | .generic =>
      let mbuf := { mbuf with data := setEthAddrs env mbuf.data mbuf.port }
      let (data, port) := rfc1812Process mbuf.data mbuf.port mbuf.packetType
      { mbuf with data := data, port := port }

/-- `em_get_dst_port` and `process_packet` on the port of the packet. -/
def emProcessEventPkt (env : Env) (tables : EmTables) (mbuf : RteMbuf) : RteMbuf :=
  processOwnPort env { mbuf with port := emGetDstPort env tables mbuf mbuf.port }

def lpmEventWorker (build : Build) (env : Env) (tables : LpmTables) (txMode : TxMode) :
    EventWorker where
  process := lpmProcessEventPkt build env tables
  frees := fun _ => false
  txMode := txMode

def emEventWorker (build : Build) (env : Env) (tables : EmTables) (txMode : TxMode) :
    EventWorker :=
  match build with
  | .simd =>
    { process := emProcessEventPkt env tables
      frees := fun _ => false
      txMode := txMode }
  | .generic =>
    { process := fun mbuf => (l3fwdEmSimpleProcess env tables mbuf).pkt
      frees := fun mbuf => (l3fwdEmSimpleProcess env tables mbuf).freed
      txMode := txMode }

namespace EventWorker

/-- The worker drops the packet. -/
def Drops (worker : EventWorker) (pkt : RteMbuf) : Prop :=
  (worker.process pkt).port = badPort

instance (worker : EventWorker) (pkt : RteMbuf) : Decidable (worker.Drops pkt) :=
  inferInstanceAs (Decidable (_ = _))

end EventWorker

/-! ## The loop -/

/-- Where the worker is: before the loop condition, at the dequeue, at the enqueue,
before the condition of the retry loop, at the clean-up or behind it. -/
inductive EventPc
  | head
  | dequeue
  | enqueue
  | retry
  | cleanup
  | done
  deriving DecidableEq

/-- The variables of the loop, the packets, and as seen from outside the mbufs given
back and those accepted for transmission. -/
structure EventLoop where
  pc : EventPc
  forceQuit : Bool
  enq : Nat
  deq : Nat
  ev : RteEvent
  mbufs : MbufHeap
  freed : List MbufPtr
  enqueued : List MbufPtr

/-- An action of the worker or, for `signal`, of the signal handler. A dequeue comes
with the event and its packet, if there is one, an enqueue with its success. -/
inductive EventAction
  | signal
  | test
  | dequeue (result : Option (RteEvent × RteMbuf))
  | enqueue (accepted : Bool)
  | cleanup

namespace EventLoop

def start (ev : RteEvent) (mbufs : MbufHeap) : EventLoop where
  pc := .head
  forceQuit := false
  enq := 0
  deq := 0
  ev := ev
  mbufs := mbufs
  freed := []
  enqueued := []

/-- Process the packet of a dequeued event, and drop it or get it ready. -/
def take (worker : EventWorker) (loop : EventLoop) (ev : RteEvent) (pkt : RteMbuf) :
    EventLoop :=
  let pkt' := worker.process pkt
  let loop := { loop with
    deq := 1
    ev := ev
    mbufs := Function.update loop.mbufs ev.mbuf pkt'
    freed := if worker.frees pkt then loop.freed ++ [ev.mbuf] else loop.freed }
  if pkt'.port = badPort then
    { loop with
      freed := loop.freed ++ [ev.mbuf]
      pc := .head }
  else
    match worker.txMode with
    | .enq txQId => { loop with
        ev := { ev with queueId := txQId, op := .forward }
        pc := .enqueue }
    | .direct => { loop with
        mbufs := Function.update loop.mbufs ev.mbuf { pkt' with txq := 0 }
        pc := .enqueue }

/-- `l3fwd_event_worker_cleanup` for a single event that is no vector. -/
def workerCleanup (loop : EventLoop) : EventLoop :=
  if loop.deq ≠ 0 then
    { loop with
      freed := loop.freed ++ (List.range' loop.enq (loop.deq - loop.enq)).map fun _ => loop.ev.mbuf
      ev := { loop.ev with op := .release }
      pc := .done }
  else
    { loop with pc := .done }

/-- One action, if the worker can take it where it is. -/
def step (worker : EventWorker) (loop : EventLoop) : EventAction → Option EventLoop
  | .signal => some { loop with forceQuit := true }
  | .test =>
      match loop.pc with
      | .head => some { loop with pc := if loop.forceQuit then .cleanup else .dequeue }
      | .retry => some { loop with
          pc := if loop.enq = 0 ∧ loop.forceQuit = false then .enqueue else .head }
      | _ => none
  | .dequeue result =>
      match loop.pc, result with
      | .dequeue, none => some { loop with deq := 0, pc := .head }
      | .dequeue, some (ev, pkt) => some (loop.take worker ev pkt)
      | _, _ => none
  | .enqueue accepted =>
      match loop.pc, accepted with
      | .enqueue, true => some { loop with
          enq := 1
          enqueued := loop.enqueued ++ [loop.ev.mbuf]
          pc := .retry }
      | .enqueue, false => some { loop with enq := 0, pc := .retry }
      | _, _ => none
  | .cleanup =>
      match loop.pc with
      | .cleanup => some loop.workerCleanup
      | _ => none

/-- The loop after a list of actions. -/
def run (worker : EventWorker) (loop : EventLoop) (actions : List EventAction) :
    Option EventLoop :=
  actions.foldlM (step worker) loop

end EventLoop

/-! ## What a run was given -/

/-- The event of an action, if it dequeues one. -/
def EventAction.taken : EventAction → List (RteEvent × RteMbuf)
  | .dequeue (some event) => [event]
  | _ => []

/-- The mbufs obtained by a run. -/
def dequeuedBy (actions : List EventAction) : List MbufPtr :=
  (actions.flatMap EventAction.taken).map fun event => event.1.mbuf

/-- The mbufs obtained by a run that their processing already frees. -/
def freedInside (worker : EventWorker) (actions : List EventAction) : List MbufPtr :=
  ((actions.flatMap EventAction.taken).filter fun event => worker.frees event.2).map
    fun event => event.1.mbuf

/-- What matters of the actions so far: the mbufs that were obtained or freed in their
processing, whether the last dequeue got a packet that was dropped, and whether an
enqueue succeeded. -/
structure EventHistory where
  given : List MbufPtr
  dropped : Bool
  accepted : Bool

namespace EventHistory

def next (worker : EventWorker) (history : EventHistory) : EventAction → EventHistory
  | .dequeue none => { history with dropped := false }
  | .dequeue (some (ev, pkt)) => { history with
      given := history.given ++ (if worker.frees pkt then [ev.mbuf, ev.mbuf] else [ev.mbuf])
      dropped := decide (worker.Drops pkt) }
  | .enqueue true => { history with accepted := true }
  | _ => history

def of (worker : EventWorker) (actions : List EventAction) : EventHistory :=
  actions.foldl (next worker) ⟨[], false, false⟩

theorem dequeuedBy_cons (action : EventAction) (rest : List EventAction) :
    dequeuedBy (action :: rest) = dequeuedBy [action] ++ dequeuedBy rest := by
  simp only [dequeuedBy, List.flatMap_cons, List.flatMap_nil, List.append_nil, List.map_append]

theorem freedInside_cons (worker : EventWorker) (action : EventAction)
    (rest : List EventAction) :
    freedInside worker (action :: rest) =
      freedInside worker [action] ++ freedInside worker rest := by
  simp only [freedInside, List.flatMap_cons, List.flatMap_nil, List.append_nil,
    List.filter_append, List.map_append]

theorem given_next (worker : EventWorker) (history : EventHistory) (action : EventAction) :
    (history.next worker action).given =
      history.given ++ (dequeuedBy [action] ++ freedInside worker [action]) := by
  cases action with
  | dequeue result =>
      cases result with
      | none => exact (List.append_nil _).symm
      | some event =>
          cases frees : worker.frees event.2 with
          | true => simp [next, dequeuedBy, freedInside, EventAction.taken, frees]
          | false => simp [next, dequeuedBy, freedInside, EventAction.taken, frees]
  | enqueue accepted =>
      cases accepted with
      | true => exact (List.append_nil _).symm
      | false => exact (List.append_nil _).symm
  | signal => exact (List.append_nil _).symm
  | test => exact (List.append_nil _).symm
  | cleanup => exact (List.append_nil _).symm

theorem given_of (worker : EventWorker) (actions : List EventAction) :
    (of worker actions).given.Perm (dequeuedBy actions ++ freedInside worker actions) := by
  have general : ∀ (actions : List EventAction) (history : EventHistory),
      (actions.foldl (next worker) history).given.Perm
        (history.given ++ (dequeuedBy actions ++ freedInside worker actions)) := by
    intro actions
    induction actions with
    | nil =>
        intro history
        exact List.Perm.of_eq (List.append_nil _).symm
    | cons action rest induction =>
        intro history
        rw [List.foldl_cons, dequeuedBy_cons, freedInside_cons]
        apply (induction (history.next worker action)).trans
        rw [given_next, List.perm_iff_count]
        intro mbuf
        simp only [List.count_append]
        omega
  have fromStart := general actions ⟨[], false, false⟩
  rw [List.nil_append] at fromStart
  exact fromStart

end EventHistory

/-- The run stopped right after it dropped a packet, and had never enqueued one. -/
def StopsInEarlyDrop (worker : EventWorker) (actions : List EventAction) : Prop :=
  (EventHistory.of worker actions).dropped = true ∧
    (EventHistory.of worker actions).accepted = false

/-! ## Where the mbufs are -/

namespace EventLoop

variable (history : EventHistory) (loop : EventLoop)

/-- Everything given was disposed of. -/
def Settled : Prop :=
  (loop.freed ++ loop.enqueued).Perm history.given

/-- Everything given was disposed of, but for the mbuf of the last event, which is
still in hand. -/
def Holds : Prop :=
  loop.deq = 1 ∧ history.dropped = false ∧
    (loop.freed ++ loop.enqueued ++ [loop.ev.mbuf]).Perm history.given

/-- Everything given was disposed of, and the mbuf of the last event once more. -/
def FreedTwice : Prop :=
  (loop.freed ++ loop.enqueued).Perm (history.given ++ [loop.ev.mbuf])

/-- `enq` tells whether something was enqueued. -/
def EnqTells : Prop :=
  loop.enq = if history.accepted then 1 else 0

/-- Nothing is in hand. If `deq` says otherwise, then because the last packet was
dropped, or `enq` says that it is gone. -/
structure Rests : Prop where
  settled : loop.Settled history
  enqTells : loop.EnqTells history
  deqTells : (loop.deq = 0 ∧ history.dropped = false) ∨
    (loop.deq = 1 ∧ (history.dropped = true ∨ loop.enq = 1))

/-- What holds after some actions, by the place of the worker. -/
def Inv : Prop :=
  match loop.pc with
  | .head =>
      loop.Rests history ∨ (loop.Holds history ∧ loop.enq = 0 ∧ loop.forceQuit = true)
  | .dequeue => loop.Settled history ∧ loop.EnqTells history
  | .enqueue => loop.Holds history
  | .retry => (loop.Holds history ∧ loop.enq = 0) ∨ (loop.Rests history ∧ loop.enq = 1)
  | .cleanup => loop.Rests history ∨ (loop.Holds history ∧ loop.enq = 0)
  | .done =>
      (loop.Settled history ∧ ¬ (history.dropped = true ∧ history.accepted = false)) ∨
        (loop.FreedTwice history ∧ history.dropped = true ∧ history.accepted = false)

end EventLoop

/-- A worker frees packets only where it also says that they are dropped. -/
def EventWorker.Lawful (worker : EventWorker) : Prop :=
  ∀ pkt, worker.frees pkt = true → worker.Drops pkt

namespace EventLoop

theorem start_inv (ev : RteEvent) (mbufs : MbufHeap) :
    (start ev mbufs).Inv ⟨[], false, false⟩ := by
  refine Or.inl ⟨List.Perm.nil, rfl, Or.inl ⟨rfl, rfl⟩⟩

/-- A dequeued event is in hand, or its packet was dropped. -/
theorem take_inv {worker : EventWorker} (lawful : worker.Lawful) {history : EventHistory}
    {loop : EventLoop} (ev : RteEvent) (pkt : RteMbuf) (settled : loop.Settled history)
    (enqTells : loop.EnqTells history) :
    (loop.take worker ev pkt).Inv (history.next worker (.dequeue (some (ev, pkt)))) := by
  unfold take
  dsimp only
  split
  · rename_i isBad
    have drops : worker.Drops pkt := isBad
    refine Or.inl ⟨?_, enqTells, Or.inr ⟨rfl, Or.inl (decide_eq_true drops)⟩⟩
    simp only [Settled, EventHistory.next] at settled ⊢
    rw [List.perm_iff_count] at settled ⊢
    intro mbuf
    have before := settled mbuf
    by_cases frees : worker.frees pkt = true
    · simp only [frees, if_true, List.count_append, List.count_cons, List.count_nil] at before ⊢
      omega
    · simp only [frees, Bool.false_eq_true, if_false, List.count_append] at before ⊢
      omega
  · rename_i notBad
    have keeps : ¬ worker.frees pkt = true := fun frees => notBad (lawful pkt frees)
    have stays : decide (worker.Drops pkt) = false := decide_eq_false notBad
    have holds : (loop.freed ++ loop.enqueued ++ [ev.mbuf]).Perm (history.given ++ [ev.mbuf]) :=
      settled.append_right _
    simp only [keeps, Bool.false_eq_true, if_false]
    cases worker.txMode with
    | enq txQId =>
        refine ⟨rfl, stays, ?_⟩
        simp only [EventHistory.next, keeps, Bool.false_eq_true, if_false]
        exact holds
    | direct =>
        refine ⟨rfl, stays, ?_⟩
        simp only [EventHistory.next, keeps, Bool.false_eq_true, if_false]
        exact holds

/-- The clean-up frees what is in hand, and also what was dropped before anything was
enqueued. -/
theorem workerCleanup_inv {history : EventHistory} {loop : EventLoop}
    (before : loop.Rests history ∨ (loop.Holds history ∧ loop.enq = 0)) :
    loop.workerCleanup.Inv history := by
  unfold workerCleanup
  rcases before with rests | ⟨⟨deq, notDropped, held⟩, enq⟩
  · rcases rests with ⟨settled, enqTells, ⟨deq, notDropped⟩ | ⟨deq, excuse⟩⟩
    · rw [if_neg (not_not_intro deq)]
      refine Or.inl ⟨settled, fun both => ?_⟩
      rw [notDropped] at both
      cases both.1
    · have some : loop.deq ≠ 0 := by
        rw [deq]
        decide
      rw [if_pos some]
      cases accepted : history.accepted with
      | true =>
          have enq : loop.enq = 1 := by simpa [EnqTells, accepted] using enqTells
          refine Or.inl ⟨?_, fun both => ?_⟩
          · simpa [Settled, deq, enq] using settled
          · rw [accepted] at both
            cases both.2
      | false =>
          have enq : loop.enq = 0 := by simpa [EnqTells, accepted] using enqTells
          have dropped : history.dropped = true := by
            rcases excuse with dropped | gone
            · exact dropped
            · rw [enq] at gone
              cases gone
          refine Or.inr ⟨?_, dropped, accepted⟩
          simp only [FreedTwice, Settled, deq, enq] at settled ⊢
          rw [List.perm_iff_count] at settled ⊢
          intro mbuf
          have once := settled mbuf
          simp [List.count_cons] at once ⊢
          omega
  · have some : loop.deq ≠ 0 := by
      rw [deq]
      decide
    rw [if_pos some]
    refine Or.inl ⟨?_, fun both => ?_⟩
    · simp only [Settled, deq, enq] at held ⊢
      rw [List.perm_iff_count] at held ⊢
      intro mbuf
      have once := held mbuf
      simp [List.count_cons] at once ⊢
      omega
    · rw [notDropped] at both
      cases both.1

/-- What is settled does not depend on where the worker is. -/
theorem Rests.anywhere {history : EventHistory} {loop : EventLoop} (rests : loop.Rests history)
    (pc : EventPc) (forceQuit : Bool) :
    Rests history { loop with pc := pc, forceQuit := forceQuit } where
  settled := rests.settled
  enqTells := rests.enqTells
  deqTells := rests.deqTells

/-- What is known at a place stays true when shutdown is requested. -/
theorem signal_inv {history : EventHistory} {loop : EventLoop} (inv : loop.Inv history) :
    Inv history { loop with forceQuit := true } := by
  unfold Inv at inv ⊢
  cases place : loop.pc with
  | head =>
      simp only [place] at inv
      exact inv.imp (fun rests => rests.anywhere _ _) fun held => ⟨held.1, held.2.1, rfl⟩
  | dequeue =>
      simp only [place] at inv
      exact inv
  | enqueue =>
      simp only [place] at inv
      exact inv
  | retry =>
      simp only [place] at inv
      exact inv.imp_right fun gone => ⟨gone.1.anywhere _ _, gone.2⟩
  | cleanup =>
      simp only [place] at inv
      exact inv.imp_left fun rests => rests.anywhere _ _
  | done =>
      simp only [place] at inv
      exact inv

theorem test_cases {worker : EventWorker} {loop next : EventLoop}
    (stepped : loop.step worker .test = some next) :
    (loop.pc = .head ∧
        next = { loop with pc := if loop.forceQuit then .cleanup else .dequeue }) ∨
      (loop.pc = .retry ∧ next = { loop with
        pc := if loop.enq = 0 ∧ loop.forceQuit = false then .enqueue else .head }) := by
  unfold step at stepped
  cases place : loop.pc with
  | head =>
      simp only [place, Option.some.injEq] at stepped
      exact Or.inl ⟨rfl, stepped.symm⟩
  | retry =>
      simp only [place, Option.some.injEq] at stepped
      exact Or.inr ⟨rfl, stepped.symm⟩
  | _ => simp [place] at stepped

theorem dequeue_cases {worker : EventWorker} {loop next : EventLoop}
    {result : Option (RteEvent × RteMbuf)}
    (stepped : loop.step worker (.dequeue result) = some next) :
    loop.pc = .dequeue ∧
      ((result = none ∧ next = { loop with deq := 0, pc := .head }) ∨
        ∃ ev pkt, result = some (ev, pkt) ∧ next = loop.take worker ev pkt) := by
  unfold step at stepped
  cases place : loop.pc with
  | dequeue =>
      cases result with
      | none =>
          simp only [place, Option.some.injEq] at stepped
          exact ⟨rfl, Or.inl ⟨rfl, stepped.symm⟩⟩
      | some event =>
          simp only [place, Option.some.injEq] at stepped
          exact ⟨rfl, Or.inr ⟨event.1, event.2, rfl, stepped.symm⟩⟩
  | _ => simp [place] at stepped

theorem enqueue_cases {worker : EventWorker} {loop next : EventLoop} {accepted : Bool}
    (stepped : loop.step worker (.enqueue accepted) = some next) :
    loop.pc = .enqueue ∧
      ((accepted = true ∧ next = { loop with
          enq := 1
          enqueued := loop.enqueued ++ [loop.ev.mbuf]
          pc := .retry }) ∨
        (accepted = false ∧ next = { loop with enq := 0, pc := .retry })) := by
  unfold step at stepped
  cases place : loop.pc with
  | enqueue =>
      cases accepted with
      | true =>
          simp only [place, Option.some.injEq] at stepped
          exact ⟨rfl, Or.inl ⟨rfl, stepped.symm⟩⟩
      | false =>
          simp only [place, Option.some.injEq] at stepped
          exact ⟨rfl, Or.inr ⟨rfl, stepped.symm⟩⟩
  | _ => simp [place] at stepped

theorem cleanup_cases {worker : EventWorker} {loop next : EventLoop}
    (stepped : loop.step worker .cleanup = some next) :
    loop.pc = .cleanup ∧ next = loop.workerCleanup := by
  unfold step at stepped
  cases place : loop.pc with
  | cleanup =>
      simp only [place, Option.some.injEq] at stepped
      exact ⟨rfl, stepped.symm⟩
  | _ => simp [place] at stepped

/-- One action keeps the books. -/
theorem step_inv {worker : EventWorker} (lawful : worker.Lawful) {history : EventHistory}
    {loop next : EventLoop} {action : EventAction} (inv : loop.Inv history)
    (stepped : loop.step worker action = some next) :
    next.Inv (history.next worker action) := by
  cases action with
  | signal =>
      cases stepped
      exact signal_inv inv
  | test =>
      rcases test_cases stepped with ⟨place, rfl⟩ | ⟨place, rfl⟩
      · simp only [Inv, place] at inv
        cases quit : loop.forceQuit with
        | false =>
            rcases inv with rests | ⟨-, -, quits⟩
            · exact ⟨rests.settled, rests.enqTells⟩
            · rw [quit] at quits
              cases quits
        | true =>
            exact inv.imp (fun rests => rests.anywhere _ _) fun held => ⟨held.1, held.2.1⟩
      · simp only [Inv, place] at inv
        rcases inv with ⟨holds, enq⟩ | ⟨rests, enq⟩
        · cases quit : loop.forceQuit with
          | false =>
              rw [if_pos ⟨enq, rfl⟩]
              exact holds
          | true =>
              have quits : ¬ (loop.enq = 0 ∧ true = false) := by simp
              rw [if_neg quits]
              exact Or.inr ⟨holds, enq, rfl⟩
        · have gone : ¬ (loop.enq = 0 ∧ loop.forceQuit = false) := by
            rintro ⟨zero, -⟩
            omega
          rw [if_neg gone]
          exact Or.inl (rests.anywhere _ _)
  | dequeue result =>
      rcases dequeue_cases stepped with ⟨place, ⟨rfl, rfl⟩ | ⟨ev, pkt, rfl, rfl⟩⟩
      · simp only [Inv, place] at inv
        exact Or.inl ⟨inv.1, inv.2, Or.inl ⟨rfl, rfl⟩⟩
      · simp only [Inv, place] at inv
        exact take_inv lawful ev pkt inv.1 inv.2
  | enqueue accepted =>
      rcases enqueue_cases stepped with ⟨place, ⟨rfl, rfl⟩ | ⟨rfl, rfl⟩⟩
      · simp only [Inv, place] at inv
        rcases inv with ⟨deq, -, held⟩
        have settled :
            (loop.freed ++ (loop.enqueued ++ [loop.ev.mbuf])).Perm history.given := by
          rw [← List.append_assoc]
          exact held
        exact Or.inr ⟨⟨settled, rfl, Or.inr ⟨deq, Or.inr rfl⟩⟩, rfl⟩
      · simp only [Inv, place] at inv
        exact Or.inl ⟨inv, rfl⟩
  | cleanup =>
      rcases cleanup_cases stepped with ⟨place, rfl⟩
      simp only [Inv, place] at inv
      exact workerCleanup_inv inv

/-- What every action keeps, a run keeps. -/
theorem run_keeps {worker : EventWorker} {keeps : EventHistory → EventLoop → Prop}
    (steps : ∀ {history loop next action}, keeps history loop →
      loop.step worker action = some next → keeps (history.next worker action) next) :
    ∀ (actions : List EventAction) {history : EventHistory} {loop final : EventLoop},
      keeps history loop → loop.run worker actions = some final →
        keeps (actions.foldl (EventHistory.next worker) history) final := by
  intro actions
  induction actions with
  | nil =>
      intro history loop final kept ran
      cases ran
      exact kept
  | cons action rest induction =>
      intro history loop final kept ran
      rw [run, List.foldlM_cons, Option.bind_eq_bind, Option.bind_eq_some_iff] at ran
      rcases ran with ⟨next, stepped, ran⟩
      exact induction (steps kept stepped) ran

/-- A run keeps the books. -/
theorem run_inv {worker : EventWorker} (lawful : worker.Lawful) {ev : RteEvent}
    {mbufs : MbufHeap} {actions : List EventAction} {final : EventLoop}
    (ran : (start ev mbufs).run worker actions = some final) :
    final.Inv (EventHistory.of worker actions) :=
  run_keeps (fun inv stepped => step_inv lawful inv stepped) actions (start_inv ev mbufs) ran

/-- A packet that waits to be enqueued is not marked as bad. -/
def Ready (loop : EventLoop) : Prop :=
  loop.pc = .enqueue ∨ (loop.pc = .retry ∧ loop.enq = 0) →
    (loop.mbufs loop.ev.mbuf).port ≠ badPort

theorem start_ready (ev : RteEvent) (mbufs : MbufHeap) : (start ev mbufs).Ready := by
  rintro (atEnqueue | ⟨atRetry, -⟩)
  · cases atEnqueue
  · cases atRetry

theorem take_ready (worker : EventWorker) (loop : EventLoop) (ev : RteEvent) (pkt : RteMbuf) :
    (loop.take worker ev pkt).Ready := by
  unfold take
  dsimp only
  split
  · rintro (atEnqueue | ⟨atRetry, -⟩)
    · cases atEnqueue
    · cases atRetry
  · rename_i notBad
    cases worker.txMode with
    | enq txQId =>
        intro _
        simpa using notBad
    | direct =>
        intro _
        simpa using notBad

theorem step_ready {worker : EventWorker} {loop next : EventLoop} {action : EventAction}
    (ready : loop.Ready) (stepped : loop.step worker action = some next) : next.Ready := by
  cases action with
  | signal =>
      cases stepped
      exact ready
  | test =>
      rcases test_cases stepped with ⟨place, rfl⟩ | ⟨place, rfl⟩
      · rintro (atEnqueue | ⟨atRetry, -⟩)
        · cases quit : loop.forceQuit with
          | false => simp [quit] at atEnqueue
          | true => simp [quit] at atEnqueue
        · cases quit : loop.forceQuit with
          | false => simp [quit] at atRetry
          | true => simp [quit] at atRetry
      · by_cases again : loop.enq = 0 ∧ loop.forceQuit = false
        · exact fun _ => ready (Or.inr ⟨place, again.1⟩)
        · rintro (atEnqueue | ⟨atRetry, -⟩)
          · simp [again] at atEnqueue
          · simp [again] at atRetry
  | dequeue result =>
      rcases dequeue_cases stepped with ⟨place, ⟨rfl, rfl⟩ | ⟨ev, pkt, rfl, rfl⟩⟩
      · rintro (atEnqueue | ⟨atRetry, -⟩)
        · cases atEnqueue
        · cases atRetry
      · exact take_ready worker loop ev pkt
  | enqueue accepted =>
      rcases enqueue_cases stepped with ⟨place, ⟨rfl, rfl⟩ | ⟨rfl, rfl⟩⟩
      · rintro (atEnqueue | ⟨-, none⟩)
        · cases atEnqueue
        · cases none
      · exact fun _ => ready (Or.inl place)
  | cleanup =>
      rcases cleanup_cases stepped with ⟨place, rfl⟩
      have done : loop.workerCleanup.pc = .done := by
        unfold workerCleanup
        split <;> rfl
      rintro (atEnqueue | ⟨atRetry, -⟩)
      · rw [done] at atEnqueue
        cases atEnqueue
      · rw [done] at atRetry
        cases atRetry

theorem run_ready {worker : EventWorker} {ev : RteEvent} {mbufs : MbufHeap}
    {actions : List EventAction} {final : EventLoop}
    (ran : (start ev mbufs).run worker actions = some final) : final.Ready :=
  @run_keeps worker (fun _ loop => loop.Ready) (fun ready stepped => step_ready ready stepped)
    actions (EventHistory.of worker []) _ _ (start_ready ev mbufs) ran

end EventLoop

/-! ## Every mbuf is disposed of once -/

/-- A complete run gives back or enqueues what it obtained, each mbuf as often as it
was obtained, if and only if no processing freed an mbuf and the run did not stop in an
early drop. -/
theorem EventLoop.disposes_iff {worker : EventWorker} (lawful : worker.Lawful) {ev : RteEvent}
    {mbufs : MbufHeap} {actions : List EventAction} {final : EventLoop}
    (ran : (EventLoop.start ev mbufs).run worker actions = some final)
    (complete : final.pc = .done) :
    (final.freed ++ final.enqueued).Perm (dequeuedBy actions) ↔
      freedInside worker actions = [] ∧ ¬ StopsInEarlyDrop worker actions := by
  have inv := EventLoop.run_inv lawful ran
  have given := EventHistory.given_of worker actions
  simp only [EventLoop.Inv, complete] at inv
  rcases inv with ⟨settled, notEarly⟩ | ⟨twice, early⟩
  · have once := settled.trans given
    constructor
    · intro disposed
      have lengths := (disposed.symm.trans once).length_eq
      rw [List.length_append] at lengths
      have nothing : (freedInside worker actions).length = 0 := by omega
      exact ⟨List.eq_nil_of_length_eq_zero nothing, notEarly⟩
    · rintro ⟨nothing, -⟩
      rw [nothing, List.append_nil] at once
      exact once
  · have tooMany := twice.trans (given.append_right _)
    constructor
    · intro disposed
      have lengths := (disposed.symm.trans tooMany).length_eq
      simp only [List.length_append, List.length_singleton] at lengths
      omega
    · rintro ⟨-, notEarly⟩
      exact absurd early notEarly

theorem EventWorker.lawful_of_keeps {worker : EventWorker}
    (keeps : ∀ pkt, worker.frees pkt = false) : worker.Lawful := by
  intro pkt frees
  rw [keeps pkt] at frees
  cases frees

theorem freedInside_of_keeps {worker : EventWorker} (keeps : ∀ pkt, worker.frees pkt = false)
    (actions : List EventAction) : freedInside worker actions = [] := by
  simp [freedInside, keeps]

/-- The workers that leave it to the loop to free a packet. -/
def keepingWorkers (env : Env) (lpm : LpmTables) (em : EmTables) (txMode : TxMode) :
    List EventWorker :=
  [lpmEventWorker .simd env lpm txMode, lpmEventWorker .generic env lpm txMode,
    emEventWorker .simd env em txMode]

theorem keeps_of_mem {env : Env} {lpm : LpmTables} {em : EmTables} {txMode : TxMode}
    {worker : EventWorker} (member : worker ∈ keepingWorkers env lpm em txMode)
    (pkt : RteMbuf) : worker.frees pkt = false := by
  simp only [keepingWorkers, List.mem_cons, List.not_mem_nil, or_false] at member
  rcases member with rfl | rfl | rfl
  · rfl
  · rfl
  · rfl

/-- A complete run of a loop disposes of every mbuf it obtained exactly once, if and only
if it does not stop right after it dropped a packet, having enqueued none. -/
theorem eventLoopSingle_disposes_iff (env : Env) (lpm : LpmTables) (em : EmTables)
    (txMode : TxMode) {worker : EventWorker} (isWorker : worker ∈ keepingWorkers env lpm em txMode)
    {ev : RteEvent} {mbufs : MbufHeap} {actions : List EventAction} {final : EventLoop}
    (ran : (EventLoop.start ev mbufs).run worker actions = some final)
    (complete : final.pc = .done) :
    (final.freed ++ final.enqueued).Perm (dequeuedBy actions) ↔
      ¬ StopsInEarlyDrop worker actions := by
  have keeps := keeps_of_mem isWorker
  rw [EventLoop.disposes_iff (EventWorker.lawful_of_keeps keeps) ran complete,
    freedInside_of_keeps keeps]
  exact and_iff_right rfl

/-- A run that enqueues a packet at the second try, drops the next one and stops. -/
theorem eventLoopSingle_disposes_iff_retry :
    let worker := lpmEventWorker .simd default (singleRouteTables 0#32) (.enq 1#8)
    let bad : RteMbuf := { (default : RteMbuf) with packetType := 0x10#32 }
    let actions : List EventAction := [.test, .dequeue (some (⟨7, 0#8, .new⟩, default)),
      .enqueue false, .test, .enqueue true, .test, .test,
      .dequeue (some (⟨8, 0#8, .new⟩, bad)), .signal, .test, .cleanup]
    ∃ final, (EventLoop.start default fun _ => default).run worker actions = some final ∧
      final.freed = [8] ∧ (final.freed ++ final.enqueued).Perm [7, 8] := by
  intro worker bad actions
  have evaluated : ((EventLoop.start default fun _ => default).run worker actions).map
      (fun final => (final.pc, final.freed)) = some (.done, [8]) := by
    decide +kernel
  rcases Option.map_eq_some_iff.mp evaluated with ⟨final, ran, values⟩
  simp only [Prod.mk.injEq] at values
  have notEarly : ¬ StopsInEarlyDrop worker actions := by
    rintro ⟨-, none⟩
    revert none
    decide +kernel
  exact ⟨final, ran, values.2, (eventLoopSingle_disposes_iff default (singleRouteTables 0#32)
    (oneInterfaceTables 0#8) (.enq 1#8) List.mem_cons_self ran values.1).mpr notEarly⟩

/-- The first packet is dropped, and then the loop has to quit. -/
theorem eventLoopSingle_freesTwice :
    let worker := lpmEventWorker .simd default (singleRouteTables 0#32) .direct
    let bad : RteMbuf := { (default : RteMbuf) with packetType := 0x10#32 }
    let actions : List EventAction :=
      [.test, .dequeue (some (⟨7, 0#8, .new⟩, bad)), .signal, .test, .cleanup]
    ∃ final, (EventLoop.start default fun _ => default).run worker actions = some final ∧
      final.pc = .done ∧ dequeuedBy actions = [7] ∧ final.freed = [7, 7] := by
  intro worker bad actions
  have evaluated : ((EventLoop.start default fun _ => default).run worker actions).map
      (fun final => (final.pc, final.freed)) = some (.done, [7, 7]) := by
    decide +kernel
  rcases Option.map_eq_some_iff.mp evaluated with ⟨final, ran, values⟩
  simp only [Prod.mk.injEq] at values
  exact ⟨final, ran, values.1, rfl, values.2⟩

/-! ## The generic exact match path -/

/-- The generic worker frees exactly the packets that are refused. -/
theorem emEventWorker_frees_iff (env : Env) (tables : EmTables) (txMode : TxMode)
    (pkt : RteMbuf) :
    (emEventWorker .generic env tables txMode).frees pkt = true ↔ EmRefused env pkt := by
  change (l3fwdEmSimpleProcess env tables pkt).freed = true ↔ _
  unfold l3fwdEmSimpleProcess EmRefused
  by_cases isIpv4 : IsEmIpv4 pkt
  · by_cases refused : (isValidIpv4Pkt env pkt.data pkt.pktLen pkt.olFlags).2 < 0
    · simp [isIpv4, refused, l3fwdEmHandleIpv4]
    · simp [isIpv4, refused, l3fwdEmHandleIpv4]
  · by_cases isIpv6 : IsEmIpv6 pkt
    · simp [isIpv4, isIpv6, l3fwdEmHandleIpv6]
    · simp [isIpv4, isIpv6]

theorem emEventWorker_lawful (env : Env) (tables : EmTables) (txMode : TxMode) :
    (emEventWorker .generic env tables txMode).Lawful := by
  intro pkt frees
  rcases (emEventWorker_frees_iff env tables txMode pkt).mp frees with ⟨isIpv4, refused⟩
  change (l3fwdEmSimpleProcess env tables pkt).pkt.port = badPort
  simp [l3fwdEmSimpleProcess, isIpv4, l3fwdEmHandleIpv4, refused]

theorem freedInside_eq_nil_iff {worker : EventWorker} {actions : List EventAction} :
    freedInside worker actions = [] ↔
      ∀ event ∈ actions.flatMap EventAction.taken, ¬ worker.frees event.2 = true := by
  rw [freedInside, List.map_eq_nil_iff, List.filter_eq_nil_iff]

/-- On the generic exact match path, every packet is disposed of exactly once if and
only if no packet is refused and, with events, the loop does not stop in an early drop. -/
theorem l3fwdEmSimple_disposes_iff (env : Env) (tables : EmTables)
    (burst : 0 < env.rxBurstSize ∧ env.rxBurstSize ≤ maxPktBurst) :
    (∀ (state : LcoreState) (steps : List EmStep), (∀ port, state.txLen port = 0) →
      state.txLog = [] → state.freed = [] → (∀ step ∈ steps, step.WellFormed) →
      ((∃ final, runEm env tables state steps = .ok final ∧
          final.totalCustody.items.Perm (steps.flatMap EmStep.handed)) ↔
        ∀ step ∈ steps, ¬ step.Refused env)) ∧
    (∀ (txMode : TxMode) (ev : RteEvent) (mbufs : MbufHeap) (actions : List EventAction)
      (final : EventLoop),
      (EventLoop.start ev mbufs).run (emEventWorker .generic env tables txMode) actions =
        some final → final.pc = .done →
      ((final.freed ++ final.enqueued).Perm (dequeuedBy actions) ↔
        (∀ event ∈ actions.flatMap EventAction.taken, ¬ EmRefused env event.2) ∧
          ¬ StopsInEarlyDrop (emEventWorker .generic env tables txMode) actions)) := by
  constructor
  · intro state steps emptyBuffers nothingSent nothingFreed wellFormed
    have below : state.Below env.rxBurstSize := by
      intro port _
      rw [emptyBuffers port]
      exact burst.1
    rcases runEm_spec burst tables steps state below wellFormed with ⟨accepts, refuses⟩
    constructor
    · rintro ⟨final, ran, -⟩ step member refused
      rw [refuses ⟨step, member, refused⟩] at ran
      cases ran
    · intro accepted
      rcases accepts accepted with ⟨final, stats, ran, account⟩
      have total := account.total
      rw [LcoreState.totalCustody_of_empty emptyBuffers nothingSent nothingFreed,
        List.nil_append] at total
      exact ⟨final, ran, total⟩
  · intro txMode ev mbufs actions final ran complete
    rw [EventLoop.disposes_iff (emEventWorker_lawful env tables txMode) ran complete,
      freedInside_eq_nil_iff]
    simp only [emEventWorker_frees_iff]

/-- A packet that is valid, polled and drained, and the same packet in an event. -/
theorem l3fwdEmSimple_disposes_iff_valid :
    let env : Env := { (default : Env) with rxBurstSize := 32 }
    let tables := oneInterfaceTables 5#8
    let worker := emEventWorker .generic env tables .direct
    let pkt : RteMbuf := { (default : RteMbuf) with
      packetType := 0x210#32
      pktLen := 60#32
      data := fun address => if address = 14 then 0x45#8 else if address = 17 then 60#8 else 0#8 }
    let actions : List EventAction := [.test, .dequeue (some (⟨3, 0#8, .new⟩, pkt)),
      .enqueue true, .test, .signal, .test, .cleanup]
    (∃ final, runEm env tables default [.forward 3 pkt 0#16, .drain 0#16] = .ok final ∧
      final.totalCustody.items.Perm [3]) ∧
    ∃ final, (EventLoop.start default fun _ => default).run worker actions = some final ∧
      (final.freed ++ final.enqueued).Perm [3] := by
  intro env tables worker pkt actions
  have accepted : ¬ EmRefused env pkt := by decide +kernel
  rcases l3fwdEmSimple_disposes_iff env tables ⟨by decide, by decide⟩ with ⟨polled, events⟩
  constructor
  · refine (polled default [.forward 3 pkt 0#16, .drain 0#16] (fun _ => rfl) rfl rfl ?_).mpr ?_
    · intro step member
      rcases List.mem_pair.mp member with rfl | rfl
      · exact Nat.lt_of_sub_ne_zero (by decide)
      · exact Nat.lt_of_sub_ne_zero (by decide)
    · intro step member
      rcases List.mem_pair.mp member with rfl | rfl
      · exact accepted
      · exact not_false
  · have evaluated : ((EventLoop.start default fun _ => default).run worker actions).map
        EventLoop.pc = some .done := by
      decide +kernel
    rcases Option.map_eq_some_iff.mp evaluated with ⟨final, ran, complete⟩
    refine ⟨final, ran, (events _ _ _ actions final ran complete).mpr ⟨?_, ?_⟩⟩
    · intro event member
      have only : event ∈ [((⟨3, 0#8, .new⟩ : RteEvent), pkt)] := member
      rw [List.mem_singleton.mp only]
      exact accepted
    · rintro ⟨-, none⟩
      revert none
      decide +kernel

/-- A packet shorter than an IPv4 header. Polled, it is freed and then sent to a port that
does not exist. In an event, it is freed twice. -/
theorem l3fwdEmSimple_freesTwice :
    let env : Env := { (default : Env) with rxBurstSize := 32 }
    let tables := oneInterfaceTables 5#8
    let worker := emEventWorker .generic env tables .direct
    let pkt : RteMbuf := { (default : RteMbuf) with packetType := 0x210#32 }
    let actions : List EventAction := [.test, .dequeue (some (⟨3, 0#8, .new⟩, pkt)),
      .test, .dequeue none, .signal, .test, .cleanup]
    runEm env tables default [.forward 3 pkt 0#16] = .error (.txMbufsIndex badPort) ∧
    ∃ final, (EventLoop.start default fun _ => default).run worker actions = some final ∧
      final.pc = .done ∧ dequeuedBy actions = [3] ∧ final.freed = [3, 3] := by
  intro env tables worker pkt actions
  have refused : EmRefused env pkt := by decide +kernel
  constructor
  · have burst : 0 < env.rxBurstSize ∧ env.rxBurstSize ≤ maxPktBurst := ⟨by decide, by decide⟩
    refine (runEm_spec burst tables [.forward 3 pkt 0#16] default (fun _ _ => burst.1) ?_).2
      ⟨_, List.mem_cons_self, refused⟩
    intro step member
    rw [List.mem_singleton.mp member]
    exact Nat.lt_of_sub_ne_zero (by decide)
  · have evaluated : ((EventLoop.start default fun _ => default).run worker actions).map
        (fun final => (final.pc, final.freed)) = some (.done, [3, 3]) := by
      decide +kernel
    rcases Option.map_eq_some_iff.mp evaluated with ⟨final, ran, values⟩
    simp only [Prod.mk.injEq] at values
    exact ⟨final, ran, values.1, rfl, values.2⟩

end PacketForwarding.L3fwd
