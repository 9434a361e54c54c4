import PacketForwarding.L3fwd.EventBurst
import PacketForwarding.L3fwd.VectorOffset

/-! # Shutting down the loops that take several events

Shutdown may be requested at any moment. What a worker has not handed on by then it frees, and
then it flushes its event port. Events hold mbufs, or a vector and the mbufs in it.
-/

namespace PacketForwarding.L3fwd

/-! ## Workers -/

/-- Some events with the memory, and what was freed in their processing. -/
structure Batch (σ ε ρ : Type) where
  memory : σ
  events : List ε
  freed : List ρ

/-- The events `last` hold what `first` held, in order, but for what was freed. -/
structure Batch.Keeps (held : ε → List ρ) (first last : List ε) (freed : List ρ) : Prop where
  length : last.length = first.length
  perm : (freed ++ last.flatMap held).Perm (first.flatMap held)
  sublist : (last.flatMap held).Sublist (first.flatMap held)

/-- What a loop does to the events of a dequeue, if it can reach their packets. The events are
those that are `fine`. -/
structure BatchWorker (σ ε ρ : Type) where
  process : σ → List ε → Option (Batch σ ε ρ)
  held : ε → List ρ
  release : ε → ε
  fine : ε → Prop
  keeps : ∀ memory events batch, (∀ ev ∈ events, fine ev) → process memory events = some batch →
    Batch.Keeps held events batch.events batch.freed

/-! ## The loop -/

/-- Where the worker is: before the loop condition, at the dequeue, at the first enqueue, before
the condition of the retry loop, at a further enqueue, behind the loop, at the flush, or
finished. -/
inductive BatchPc
  | head
  | dequeue
  | enqueue
  | retry
  | again
  | cleanup
  | quiesce
  | done

/-- Between a dequeue of some events and the loop condition. -/
def BatchPc.Busy : BatchPc → Prop
  | enqueue | retry | again => True
  | head | dequeue | cleanup | quiesce | done => False

/-- The variables of the loop, and as seen from outside what was freed and what was accepted
for transmission. -/
structure BatchLoop (σ ε ρ : Type) where
  pc : BatchPc
  forceQuit : Bool
  nbEnq : Nat
  nbDeq : Nat
  events : List ε
  memory : σ
  freed : List ρ
  enqueued : List ρ

/-- An action of the worker or, for `signal`, of the signal handler. A dequeue comes with the
events and the memory that it finds, an enqueue with the number of events accepted, and the
flush with the events that the port still holds. -/
inductive BatchAction (σ ε : Type)
  | signal
  | test
  | dequeue (events : List ε) (memory : σ)
  | enqueue (accepted : Nat)
  | cleanup
  | flush (events : List ε)

namespace BatchLoop

variable {σ ε ρ : Type}

def start (memory : σ) : BatchLoop σ ε ρ where
  pc := .head
  forceQuit := false
  nbEnq := 0
  nbDeq := 0
  events := []
  memory := memory
  freed := []
  enqueued := []

/-- `l3fwd_event_worker_cleanup` up to the flush. -/
def workerCleanup (worker : BatchWorker σ ε ρ) (loop : BatchLoop σ ε ρ) : BatchLoop σ ε ρ :=
  if loop.nbDeq ≠ 0 then
    { loop with
      freed := loop.freed ++ ((loop.events.take loop.nbDeq).drop loop.nbEnq).flatMap worker.held
      events := loop.events.map worker.release
      pc := .quiesce }
  else
    { loop with pc := .quiesce }

/-- One action, if the worker can take it where it is. -/
def step (worker : BatchWorker σ ε ρ) (loop : BatchLoop σ ε ρ) :
    BatchAction σ ε → Option (BatchLoop σ ε ρ)
  | .signal => some { loop with forceQuit := true }
  | .test =>
      match loop.pc with
      | .head => some { loop with pc := if loop.forceQuit then .cleanup else .dequeue }
      | .retry => some { loop with
          pc := if loop.nbEnq < loop.nbDeq ∧ loop.forceQuit = false then .again else .head }
      | _ => none
  | .dequeue events memory =>
      match loop.pc, events with
      | .dequeue, [] => some { loop with nbDeq := 0, memory := memory, pc := .head }
      | .dequeue, ev :: rest => do
          let batch ← worker.process memory (ev :: rest)
          some { loop with
            nbDeq := rest.length + 1
            events := batch.events
            memory := batch.memory
            freed := loop.freed ++ batch.freed
            pc := .enqueue }
      | _, _ => none
  | .enqueue accepted =>
      match loop.pc with
      | .enqueue =>
          if accepted ≤ loop.nbDeq then
            some { loop with
              nbEnq := accepted
              enqueued := loop.enqueued ++ (loop.events.take accepted).flatMap worker.held
              pc := .retry }
          else
            none
      | .again =>
          if accepted ≤ loop.nbDeq - loop.nbEnq then
            some { loop with
              nbEnq := loop.nbEnq + accepted
              enqueued := loop.enqueued ++
                ((loop.events.drop loop.nbEnq).take accepted).flatMap worker.held
              pc := .retry }
          else
            none
      | _ => none
  | .cleanup =>
      match loop.pc with
      | .cleanup => some (loop.workerCleanup worker)
      | _ => none
  | .flush events =>
      match loop.pc with
      | .quiesce => some { loop with
          freed := loop.freed ++ events.flatMap worker.held
          pc := .done }
      | _ => none

/-- The loop after a list of actions. -/
def run (worker : BatchWorker σ ε ρ) (loop : BatchLoop σ ε ρ) (actions : List (BatchAction σ ε)) :
    Option (BatchLoop σ ε ρ) :=
  actions.foldlM (step worker) loop

/-- The events that the worker still has to hand on or to free. -/
def pending (loop : BatchLoop σ ε ρ) : List ε :=
  match loop.pc with
  | .enqueue => loop.events
  | .head | .retry | .again | .cleanup =>
      if loop.nbDeq = 0 then [] else loop.events.drop loop.nbEnq
  | .dequeue | .quiesce | .done => []

end BatchLoop

namespace BatchAction

variable {σ ε : Type}

/-- The events that an action dequeues. -/
def dequeued : BatchAction σ ε → List ε
  | .dequeue events _ => events
  | _ => []

/-- The events that an action dequeues or flushes. -/
def obtained : BatchAction σ ε → List ε
  | .dequeue events _ => events
  | .flush events => events
  | _ => []

end BatchAction

/-! ## Where everything is -/

namespace BatchLoop

variable {σ ε ρ : Type} {worker : BatchWorker σ ε ρ}

/-- What holds after some actions, which obtained the events `given` and dequeued `taken`. -/
structure Inv (worker : BatchWorker σ ε ρ) (given taken : List ε) (loop : BatchLoop σ ε ρ) :
    Prop where
  placed : (loop.freed ++ loop.enqueued ++ loop.pending.flatMap worker.held).Perm
    (given.flatMap worker.held)
  inOrder : (loop.enqueued ++ loop.pending.flatMap worker.held).Sublist
    (taken.flatMap worker.held)
  size : loop.nbDeq = 0 ∨ loop.nbDeq = loop.events.length
  busy : loop.pc.Busy → loop.nbDeq ≠ 0
  stopped : loop.pc = .head → loop.forceQuit = true ∨ loop.pending = []

theorem start_inv (worker : BatchWorker σ ε ρ) (memory : σ) : (start memory).Inv worker [] [] where
  placed := List.Perm.nil
  inOrder := List.Sublist.refl _
  size := Or.inl rfl
  busy := False.elim
  stopped := fun _ => Or.inr rfl

/-- A step that obtains nothing moves what the events hold to other places. -/
theorem Inv.moved {given taken : List ε} {loop next : BatchLoop σ ε ρ}
    (inv : loop.Inv worker given taken)
    (placed : (next.freed ++ next.enqueued ++ next.pending.flatMap worker.held).Perm
      (loop.freed ++ loop.enqueued ++ loop.pending.flatMap worker.held))
    (inOrder : (next.enqueued ++ next.pending.flatMap worker.held).Sublist
      (loop.enqueued ++ loop.pending.flatMap worker.held))
    (size : next.nbDeq = 0 ∨ next.nbDeq = next.events.length)
    (busy : next.pc.Busy → next.nbDeq ≠ 0)
    (stopped : next.pc = .head → next.forceQuit = true ∨ next.pending = []) :
    next.Inv worker given taken :=
  ⟨placed.trans inv.placed, inOrder.trans inv.inOrder, size, busy, stopped⟩

/-- A step that leaves everything in its place. -/
theorem Inv.still {given taken : List ε} {loop next : BatchLoop σ ε ρ}
    (inv : loop.Inv worker given taken) (freed : next.freed = loop.freed)
    (enqueued : next.enqueued = loop.enqueued) (pending : next.pending = loop.pending)
    (size : next.nbDeq = 0 ∨ next.nbDeq = next.events.length)
    (busy : next.pc.Busy → next.nbDeq ≠ 0)
    (stopped : next.pc = .head → next.forceQuit = true ∨ next.pending = []) :
    next.Inv worker given taken := by
  apply inv.moved
  · rw [freed, enqueued, pending]
  · rw [enqueued, pending]
  · exact size
  · exact busy
  · exact stopped

theorem signal_inv {given taken : List ε} {loop : BatchLoop σ ε ρ}
    (inv : loop.Inv worker given taken) :
    Inv worker given taken { loop with forceQuit := true } :=
  inv.still rfl rfl rfl inv.size inv.busy fun _ => Or.inl rfl

/-- The loop conditions lead to places where the same events are pending. -/
theorem test_inv {given taken : List ε} {loop next : BatchLoop σ ε ρ}
    (inv : loop.Inv worker given taken) (stepped : loop.step worker .test = some next) :
    next.Inv worker given taken := by
  rcases loop with ⟨pc, forceQuit, nbEnq, nbDeq, events, memory, freed, enqueued⟩
  cases pc with
  | head =>
      cases forceQuit with
      | true =>
          cases stepped
          exact inv.still rfl rfl rfl inv.size False.elim
            (fun h => by cases h)
      | false =>
          cases stepped
          have none := (inv.stopped rfl).resolve_left Bool.false_ne_true
          exact inv.still rfl rfl none.symm inv.size False.elim
            (fun h => by cases h)
  | retry =>
      have some : nbDeq ≠ 0 := inv.busy trivial
      have size : nbDeq = events.length := inv.size.resolve_left some
      cases stepped
      by_cases more : nbEnq < nbDeq ∧ forceQuit = false
      · simp only [if_pos more]
        exact inv.still rfl rfl rfl inv.size (fun _ => some) (fun h => by cases h)
      · simp only [if_neg more]
        have stops : forceQuit = true ∨ events.drop nbEnq = [] := by
          cases forceQuit with
          | true => exact Or.inl rfl
          | false =>
              have all : events.length ≤ nbEnq := by
                rw [← size]
                exact Nat.le_of_not_lt fun left => more ⟨left, rfl⟩
              exact Or.inr (List.drop_eq_nil_of_le all)
        exact inv.still rfl rfl rfl inv.size False.elim fun _ => stops.imp_right (if_neg some).trans
  | _ => cases stepped

theorem dequeue_inv {given taken : List ε} {loop next : BatchLoop σ ε ρ} {events : List ε}
    {memory : σ} (inv : loop.Inv worker given taken) (fine : ∀ ev ∈ events, worker.fine ev)
    (stepped : loop.step worker (.dequeue events memory) = some next) :
    next.Inv worker (given ++ events) (taken ++ events) := by
  rcases loop with ⟨pc, forceQuit, nbEnq, nbDeq, old, before, freed, enqueued⟩
  cases pc with
  | dequeue =>
      cases events with
      | nil =>
          cases stepped
          rw [List.append_nil, List.append_nil]
          exact inv.still rfl rfl rfl (Or.inl rfl) False.elim
            (fun _ => Or.inr rfl)
      | cons ev rest =>
          rcases Option.bind_eq_some_iff.mp stepped with ⟨batch, processed, isNext⟩
          cases isNext
          have keeps := worker.keeps memory (ev :: rest) batch fine processed
          have placed := inv.placed
          have inOrder := inv.inOrder
          simp only [pending, List.flatMap_nil, List.append_nil] at placed inOrder
          constructor
          · simp only [pending, List.flatMap_append]
            have joined := placed.append keeps.perm
            apply List.Perm.trans _ joined
            simp only [List.append_assoc]
            apply List.Perm.append_left
            rw [← List.append_assoc, ← List.append_assoc]
            exact List.perm_append_comm.append_right _
          · simp only [pending, List.flatMap_append]
            exact inOrder.append keeps.sublist
          · exact Or.inr keeps.length.symm
          · exact fun _ => Nat.succ_ne_zero _
          · exact fun h => by cases h
  | _ => cases stepped

variable (worker) in
/-- What is accepted moves from the pending events to the end of the enqueued ones. -/
theorem accept_moved (loop : BatchLoop σ ε ρ) (accepted : Nat) (events : List ε) :
    loop.enqueued ++ (events.take accepted).flatMap worker.held ++
        (events.drop accepted).flatMap worker.held =
      loop.enqueued ++ events.flatMap worker.held := by
  rw [List.append_assoc, ← List.flatMap_append, List.take_append_drop]

theorem enqueue_inv {given taken : List ε} {loop next : BatchLoop σ ε ρ} {accepted : Nat}
    (inv : loop.Inv worker given taken) (stepped : loop.step worker (.enqueue accepted) = some next) :
    next.Inv worker given taken := by
  have moves : ∀ events nbEnq, loop.nbDeq ≠ 0 → loop.pending = events →
      loop.events.drop nbEnq = events.drop accepted →
      Inv worker given taken { loop with
        nbEnq := nbEnq
        enqueued := loop.enqueued ++ (events.take accepted).flatMap worker.held
        pc := .retry } := by
    intro events nbEnq some isPending left
    have moved := accept_moved worker loop accepted events
    have behind : pending { loop with
        nbEnq := nbEnq
        enqueued := loop.enqueued ++ (events.take accepted).flatMap worker.held
        pc := .retry } = events.drop accepted := (if_neg some).trans left
    apply inv.moved
    · rw [behind, isPending, List.append_assoc, moved, List.append_assoc]
    · rw [behind, isPending, moved]
    · exact inv.size
    · exact fun _ => some
    · exact fun h => by cases h
  have busy := inv.busy
  rcases loop with ⟨pc, forceQuit, nbEnq, nbDeq, events, memory, freed, enqueued⟩
  cases pc with
  | enqueue =>
      simp only [step] at stepped
      split at stepped
      · cases stepped
        exact moves events accepted (busy trivial) rfl rfl
      · cases stepped
  | again =>
      have some := busy trivial
      simp only [step] at stepped
      split at stepped
      · cases stepped
        exact moves (events.drop nbEnq) (nbEnq + accepted) some (if_neg some)
          (by rw [List.drop_drop])
      · cases stepped
  | _ => cases stepped

theorem cleanup_inv {given taken : List ε} {loop next : BatchLoop σ ε ρ}
    (inv : loop.Inv worker given taken) (stepped : loop.step worker .cleanup = some next) :
    next.Inv worker given taken := by
  rcases loop with ⟨pc, forceQuit, nbEnq, nbDeq, events, memory, freed, enqueued⟩
  cases pc with
  | cleanup =>
      have size : nbDeq = 0 ∨ nbDeq = events.length := inv.size
      simp only [step, Option.some.injEq, workerCleanup] at stepped
      split at stepped
      · rename_i some
        cases stepped
        have isPending : pending (ρ := ρ) ⟨.cleanup, forceQuit, nbEnq, nbDeq, events, memory, freed,
            enqueued⟩ = events.drop nbEnq := if_neg some
        have all : events.take nbDeq = events := by
          rw [size.resolve_left some]
          exact List.take_length
        apply inv.moved
        · rw [isPending]
          simp only [pending, List.flatMap_nil, List.append_nil, all, List.append_assoc]
          exact List.perm_append_comm.append_left freed
        · rw [isPending]
          simp only [pending, List.flatMap_nil, List.append_nil]
          exact List.sublist_append_left _ _
        · rw [List.length_map]
          exact size
        · exact False.elim
        · exact fun h => by cases h
      · rename_i none
        cases stepped
        have isPending : pending (ρ := ρ) ⟨.cleanup, forceQuit, nbEnq, nbDeq, events, memory, freed,
            enqueued⟩ = [] := if_pos (not_not.mp none)
        exact inv.still rfl rfl isPending.symm size False.elim
          (fun h => by cases h)
  | _ => cases stepped

theorem flush_inv {given taken events : List ε} {loop next : BatchLoop σ ε ρ}
    (inv : loop.Inv worker given taken) (stepped : loop.step worker (.flush events) = some next) :
    next.Inv worker (given ++ events) taken := by
  rcases loop with ⟨pc, forceQuit, nbEnq, nbDeq, old, memory, freed, enqueued⟩
  cases pc with
  | quiesce =>
      cases stepped
      have placed := inv.placed
      simp only [pending, List.flatMap_nil, List.append_nil] at placed
      constructor
      · simp only [pending, List.flatMap_nil, List.append_nil, List.flatMap_append]
        apply List.Perm.trans _ (placed.append_right _)
        simp only [List.append_assoc]
        exact List.perm_append_comm.append_left freed
      · exact inv.inOrder
      · exact inv.size
      · exact False.elim
      · exact fun h => by cases h
  | _ => cases stepped

/-- One action keeps everything in one place. -/
theorem step_inv {given taken : List ε} {loop next : BatchLoop σ ε ρ} {action : BatchAction σ ε}
    (inv : loop.Inv worker given taken) (fine : ∀ ev ∈ action.dequeued, worker.fine ev)
    (stepped : loop.step worker action = some next) :
    next.Inv worker (given ++ action.obtained) (taken ++ action.dequeued) := by
  have none : ∀ events : List ε, events ++ [] = events := List.append_nil
  cases action with
  | signal =>
      cases stepped
      simpa only [BatchAction.obtained, BatchAction.dequeued, none] using signal_inv inv
  | test => simpa only [BatchAction.obtained, BatchAction.dequeued, none] using test_inv inv stepped
  | dequeue events memory => exact dequeue_inv inv fine stepped
  | enqueue accepted =>
      simpa only [BatchAction.obtained, BatchAction.dequeued, none] using enqueue_inv inv stepped
  | cleanup =>
      simpa only [BatchAction.obtained, BatchAction.dequeued, none] using cleanup_inv inv stepped
  | flush events =>
      simpa only [BatchAction.obtained, BatchAction.dequeued, none] using flush_inv inv stepped

theorem run_inv :
    ∀ {actions : List (BatchAction σ ε)} {given taken : List ε} {loop last : BatchLoop σ ε ρ},
      loop.Inv worker given taken →
      (∀ ev ∈ actions.flatMap BatchAction.dequeued, worker.fine ev) →
      loop.run worker actions = some last →
      last.Inv worker (given ++ actions.flatMap BatchAction.obtained)
        (taken ++ actions.flatMap BatchAction.dequeued)
  | [], given, taken, loop, last, inv, _, ran => by
      cases ran
      simpa only [List.flatMap_nil, List.append_nil] using inv
  | action :: actions, given, taken, loop, last, inv, fine, ran => by
      rw [run, List.foldlM_cons] at ran
      rcases Option.bind_eq_some_iff.mp ran with ⟨next, stepped, rest⟩
      rw [List.flatMap_cons] at fine
      have first := step_inv inv (fun ev member => fine ev (List.mem_append_left _ member)) stepped
      have after := run_inv first (fun ev member => fine ev (List.mem_append_right _ member)) rest
      rw [List.append_assoc, List.append_assoc] at after
      simpa only [List.flatMap_cons] using after

/-- Everything that the events obtained so far held was freed or accepted for transmission, or
is still pending, and only one of these. What is transmitted is so in the order in which it was
dequeued. Behind the flush, nothing is pending. -/
structure Disposed (worker : BatchWorker σ ε ρ) (actions : List (BatchAction σ ε))
    (loop : BatchLoop σ ε ρ) : Prop where
  once : (loop.freed ++ loop.enqueued ++ loop.pending.flatMap worker.held).Perm
    ((actions.flatMap BatchAction.obtained).flatMap worker.held)
  inOrder : loop.enqueued.Sublist ((actions.flatMap BatchAction.dequeued).flatMap worker.held)
  finished : loop.pc = .done → loop.pending = []

theorem run_disposed {memory : σ} {actions : List (BatchAction σ ε)} {loop : BatchLoop σ ε ρ}
    (fine : ∀ ev ∈ actions.flatMap BatchAction.dequeued, worker.fine ev)
    (ran : (start memory).run worker actions = some loop) : loop.Disposed worker actions := by
  have inv := run_inv (start_inv worker memory) fine ran
  rw [List.nil_append, List.nil_append] at inv
  constructor
  · exact inv.placed
  · exact (List.sublist_append_left _ _).trans inv.inOrder
  · intro done
    simp only [pending, done]

/-- Behind the flush, nothing has been disposed of twice unless it was obtained twice. -/
theorem Disposed.nodup {actions : List (BatchAction σ ε)} {loop : BatchLoop σ ε ρ}
    (disposed : loop.Disposed worker actions) (done : loop.pc = .done)
    (distinct : ((actions.flatMap BatchAction.obtained).flatMap worker.held).Nodup) :
    (loop.freed ++ loop.enqueued).Nodup := by
  have once := disposed.once
  rw [disposed.finished done, List.flatMap_nil, List.append_nil] at once
  exact once.nodup_iff.mpr distinct

end BatchLoop

/-! ## Bursts of packets -/

def BurstWorker.batch (worker : BurstWorker) : BatchWorker MbufHeap RteEvent MbufPtr where
  process := fun mbufs events => do
    let taken ← worker.reads events
    some ⟨worker.process mbufs taken events, events.map worker.txMode.setEvent, []⟩
  held := fun ev => [ev.mbuf]
  release := fun ev => { ev with op := .release }
  fine := fun _ => True
  keeps := by
    intro mbufs events batch _ processed
    rcases Option.bind_eq_some_iff.mp processed with ⟨taken, _, isBatch⟩
    cases isBatch
    have same : (events.map worker.txMode.setEvent).flatMap (fun ev => [ev.mbuf]) =
        events.flatMap fun ev => [ev.mbuf] := by
      rw [List.flatMap_map]
      simp only [TxMode.setEvent_mbuf]
    exact ⟨List.length_map _, List.Perm.of_eq same, same ▸ List.Sublist.refl _⟩

/-- Whatever a burst loop does to the packets, and whenever shutdown is requested: every mbuf
that it obtained is freed once or transmitted once. -/
theorem eventLoopBurst_disposed (worker : BurstWorker) {mbufs : MbufHeap}
    (actions : List (BatchAction MbufHeap RteEvent)) {loop : BatchLoop MbufHeap RteEvent MbufPtr}
    (ran : (BatchLoop.start mbufs).run worker.batch actions = some loop) :
    loop.Disposed worker.batch actions ∧
      (loop.pc = .done →
        ((actions.flatMap BatchAction.obtained).map RteEvent.mbuf).Nodup →
        (loop.freed ++ loop.enqueued).Nodup) := by
  have disposed : loop.Disposed worker.batch actions :=
    BatchLoop.run_disposed (fun _ _ => trivial) ran
  refine ⟨disposed, ?_⟩
  intro done distinct
  apply disposed.nodup done
  rw [List.map_eq_flatMap] at distinct
  exact distinct

/-- Two packets of which the first is accepted before the shutdown, and one that is flushed. -/
theorem eventLoopBurst_disposed_shutdown :
    let worker := lpmBurstWorker .simd default (singleRouteTables 0#32) .direct
    let actions : List (BatchAction MbufHeap RteEvent) :=
      [.test, .dequeue [⟨7, 0#8, .new⟩, ⟨8, 0#8, .new⟩] default, .signal, .enqueue 1, .test, .test,
        .cleanup, .flush [⟨9, 0#8, .new⟩]]
    ∃ loop, (BatchLoop.start default).run worker.batch actions = some loop ∧
      loop.Disposed worker.batch actions ∧ loop.freed = [8, 9] ∧ loop.enqueued = [7] ∧
      (loop.freed ++ loop.enqueued).Nodup := by
  intro worker actions
  refine ⟨_, rfl, (eventLoopBurst_disposed worker actions rfl).1, rfl, rfl, ?_⟩
  exact (eventLoopBurst_disposed worker actions rfl).2 rfl (by decide)

/-! ## Vectors -/

/-- An event with the address of its vector and what lies there. -/
structure VectorEvent where
  name : Nat
  vec : OffsetVector
  queueId : BitVec 8
  op : RteEventOp

namespace VectorEvent

/-- What is freed and put back with a vector. -/
def held (ev : VectorEvent) : List (MbufPtr ⊕ Nat) :=
  let done := l3fwdEventVectorArrayFree (fun _ => ev.vec) [ev.name]
  done.freed.map Sum.inl ++ done.put.map Sum.inr

theorem held_eq (ev : VectorEvent) :
    ev.held = ev.vec.valid.elems.map Sum.inl ++ [Sum.inr ev.name] := rfl

end VectorEvent

/-- What the event of a vector is told before it is enqueued. -/
def TxMode.setVectorEvent : TxMode → VectorEvent → VectorEvent
  | .enq txQId, ev => { ev with queueId := txQId, op := .forward }
  | .direct, ev => ev

theorem TxMode.setVectorEvent_held (txMode : TxMode) (ev : VectorEvent) :
    (txMode.setVectorEvent ev).held = ev.held := by
  cases txMode with
  | enq txQId => rfl
  | direct => rfl

/-- The packets, and the array that all vectors use for their destination ports. -/
abbrev VectorMemory := MbufHeap × (Nat → BitVec 16)

namespace VectorFunction

variable (function : VectorFunction) (env : Env) (txMode : TxMode)

/-- One vector of a burst. Behind its filter, the array holds the ports of the packets left. -/
def serveNext (batch : Batch VectorMemory VectorEvent (MbufPtr ⊕ Nat)) (ev : VectorEvent) :
    Batch VectorMemory VectorEvent (MbufPtr ⊕ Nat) :=
  let vec := ev.vec.toRteEventVector
  let packets := (function.packets env batch.memory.1 vec batch.memory.2).value
  let result := processEventVector packets.1 vec packets.2
  { memory := (result.mbufs, (filterBadPackets vec.mbufs packets.2 vec.nbElem).dstPort)
    events := batch.events ++ [txMode.setVectorEvent { ev with vec := ev.vec.after result }]
    freed := batch.freed ++ result.freed.map Sum.inl }

/-- A vector holds what it held before, but for the packets that were filtered out of it. -/
theorem serveNext_keeps {first : List VectorEvent}
    {batch : Batch VectorMemory VectorEvent (MbufPtr ⊕ Nat)} {ev : VectorEvent}
    (atStart : ev.vec.elemOffset = 0)
    (before : Batch.Keeps VectorEvent.held first batch.events batch.freed) :
    Batch.Keeps VectorEvent.held (first ++ [ev]) (function.serveNext env txMode batch ev).events
      (function.serveNext env txMode batch ev).freed := by
  let vec := ev.vec.toRteEventVector
  let packets := (function.packets env batch.memory.1 vec batch.memory.2).value
  let result := processEventVector packets.1 vec packets.2
  rcases processEventVector_vec packets.1 vec packets.2 with ⟨elems, freed, -⟩
  have isValid : ev.vec.valid = vec := by
    simp only [OffsetVector.valid, atStart, Nat.zero_add, vec]
  have afterValid : (ev.vec.after result).valid = result.vec := by
    simp only [OffsetVector.valid, OffsetVector.after, atStart, Nat.zero_add]
  have heldBefore : ev.held = vec.elems.map Sum.inl ++ [Sum.inr ev.name] := by
    rw [VectorEvent.held_eq, isValid]
  have heldAfter : VectorEvent.held { ev with vec := ev.vec.after result } =
      ((keptPackets packets.2 vec.nbElem).map vec.mbufs).map Sum.inl ++ [Sum.inr ev.name] := by
    rw [VectorEvent.held_eq, afterValid, elems]
  have isFreed : result.freed = (badPackets packets.2 vec.nbElem).map vec.mbufs := freed
  constructor
  · simp only [serveNext, List.length_append, before.length, List.length_singleton]
  · have split := ((badPackets_append_perm packets.2 vec.nbElem).map vec.mbufs).map
      (Sum.inl : MbufPtr → MbufPtr ⊕ Nat)
    rw [List.map_append, List.map_append] at split
    have one : (result.freed.map Sum.inl ++
        VectorEvent.held { ev with vec := ev.vec.after result }).Perm ev.held := by
      rw [heldBefore, heldAfter, isFreed, ← List.append_assoc]
      exact split.append_right _
    have joined := before.perm.append one
    simp only [serveNext, List.flatMap_append, List.flatMap_singleton,
      TxMode.setVectorEvent_held]
    apply List.Perm.trans _ joined
    simp only [List.append_assoc]
    apply List.Perm.append_left
    rw [← List.append_assoc, ← List.append_assoc]
    exact List.perm_append_comm.append_right _
  · simp only [serveNext, List.flatMap_append, List.flatMap_singleton,
      TxMode.setVectorEvent_held]
    apply before.sublist.append
    have part : ((keptPackets packets.2 vec.nbElem).map vec.mbufs).Sublist vec.elems :=
      (List.filter_sublist).map vec.mbufs
    rw [heldBefore]
    exact heldAfter ▸ (part.map Sum.inl).append_right _

def batch : BatchWorker VectorMemory VectorEvent (MbufPtr ⊕ Nat) where
  process := fun memory events =>
    some (events.foldl (function.serveNext env txMode) ⟨memory, [], []⟩)
  held := VectorEvent.held
  release := fun ev => { ev with op := .release }
  fine := fun ev => ev.vec.elemOffset = 0
  keeps := by
    intro memory events batch atStart processed
    cases processed
    induction events using List.reverseRecOn with
    | nil => exact ⟨rfl, List.Perm.nil, List.Sublist.refl _⟩
    | append_singleton first ev induction =>
        rw [List.foldl_append, List.foldl_cons, List.foldl_nil]
        apply function.serveNext_keeps env txMode
          (atStart ev (List.mem_append_right _ List.mem_cons_self))
        exact induction fun other member => atStart other (List.mem_append_left _ member)

end VectorFunction

end PacketForwarding.L3fwd
