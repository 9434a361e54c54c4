import PacketForwarding.Foundation.Outcome
import PacketForwarding.L3fwd.TxBuffer

/-! # Custody over all ports

A `TxEffect` speaks of one port. Here the ports are put together: what was handed
to an lcore for transmission is on a wire, in a buffer or given back, and the
statistics count it once.
-/

namespace PacketForwarding.L3fwd

open LcoreState

namespace TxEffect

/-- The packets handed in were sent, were dropped or are waiting. -/
theorem waiting {state state' : LcoreState}
    (effect : TxEffect state state' port handed stats)
    (valid : port.toNat < rteMaxEthports) :
    stats.sent + stats.dropped + state'.waiting = state.waiting + handed.length := by
  have accounted := effect.accounted
  have sums := sum_map_replace state.txLen state'.txLen
    List.nodup_range (List.mem_range.mpr valid)
    (fun other different => congrArg MbufTable.len (effect.tables other different))
  simp only [LcoreState.waiting]
  omega

/-- Seen over all ports, nothing is lost, duplicated or given back twice. -/
theorem total {state state' : LcoreState}
    (effect : TxEffect state state' port handed stats)
    (valid : port.toNat < rteMaxEthports) :
    state'.totalCustody.items.Perm (state.totalCustody.items ++ handed) := by
  rw [List.perm_iff_count]
  intro mbuf
  rcases effect.log with ⟨bursts, isLog, toPort⟩
  have wire : state'.transmitted port.toNat =
      state.transmitted port.toNat ++ bursts.flatMap TxBurst.mbufs := by
    rw [LcoreState.transmitted, isLog, List.flatMap_append]
    congr 1
    apply List.flatMap_congr
    intro burst member
    rw [toPort burst member, if_pos rfl]
  have atPort := effect.custody.perm.count_eq mbuf
  have sums := sum_map_replace
    (fun port => (state.qconf.txMbufs port).buffered.count mbuf)
    (fun port => (state'.qconf.txMbufs port).buffered.count mbuf)
    List.nodup_range (List.mem_range.mpr valid)
    (fun other different => by rw [effect.tables other different])
  simp only [Custody.items, LcoreState.custody, List.count_append, wire] at atPort
  simp only [Custody.items, LcoreState.totalCustody, List.count_append, isLog,
    List.flatMap_append, List.count_flatMap, Function.comp_def]
  simp only [List.count_flatMap, Function.comp_def] at atPort sums
  omega

end TxEffect

/-! ## Accounts of several calls -/

/-- What a stretch of code that was handed mbufs has done with them, on whatever
ports: everything is somewhere, and the statistics agree with the buffers. -/
structure TxAccount (state state' : LcoreState) (handed : List MbufPtr)
    (stats : TxStats) : Prop where
  conf : { state'.qconf with txMbufs := state.qconf.txMbufs } = state.qconf
  total : state'.totalCustody.items.Perm (state.totalCustody.items ++ handed)
  waiting : stats.sent + stats.dropped + state'.waiting = state.waiting + handed.length

theorem TxEffect.account {state state' : LcoreState}
    (effect : TxEffect state state' port handed stats)
    (valid : port.toNat < rteMaxEthports) : TxAccount state state' handed stats where
  conf := effect.conf
  total := effect.total valid
  waiting := effect.waiting valid

namespace TxAccount

theorem refl (state : LcoreState) : TxAccount state state [] ⟨0, 0⟩ where
  conf := rfl
  total := by simp
  waiting := by simp

/-- Give mbufs back without handing them to a port. -/
theorem free (state : LcoreState) (mbufs : List MbufPtr) :
    TxAccount state { state with freed := state.freed ++ mbufs } mbufs
      ⟨0, mbufs.length⟩ where
  conf := rfl
  total := by
    simp only [Custody.items, LcoreState.totalCustody, List.append_assoc]
    exact (List.perm_append_comm.append_left _).append_left _
  waiting := by
    simp only [LcoreState.waiting]
    have same : LcoreState.txLen { state with freed := state.freed ++ mbufs } = state.txLen :=
      rfl
    rw [same]
    omega

/-- Rewriting packets moves none of them. -/
theorem rewrite (state : LcoreState) (heap : MbufHeap) :
    TxAccount state { state with mbufs := heap } [] ⟨0, 0⟩ where
  conf := rfl
  total := by
    rw [List.append_nil]
    exact List.Perm.refl _
  waiting := by
    have same : LcoreState.txLen { state with mbufs := heap } = state.txLen := rfl
    simp only [LcoreState.waiting, same, List.length_nil]
    omega

theorem trans {state middle last : LcoreState}
    (before : TxAccount state middle handed stats)
    (after : TxAccount middle last later stats') :
    TxAccount state last (handed ++ later) (stats.add stats') where
  conf := by
    have afterConf := congrArg (fun conf : LcoreConf =>
      { conf with txMbufs := state.qconf.txMbufs }) after.conf
    exact afterConf.trans before.conf
  total := by
    rw [← List.append_assoc]
    exact after.total.trans (before.total.append_right _)
  waiting := by
    have beforeWaiting := before.waiting
    have afterWaiting := after.waiting
    simp only [TxStats.add, List.length_append]
    omega

end TxAccount

theorem LcoreState.buffered_of_empty {state : LcoreState}
    (emptyBuffers : ∀ port, state.txLen port = 0) (port : Nat) :
    (state.qconf.txMbufs port).buffered = [] := by
  rw [← List.length_eq_zero_iff, MbufTable.length_buffered]
  exact emptyBuffers port

theorem LcoreState.totalCustody_of_empty {state : LcoreState}
    (emptyBuffers : ∀ port, state.txLen port = 0) (nothingSent : state.txLog = [])
    (nothingFreed : state.freed = []) : state.totalCustody.items = [] := by
  have empty := buffered_of_empty emptyBuffers
  simp [Custody.items, LcoreState.totalCustody, nothingSent, nothingFreed, empty,
    List.flatMap_eq_nil_iff]

/-! ## Runs of sends and drains -/

/-- What can happen to the transmit buffers of an lcore that sends in bursts. -/
inductive TxStep
  | send (port : BitVec 16) (m : Nat → MbufPtr) (num : Nat)
  | drain (port : BitVec 16)

namespace TxStep

def port : TxStep → BitVec 16
  | send port _ _ => port
  | drain port => port

def handed : TxStep → List MbufPtr
  | send _ m num => (List.range num).map m
  | drain _ => []

/-- Calls are for an existing port, and hand over at most one receive burst. -/
def WellFormed : TxStep → Prop
  | send port _ num => port.toNat < rteMaxEthports ∧ 1 ≤ num ∧ num ≤ maxPktBurst
  | drain port => port.toNat < rteMaxEthports

def exec (env : Env) (state : LcoreState) : TxStep → Except Fault LcoreState
  | send port m num => do
      let (state, _) ← sendPacketsx4 env state port m num
      .ok state
  | drain port => do
      let (state, _) ← drainTxPort env state port
      .ok state

/-- The packets of a run that were handed to one port, oldest first. -/
def handedTo (port : Nat) (steps : List TxStep) : List MbufPtr :=
  steps.flatMap fun step => if step.port.toNat = port then step.handed else []

end TxStep

def runTx (env : Env) (state : LcoreState) (steps : List TxStep) : Except Fault LcoreState :=
  steps.foldlM (TxStep.exec env) state

/-- All buffers of the lcore are shorter than a bound. -/
def LcoreState.Below (state : LcoreState) (bound : Nat) : Prop :=
  ∀ port, port < rteMaxEthports → state.txLen port < bound

/-- Every buffer of the lcore has room for another packet. -/
abbrev LcoreState.HasRoom (state : LcoreState) : Prop :=
  state.Below maxPktBurst

theorem TxEffect.below {state state' : LcoreState} {bound : Nat}
    (effect : TxEffect state state' port handed stats) (room : state.Below bound)
    (atPort : state'.txLen port.toNat < bound) : state'.Below bound := by
  intro other valid
  by_cases same : other = port.toNat
  · subst same
    exact atPort
  · rw [LcoreState.txLen, effect.tables other same]
    exact room other valid

/-- The result of code that was handed mbufs: the buffers are still below a bound,
and the statistics account for the mbufs. -/
structure Accounted (bound : Nat) (state : LcoreState) (handed : List MbufPtr)
    (result : LcoreState × TxStats) : Prop where
  below : result.1.Below bound
  account : TxAccount state result.1 handed result.2

namespace Accounted

theorem refl {bound : Nat} {state : LcoreState} (below : state.Below bound) :
    Accounted bound state [] (state, ⟨0, 0⟩) :=
  ⟨below, TxAccount.refl state⟩

theorem extend {bound : Nat} {state last : LcoreState} {result : LcoreState × TxStats}
    (accounted : Accounted bound state handed result) (below : last.Below bound)
    (account : TxAccount result.1 last more stats) :
    Accounted bound state (handed ++ more) (last, result.2.add stats) :=
  ⟨below, accounted.account.trans account⟩

/-- Where the packets of the state have been rewritten first, nothing more is handed
in. -/
theorem after_rewrite {bound : Nat} {state : LcoreState} {heap : MbufHeap}
    {last : LcoreState × TxStats}
    (rest : Accounted bound { state with mbufs := heap } handed last) :
    Accounted bound state handed last := by
  have both := (TxAccount.rewrite state heap).trans rest.account
  refine ⟨rest.below, ?_⟩
  simpa [TxStats.add] using both

end Accounted

/-- One step keeps room in the buffers and custody of its packets. -/
theorem TxStep.exec_spec (env : Env) {state : LcoreState} {step : TxStep}
    (room : state.HasRoom) (wellFormed : step.WellFormed) :
    ∃ state' stats, step.exec env state = .ok state' ∧ state'.HasRoom ∧
      TxEffect state state' step.port step.handed stats ∧
      step.port.toNat < rteMaxEthports := by
  cases step with
  | send port m num =>
      rcases wellFormed with ⟨valid, positive, inside⟩
      rcases sendPacketsx4_spec env state m valid (room _ valid) positive inside with
        ⟨state', stats, run, effect, len⟩
      refine ⟨state', stats, ?_, effect.below room ?_, effect, valid⟩
      · simp only [exec, run]
        rfl
      · rw [len]
        exact x4Len_lt env (room _ valid) inside
  | drain port =>
      rcases drainTxPort_spec env state wellFormed (Nat.le_of_lt (room _ wellFormed)) with
        ⟨state', stats, run, effect, len⟩
      refine ⟨state', stats, ?_, effect.below room ?_, effect, wellFormed⟩
      · simp only [exec, run]
        rfl
      · rw [len]
        decide

/-- A whole run keeps room in the buffers, custody over all ports and, for every
port, custody in order. -/
theorem runTx_spec (env : Env) :
    ∀ (steps : List TxStep) (state : LcoreState), state.HasRoom →
      (∀ step ∈ steps, step.WellFormed) →
      ∃ state' stats, runTx env state steps = .ok state' ∧ state'.HasRoom ∧
        TxAccount state state' (steps.flatMap TxStep.handed) stats ∧
        ∀ port, (state'.transmitted port ++ (state'.qconf.txMbufs port).buffered).Sublist
          (state.transmitted port ++ (state.qconf.txMbufs port).buffered ++
            TxStep.handedTo port steps)
  | [], state, room, _ =>
      ⟨state, ⟨0, 0⟩, rfl, room, TxAccount.refl state, fun _ => by simp [TxStep.handedTo]⟩
  | step :: steps, state, room, wellFormed => by
      rcases step.exec_spec env room (wellFormed step List.mem_cons_self) with
        ⟨middle, stats, ran, middleRoom, effect, valid⟩
      rcases runTx_spec env steps middle middleRoom
        (fun other member => wellFormed other (List.mem_cons_of_mem _ member)) with
        ⟨last, stats', runs, lastRoom, account, inOrder⟩
      refine ⟨last, stats.add stats', ?_, lastRoom, (effect.account valid).trans account, ?_⟩
      · simp only [runTx, List.foldlM_cons, ran]
        exact runs
      · intro port
        have stepOrder : (middle.transmitted port ++ (middle.qconf.txMbufs port).buffered).Sublist
            (state.transmitted port ++ (state.qconf.txMbufs port).buffered ++
              if step.port.toNat = port then step.handed else []) := by
          by_cases same : step.port.toNat = port
          · rw [if_pos same, ← same]
            exact effect.custody.sublist
          · rw [if_neg same, List.append_nil, effect.wires (Ne.symm same),
              effect.tables port (Ne.symm same)]
        rw [TxStep.handedTo, List.flatMap_cons, ← List.append_assoc]
        exact (inOrder port).trans (stepOrder.append_right _)

/-- Whatever is sent and drained in whatever order, and whatever the drivers
accept, no access leaves a buffer, every buffer has room afterwards, every packet
is in exactly one place, and every port sends its packets in order. -/
theorem runTx_custody (env : Env) (steps : List TxStep) (state : LcoreState)
    (emptyBuffers : ∀ port, state.txLen port = 0) (nothingSent : state.txLog = [])
    (nothingFreed : state.freed = [])
    (wellFormed : ∀ step ∈ steps, step.WellFormed) :
    ∃ state', runTx env state steps = .ok state' ∧
      (∀ port, port < rteMaxEthports → state'.txLen port < maxPktBurst) ∧
      state'.totalCustody.items.Perm (steps.flatMap TxStep.handed) ∧
      ∀ port, (state'.transmitted port ++ (state'.qconf.txMbufs port).buffered).Sublist
        (TxStep.handedTo port steps) := by
  have room : state.HasRoom := by
    intro port _
    rw [emptyBuffers port]
    decide
  rcases runTx_spec env steps state room wellFormed with
    ⟨state', stats, runs, lastRoom, account, inOrder⟩
  refine ⟨state', runs, lastRoom, ?_, ?_⟩
  · have total := account.total
    rw [totalCustody_of_empty emptyBuffers nothingSent nothingFreed, List.nil_append] at total
    exact total
  · intro port
    have empty := buffered_of_empty emptyBuffers port
    have order := inOrder port
    simpa [LcoreState.transmitted, nothingSent, empty] using order

/-- Three packets are buffered, then drained into a driver that takes none. -/
theorem runTx_custody_refused :
    ∃ state', runTx { (default : Env) with txBurstSize := 4 } default
        [.send 1#16 id 3, .drain 1#16] = .ok state' ∧
      (∀ port, port < rteMaxEthports → state'.txLen port < maxPktBurst) ∧
      state'.totalCustody.items.Perm [0, 1, 2] ∧
      ∀ port, (state'.transmitted port ++ (state'.qconf.txMbufs port).buffered).Sublist
        (TxStep.handedTo port [.send 1#16 id 3, .drain 1#16]) :=
  runTx_custody _ [.send 1#16 id 3, .drain 1#16] default (fun _ => rfl) rfl rfl
    (by simp [TxStep.WellFormed, rteMaxEthports, maxPktBurst])

end PacketForwarding.L3fwd
