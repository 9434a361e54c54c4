import PacketForwarding.L3fwd.Lcore

/-! # Transmit buffers

The two ways a packet enters the buffer of an output port, and the burst that
empties it. Every one of them is described to its callers by a `TxEffect`.
-/

namespace PacketForwarding.L3fwd

open LcoreState

/-- Send burst of packets on an output interface; return packets sent. -/
def sendBurst (env : Env) (state : LcoreState) (n : Nat) (port : BitVec 16) :
    Except Fault (LcoreState × Nat) := do
  let table ← state.txTable port
  let mbufs ← table.read n
  let (state, ret) := state.rteEthTxBurst env port (state.qconf.txQueueId port) mbufs
  .ok (state.rtePktmbufFreeRange table.mTable ret n, ret)

/-- Enqueue a single packet, and send burst if queue is filled. -/
def sendSinglePacket (env : Env) (state : LcoreState) (m : MbufPtr) (port : BitVec 16) :
    Except Fault (LcoreState × Nat) := do
  let table ← state.txTable port
  let table ← table.put table.len m
  let state := state.setTable port table
  let len := table.len + 1
  if len = env.rxBurstSize then
    let (state, sent) ← sendBurst env state env.rxBurstSize port
    .ok (state.setTable port { table with len := 0 }, sent)
  else
    .ok (state.setTable port { table with len := len }, 0)

/-! ## The unrolled copy -/

/-- One case label: `m_table[base + j] = m[j]; j++`. -/
def copyOne (base : Nat) (m : Nat → MbufPtr) (position : MbufTable × Nat) :
    Except Fault (MbufTable × Nat) := do
  let table ← position.1.put (base + position.2) (m position.2)
  .ok (table, position.2 + 1)

/-- `count` case labels, each falling through to the next. -/
def copyCases (base : Nat) (m : Nat → MbufPtr) :
    Nat → MbufTable × Nat → Except Fault (MbufTable × Nat)
  | 0, position => .ok position
  | count + 1, position => do
      let position ← copyOne base m position
      copyCases base m count position

/-- `while (j < n)` around all four case labels. -/
def copyLoop (base : Nat) (m : Nat → MbufPtr) (n : Nat) :
    Nat → MbufTable × Nat → Except Fault (MbufTable × Nat)
  | 0, position => if position.2 < n then .error .nonTermination else .ok position
  | fuel + 1, position =>
      if position.2 < n then do
        let position ← copyCases base m fwdStep position
        copyLoop base m n fuel position
      else
        .ok position

/-- `switch (n % FWDSTEP)` into the middle of the loop. With `n = 0` the switch
enters at the first of four labels, before the loop condition is looked at. -/
def copyMbufs (base : Nat) (m : Nat → MbufPtr) (n : Nat) (table : MbufTable) :
    Except Fault MbufTable := do
  let labels := if n % fwdStep = 0 then fwdStep else n % fwdStep
  let position ← copyCases base m labels (table, 0)
  let position ← copyLoop base m n n position
  .ok position.1

def sendPacketsx4 (env : Env) (state : LcoreState) (port : BitVec 16)
    (m : Nat → MbufPtr) (num : Nat) : Except Fault (LcoreState × TxStats) := do
  let table ← state.txTable port
  let len := table.len
  -- the buffer is empty and there are enough packets: send them straightway
  if env.txBurstSize ≤ num ∧ len = 0 then
    let (state, n) := state.rteEthTxBurst env port (state.qconf.txQueueId port)
      ((List.range num).map m)
    .ok (state.rtePktmbufFreeRange m n num, ⟨n, num - n⟩)
  else
    let n := if maxPktBurst < len + num then maxPktBurst - len else num
    let table ← copyMbufs len m n table
    let state := state.setTable port table
    let len := len + n
    if len = maxPktBurst then
      let (state, sent) ← sendBurst env state maxPktBurst port
      let stats : TxStats := ⟨sent, maxPktBurst - sent⟩
      let len := num - n
      if len = 0 then
        .ok (state.setTable port { table with len := len }, stats)
      else
        -- copy the rest of the packets into the buffer
        let table ← copyMbufs 0 (fun j => m (n + j)) len table
        .ok (state.setTable port { table with len := len }, stats)
    else
      .ok (state.setTable port { table with len := len }, ⟨0, 0⟩)

/-- TX burst queue drain of one port, as the main loops do it inline. -/
def drainTxPort (env : Env) (state : LcoreState) (port : BitVec 16) :
    Except Fault (LcoreState × TxStats) := do
  let table ← state.txTable port
  if table.len = 0 then
    .ok (state, ⟨0, 0⟩)
  else
    let (state, sentPkts) ← sendBurst env state table.len port
    .ok (state.setTable port { table with len := 0 }, ⟨sentPkts, table.len - sentPkts⟩)

/-! ## The copies fill the table -/

namespace MbufTable

def fill (table : MbufTable) (base : Nat) (m : Nat → MbufPtr) (count : Nat) :
    MbufTable :=
  { table with mTable := fun index =>
      if base ≤ index ∧ index < base + count then m (index - base)
      else table.mTable index }

@[simp] theorem len_fill (table : MbufTable) (base : Nat) (m : Nat → MbufPtr)
    (count : Nat) : (table.fill base m count).len = table.len := rfl

theorem fill_zero (table : MbufTable) (base : Nat) (m : Nat → MbufPtr) :
    table.fill base m 0 = table := by
  have nowhere : ∀ index, ¬ (base ≤ index ∧ index < base + 0) := by
    intro index
    omega
  simp only [fill, if_neg (nowhere _)]

theorem put_fill (table : MbufTable) (base : Nat) (m : Nat → MbufPtr) (count : Nat)
    (inside : base + count < maxPktBurst) :
    (table.fill base m count).put (base + count) (m count) =
      .ok (table.fill base m (count + 1)) := by
  rw [put, if_pos inside]
  congr 2
  funext index
  rcases Nat.lt_trichotomy index (base + count) with below | equal | above
  · have different : index ≠ base + count := by omega
    have same : (base ≤ index ∧ index < base + (count + 1)) ↔
        (base ≤ index ∧ index < base + count) := by omega
    simp only [Function.update_of_ne different, fill, same]
  · subst equal
    have covered : base ≤ base + count ∧ base + count < base + (count + 1) := by omega
    simp only [Function.update_self, covered, and_self, if_true,
      Nat.add_sub_cancel_left]
  · have different : index ≠ base + count := by omega
    have notBefore : ¬ (base ≤ index ∧ index < base + count) := by omega
    have notAfter : ¬ (base ≤ index ∧ index < base + (count + 1)) := by omega
    simp only [Function.update_of_ne different, fill, if_neg notBefore, if_neg notAfter]

/-- Filling behind the waiting packets appends to them. -/
theorem buffered_fill (table : MbufTable) (m : Nat → MbufPtr) (count : Nat) :
    ({ table.fill table.len m count with len := table.len + count } : MbufTable).buffered =
      table.buffered ++ (List.range count).map m := by
  simp only [buffered, List.range_add, List.map_append, List.map_map]
  congr 1
  · apply List.map_congr_left
    intro index member
    have below := List.mem_range.mp member
    have outside : ¬ (table.len ≤ index ∧ index < table.len + count) := by omega
    simp only [fill, if_neg outside]
  · apply List.map_congr_left
    intro index member
    have below := List.mem_range.mp member
    have inside : table.len ≤ table.len + index ∧
        table.len + index < table.len + count := by omega
    simp only [Function.comp_apply, fill, if_pos inside, Nat.add_sub_cancel_left]

end MbufTable

theorem copyOne_fill (table : MbufTable) (base : Nat) (m : Nat → MbufPtr) (done : Nat)
    (inside : base + done < maxPktBurst) :
    copyOne base m (table.fill base m done, done) =
      .ok (table.fill base m (done + 1), done + 1) := by
  simp only [copyOne, table.put_fill base m done inside]
  rfl

theorem copyCases_fill (table : MbufTable) (base : Nat) (m : Nat → MbufPtr) :
    ∀ count done, base + done + count ≤ maxPktBurst →
      copyCases base m count (table.fill base m done, done) =
        .ok (table.fill base m (done + count), done + count)
  | 0, _, _ => rfl
  | count + 1, done, inside => by
      rw [copyCases, copyOne_fill table base m done (by omega)]
      have rest := copyCases_fill table base m count (done + 1) (by omega)
      rw [Nat.add_assoc, Nat.add_comm 1 count] at rest
      exact rest

theorem copyLoop_fill (table : MbufTable) (base : Nat) (m : Nat → MbufPtr) (n : Nat)
    (inside : base + n ≤ maxPktBurst) :
    ∀ rounds fuel done, done + fwdStep * rounds = n → rounds ≤ fuel →
      copyLoop base m n fuel (table.fill base m done, done) =
        .ok (table.fill base m n, n)
  | 0, fuel, done, total, _ => by
      have finished : done = n := by omega
      subst finished
      cases fuel <;> simp [copyLoop]
  | rounds + 1, 0, done, _, enough => by omega
  | rounds + 1, fuel + 1, done, total, enough => by
      have more : done < n := by
        simp only [fwdStep] at total
        omega
      rw [copyLoop, if_pos more,
        copyCases_fill table base m fwdStep done (by simp only [fwdStep] at *; omega)]
      exact copyLoop_fill table base m n inside rounds fuel (done + fwdStep)
        (by simp only [fwdStep] at *; omega) (by omega)

/-- A copy of at least one element that fits copies exactly what it should. -/
theorem copyMbufs_fill (table : MbufTable) (base : Nat) (m : Nat → MbufPtr) (n : Nat)
    (positive : 0 < n) (inside : base + n ≤ maxPktBurst) :
    copyMbufs base m n table = .ok (table.fill base m n) := by
  have entry : ∃ labels rounds, labels = (if n % fwdStep = 0 then fwdStep else n % fwdStep) ∧
      labels + fwdStep * rounds = n ∧ rounds ≤ n := by
    simp only [fwdStep]
    by_cases aligned : n % 4 = 0
    · exact ⟨4, n / 4 - 1, by simp [aligned], by omega, by omega⟩
    · exact ⟨n % 4, n / 4, by simp [aligned], by omega, by omega⟩
  rcases entry with ⟨labels, rounds, isLabels, total, enough⟩
  have started := copyCases_fill table base m labels 0 (by omega)
  rw [table.fill_zero, Nat.zero_add] at started
  have finished := copyLoop_fill table base m n inside rounds n labels total enough
  simp only [copyMbufs, ← isLabels, started]
  change (do
    let position ← copyLoop base m n n (table.fill base m labels, labels)
    Except.ok position.1 : Except Fault MbufTable) = _
  rw [finished]
  rfl

/-- A copy that starts behind the table faults, also when it has nothing to copy. -/
theorem copyMbufs_full (table : MbufTable) (base : Nat) (m : Nat → MbufPtr) (n : Nat)
    (outside : maxPktBurst ≤ base) :
    copyMbufs base m n table = .error (.mTableIndex base) := by
  have someLabel : ∃ count, (if n % fwdStep = 0 then fwdStep else n % fwdStep) = count + 1 := by
    simp only [fwdStep]
    by_cases aligned : n % 4 = 0
    · exact ⟨3, by simp [aligned]⟩
    · exact ⟨n % 4 - 1, by simp only [aligned, if_false]; omega⟩
  rcases someLabel with ⟨count, labels⟩
  have refused : copyOne base m (table, 0) = .error (.mTableIndex base) := by
    have behind : ¬ base + 0 < maxPktBurst := by omega
    simp only [copyOne, MbufTable.put, if_neg behind]
    rfl
  simp only [copyMbufs, labels, copyCases, refused]
  rfl

/-! ## Delivering a list of mbufs -/

namespace LcoreState

/-- Offer mbufs to the driver of a port and free what it does not take. -/
def deliver (env : Env) (state : LcoreState) (port : BitVec 16)
    (mbufs : List MbufPtr) : LcoreState :=
  let taken := min (env.txAccept state.txLog.length) mbufs.length
  { state with
    txLog := state.txLog ++ [⟨port, state.qconf.txQueueId port, mbufs.take taken⟩]
    freed := state.freed ++ mbufs.drop taken }

/-- How many of `offered` mbufs the driver takes next. -/
def takes (env : Env) (state : LcoreState) (offered : Nat) : Nat :=
  min (env.txAccept state.txLog.length) offered

theorem takes_le (env : Env) (state : LcoreState) (offered : Nat) :
    state.takes env offered ≤ offered :=
  Nat.min_le_right _ _

@[simp] theorem mbufs_deliver (env : Env) (state : LcoreState) (port : BitVec 16)
    (mbufs : List MbufPtr) : (state.deliver env port mbufs).mbufs = state.mbufs := rfl

@[simp] theorem qconf_deliver (env : Env) (state : LcoreState) (port : BitVec 16)
    (mbufs : List MbufPtr) : (state.deliver env port mbufs).qconf = state.qconf := rfl

@[simp] theorem freed_deliver (env : Env) (state : LcoreState) (port : BitVec 16)
    (mbufs : List MbufPtr) : (state.deliver env port mbufs).freed =
      state.freed ++ mbufs.drop (state.takes env mbufs.length) := rfl

@[simp] theorem transmitted_deliver_self (env : Env) (state : LcoreState)
    (port : BitVec 16) (mbufs : List MbufPtr) :
    (state.deliver env port mbufs).transmitted port.toNat =
      state.transmitted port.toNat ++ mbufs.take (state.takes env mbufs.length) := by
  simp [deliver, transmitted, takes]

@[simp] theorem mbufs_setTable (state : LcoreState) (port : BitVec 16)
    (table : MbufTable) : (state.setTable port table).mbufs = state.mbufs := rfl

@[simp] theorem freed_setTable (state : LcoreState) (port : BitVec 16)
    (table : MbufTable) : (state.setTable port table).freed = state.freed := rfl

@[simp] theorem transmitted_setTable (state : LcoreState) (port : BitVec 16)
    (table : MbufTable) (other : Nat) :
    (state.setTable port table).transmitted other = state.transmitted other := rfl

@[simp] theorem takes_setTable (env : Env) (state : LcoreState) (port : BitVec 16)
    (table : MbufTable) (offered : Nat) :
    (state.setTable port table).takes env offered = state.takes env offered := rfl

@[simp] theorem txMbufs_setTable_self (state : LcoreState) (port : BitVec 16)
    (table : MbufTable) :
    (state.setTable port table).qconf.txMbufs port.toNat = table := by
  simp [setTable]

theorem txMbufs_setTable_other (state : LcoreState) (port : BitVec 16)
    (table : MbufTable) {other : Nat} (different : other ≠ port.toNat) :
    (state.setTable port table).qconf.txMbufs other = state.qconf.txMbufs other := by
  simp [setTable, different]

@[simp] theorem setTable_setTable (state : LcoreState) (port : BitVec 16)
    (first second : MbufTable) :
    (state.setTable port first).setTable port second = state.setTable port second := by
  simp [setTable]

theorem deliver_setTable (env : Env) (state : LcoreState) (port : BitVec 16)
    (table : MbufTable) (mbufs : List MbufPtr) :
    (state.setTable port table).deliver env port mbufs =
      (state.deliver env port mbufs).setTable port table := rfl

theorem txTable_ok (state : LcoreState) {port : BitVec 16}
    (valid : port.toNat < rteMaxEthports) :
    state.txTable port = .ok (state.qconf.txMbufs port.toNat) :=
  if_pos valid

end LcoreState

theorem drop_range_map (m : Nat → α) (taken n : Nat) :
    (List.range' taken (n - taken)).map m = ((List.range n).map m).drop taken := by
  rw [← List.map_drop, List.range_eq_range', List.drop_range']
  simp

theorem sendBurst_eq (env : Env) (state : LcoreState) {n : Nat} {port : BitVec 16}
    (valid : port.toNat < rteMaxEthports) (inside : n ≤ maxPktBurst) :
    sendBurst env state n port =
      .ok (state.deliver env port ((List.range n).map (state.qconf.txMbufs port.toNat).mTable),
        state.takes env n) := by
  have readOk : (state.qconf.txMbufs port.toNat).read n =
      .ok ((List.range n).map (state.qconf.txMbufs port.toNat).mTable) := if_pos inside
  simp only [sendBurst, state.txTable_ok valid, bind, Except.bind, readOk]
  simp [rteEthTxBurst, rtePktmbufFreeRange, deliver, takes, drop_range_map]

/-! ## What a call does to the packets of its port -/

/-- The effect of handing mbufs to a port: they take their place in the custody
of the port, the statistics count what left, and nothing else changes. -/
structure TxEffect (state state' : LcoreState) (port : BitVec 16)
    (handed : List MbufPtr) (stats : TxStats) : Prop where
  mbufs : state'.mbufs = state.mbufs
  conf : { state'.qconf with txMbufs := state.qconf.txMbufs } = state.qconf
  tables : ∀ other, other ≠ port.toNat →
    state'.qconf.txMbufs other = state.qconf.txMbufs other
  log : ∃ bursts, state'.txLog = state.txLog ++ bursts ∧ ∀ burst ∈ bursts, burst.port = port
  custody : (state.custody port.toNat).Run handed (state'.custody port.toNat)
  sent : (state'.transmitted port.toNat).length =
    (state.transmitted port.toNat).length + stats.sent
  dropped : state'.freed.length = state.freed.length + stats.dropped

namespace TxEffect

theorem refl (state : LcoreState) (port : BitVec 16) :
    TxEffect state state port [] ⟨0, 0⟩ where
  mbufs := rfl
  conf := rfl
  tables := fun _ _ => rfl
  log := ⟨[], (List.append_nil _).symm, by simp⟩
  custody := .nil _
  sent := rfl
  dropped := rfl

/-- Append to the buffer of the port. -/
theorem store (state : LcoreState) (port : BitVec 16) (table : MbufTable)
    (handed : List MbufPtr)
    (appended : table.buffered = (state.qconf.txMbufs port.toNat).buffered ++ handed) :
    TxEffect state (state.setTable port table) port handed ⟨0, 0⟩ where
  mbufs := rfl
  conf := rfl
  tables := fun _ different => state.txMbufs_setTable_other port table different
  log := ⟨[], (List.append_nil _).symm, by simp⟩
  custody := by
    have run := Custody.Run.accept (state.custody port.toNat) handed
    simpa [LcoreState.custody, appended] using run
  sent := rfl
  dropped := rfl

/-- Empty the buffer of the port. -/
theorem flush (env : Env) (state : LcoreState) (port : BitVec 16) (table : MbufTable)
    (empty : table.len = 0) :
    TxEffect state
      ((state.deliver env port (state.qconf.txMbufs port.toNat).buffered).setTable port table)
      port []
      ⟨state.takes env (state.txLen port.toNat),
        state.txLen port.toNat - state.takes env (state.txLen port.toNat)⟩ where
  mbufs := rfl
  conf := rfl
  tables := fun _ different => by
    rw [LcoreState.txMbufs_setTable_other _ _ _ different, LcoreState.qconf_deliver]
  log := ⟨_, rfl, by simp⟩
  custody := by
    have run := Custody.Run.flush (state.custody port.toNat)
      (state.takes env (state.txLen port.toNat))
    have nothing : table.buffered = [] := by simp [MbufTable.buffered, empty]
    simpa [LcoreState.custody, nothing, LcoreState.txLen] using run
  sent := by
    have le := state.takes_le env (state.txLen port.toNat)
    simp only [LcoreState.txLen] at le ⊢
    simp [Nat.min_eq_left le]
  dropped := by
    simp [LcoreState.txLen]

/-- Send mbufs past an empty buffer. -/
theorem direct (env : Env) (state : LcoreState) (port : BitVec 16)
    (handed : List MbufPtr) (empty : state.txLen port.toNat = 0) :
    TxEffect state (state.deliver env port handed) port handed
      ⟨state.takes env handed.length,
        handed.length - state.takes env handed.length⟩ where
  mbufs := rfl
  conf := rfl
  tables := fun _ _ => rfl
  log := ⟨_, rfl, by simp⟩
  custody := by
    have nothing : (state.qconf.txMbufs port.toNat).buffered = [] := by
      simp only [LcoreState.txLen] at empty
      simp [MbufTable.buffered, empty]
    have accepted := Custody.Run.accept (state.custody port.toNat) handed
    have flushed := accepted.trans (Custody.Run.flush _ (state.takes env handed.length))
    simpa [LcoreState.custody, nothing] using flushed
  sent := by
    have le := state.takes_le env handed.length
    simp [Nat.min_eq_left le]
  dropped := by
    simp

theorem trans {state middle last : LcoreState}
    (before : TxEffect state middle port handed stats)
    (after : TxEffect middle last port later stats') :
    TxEffect state last port (handed ++ later) (stats.add stats') where
  mbufs := after.mbufs.trans before.mbufs
  conf := by
    have afterConf := congrArg (fun conf : LcoreConf =>
      { conf with txMbufs := state.qconf.txMbufs }) after.conf
    exact afterConf.trans before.conf
  tables := fun other different =>
    (after.tables other different).trans (before.tables other different)
  log := by
    rcases before.log with ⟨bursts, isBefore, toPort⟩
    rcases after.log with ⟨bursts', isAfter, toPort'⟩
    refine ⟨bursts ++ bursts', by rw [isAfter, isBefore, List.append_assoc], ?_⟩
    intro burst member
    rcases List.mem_append.mp member with member | member
    · exact toPort burst member
    · exact toPort' burst member
  custody := before.custody.trans after.custody
  sent := by
    rw [after.sent, before.sent, TxStats.add, Nat.add_assoc]
  dropped := by
    rw [after.dropped, before.dropped, TxStats.add, Nat.add_assoc]

theorem wires {state state' : LcoreState}
    (effect : TxEffect state state' port handed stats) {other : Nat}
    (different : other ≠ port.toNat) :
    state'.transmitted other = state.transmitted other := by
  rcases effect.log with ⟨bursts, isLog, toPort⟩
  have nothing : bursts.flatMap (fun burst =>
      if burst.port.toNat = other then burst.mbufs else []) = [] := by
    rw [List.flatMap_eq_nil_iff]
    intro burst member
    rw [toPort burst member, if_neg (Ne.symm different)]
  rw [LcoreState.transmitted, isLog, List.flatMap_append, nothing, List.append_nil]
  rfl

/-- What was handed in was sent, was dropped or makes the buffer longer. -/
theorem accounted {state state' : LcoreState}
    (effect : TxEffect state state' port handed stats) :
    stats.sent + stats.dropped + state'.txLen port.toNat =
      state.txLen port.toNat + handed.length := by
  have lengths := effect.custody.perm.length_eq
  have sent := effect.sent
  have dropped := effect.dropped
  simp only [Custody.items, LcoreState.custody, List.length_append,
    MbufTable.length_buffered] at lengths
  simp only [LcoreState.txLen]
  omega

end TxEffect

/-! ## The calls have these effects -/

theorem txLen_setTable_self (state : LcoreState) (port : BitVec 16) (table : MbufTable) :
    (state.setTable port table).txLen port.toNat = table.len := by
  simp [LcoreState.txLen]

/-- The length of a buffer after `sendPacketsx4` was handed `num` packets. -/
def x4Len (env : Env) (len num : Nat) : Nat :=
  if env.txBurstSize ≤ num ∧ len = 0 then 0
  else if maxPktBurst ≤ len + num then len + num - maxPktBurst
  else len + num

theorem x4Len_lt (env : Env) {len num : Nat} (room : len < maxPktBurst)
    (inside : num ≤ maxPktBurst) : x4Len env len num < maxPktBurst := by
  unfold x4Len
  have positive : 0 < maxPktBurst := by decide
  split
  · exact positive
  · split <;> omega

/-- Append to the buffer, empty it and start it again with `rest`. -/
theorem TxEffect.refill (env : Env) (state : LcoreState) (port : BitVec 16)
    (full rest : MbufTable) (handed : List MbufPtr)
    (appended : full.buffered = (state.qconf.txMbufs port.toNat).buffered ++ handed) :
    TxEffect state ((state.deliver env port full.buffered).setTable port rest) port
      (handed ++ rest.buffered)
      ⟨state.takes env full.len, full.len - state.takes env full.len⟩ := by
  have stored := TxEffect.store state port full handed appended
  have flushed := TxEffect.flush env (state.setTable port full) port ⟨0, rest.mTable⟩ rfl
  have restored := TxEffect.store
    ((state.deliver env port full.buffered).setTable port ⟨0, rest.mTable⟩) port rest
    rest.buffered (by simp [MbufTable.buffered])
  have emptied := stored.trans flushed
  rw [LcoreState.txMbufs_setTable_self, LcoreState.deliver_setTable,
    LcoreState.setTable_setTable] at emptied
  have all := emptied.trans restored
  simpa [LcoreState.txLen, TxStats.add] using all

theorem sendPacketsx4_direct (env : Env) (state : LcoreState) {port : BitVec 16}
    (m : Nat → MbufPtr) {num : Nat} (valid : port.toNat < rteMaxEthports)
    (enough : env.txBurstSize ≤ num) (empty : state.txLen port.toNat = 0) :
    sendPacketsx4 env state port m num =
      .ok (state.deliver env port ((List.range num).map m),
        ⟨state.takes env num, num - state.takes env num⟩) := by
  simp only [LcoreState.txLen] at empty
  simp only [sendPacketsx4, state.txTable_ok valid, bind, Except.bind]
  rw [if_pos ⟨enough, empty⟩]
  simp [rteEthTxBurst, rtePktmbufFreeRange, deliver, takes, drop_range_map]

theorem sendPacketsx4_buffer (env : Env) (state : LcoreState) {port : BitVec 16}
    (m : Nat → MbufPtr) {num : Nat} (valid : port.toNat < rteMaxEthports)
    (buffered : ¬ (env.txBurstSize ≤ num ∧ state.txLen port.toNat = 0))
    (positive : 0 < num) (fits : state.txLen port.toNat + num < maxPktBurst) :
    sendPacketsx4 env state port m num =
      .ok (state.setTable port { (state.qconf.txMbufs port.toNat).fill
        (state.txLen port.toNat) m num with len := state.txLen port.toNat + num },
        ⟨0, 0⟩) := by
  simp only [LcoreState.txLen] at buffered fits ⊢
  have noOverflow : ¬ maxPktBurst < (state.qconf.txMbufs port.toNat).len + num := by omega
  have notFull : (state.qconf.txMbufs port.toNat).len + num ≠ maxPktBurst := by omega
  have copied := copyMbufs_fill (state.qconf.txMbufs port.toNat)
    (state.qconf.txMbufs port.toNat).len m num positive (by omega)
  simp only [sendPacketsx4, state.txTable_ok valid, bind, Except.bind, if_neg buffered,
    if_neg noOverflow, copied, if_neg notFull, LcoreState.setTable_setTable]

/-- The buffer fills up: it is sent, and the rest of the packets stay behind. -/
theorem sendPacketsx4_flush (env : Env) (state : LcoreState) {port : BitVec 16}
    (m : Nat → MbufPtr) {num : Nat} (valid : port.toNat < rteMaxEthports)
    (buffered : ¬ (env.txBurstSize ≤ num ∧ state.txLen port.toNat = 0))
    (room : state.txLen port.toNat < maxPktBurst) (inside : num ≤ maxPktBurst)
    (overflow : maxPktBurst ≤ state.txLen port.toNat + num) :
    let len := state.txLen port.toNat
    let full : MbufTable := { (state.qconf.txMbufs port.toNat).fill len m (maxPktBurst - len)
      with len := maxPktBurst }
    ∃ rest : MbufTable,
      rest.buffered = (List.range (len + num - maxPktBurst)).map
        (fun j => m (maxPktBurst - len + j)) ∧
      rest.len = len + num - maxPktBurst ∧
      sendPacketsx4 env state port m num =
        .ok ((state.deliver env port full.buffered).setTable port rest,
          ⟨state.takes env maxPktBurst, maxPktBurst - state.takes env maxPktBurst⟩) := by
  intro len full
  have lenIs : (state.qconf.txMbufs port.toNat).len = len := rfl
  have count : (if maxPktBurst < len + num then maxPktBurst - len else num) =
      maxPktBurst - len := by
    split <;> omega
  have isFull : len + (maxPktBurst - len) = maxPktBurst := by omega
  have notDirect : ¬ (env.txBurstSize ≤ num ∧ len = 0) := buffered
  have copied := copyMbufs_fill (state.qconf.txMbufs port.toNat) len m (maxPktBurst - len)
    (by omega) (Nat.le_of_eq isFull)
  have burst : sendBurst env
      (state.setTable port ((state.qconf.txMbufs port.toNat).fill len m (maxPktBurst - len)))
      maxPktBurst port =
      .ok ((state.deliver env port full.buffered).setTable port
        ((state.qconf.txMbufs port.toNat).fill len m (maxPktBurst - len)),
        state.takes env maxPktBurst) := by
    rw [sendBurst_eq env _ valid (Nat.le_refl _)]
    simp [full, MbufTable.buffered, LcoreState.deliver_setTable]
  have start : sendPacketsx4 env state port m num =
      (if num - (maxPktBurst - len) = 0 then
        .ok ((state.deliver env port full.buffered).setTable port
          { (state.qconf.txMbufs port.toNat).fill len m (maxPktBurst - len)
            with len := num - (maxPktBurst - len) },
          ⟨state.takes env maxPktBurst, maxPktBurst - state.takes env maxPktBurst⟩)
      else do
        let table ← copyMbufs 0 (fun j => m (maxPktBurst - len + j))
          (num - (maxPktBurst - len))
          ((state.qconf.txMbufs port.toNat).fill len m (maxPktBurst - len))
        .ok ((state.deliver env port full.buffered).setTable port
          { table with len := num - (maxPktBurst - len) },
          ⟨state.takes env maxPktBurst, maxPktBurst - state.takes env maxPktBurst⟩)) := by
    simp only [sendPacketsx4, state.txTable_ok valid, bind, Except.bind, lenIs,
      if_neg notDirect, count, copied, isFull, if_true, burst, LcoreState.setTable_setTable]
  rw [start]
  have restLen : num - (maxPktBurst - len) = len + num - maxPktBurst := by omega
  rw [restLen]
  rcases Nat.eq_zero_or_pos (len + num - maxPktBurst) with none | some
  · refine ⟨_, ?_, ?_, if_pos none⟩
    · simp [MbufTable.buffered, none]
    · rfl
  · have positive : len + num - maxPktBurst ≠ 0 := by omega
    rw [if_neg positive, copyMbufs_fill _ 0 _ _ some (by omega)]
    refine ⟨_, ?_, ?_, rfl⟩
    · apply List.map_congr_left
      intro index member
      have below := List.mem_range.mp member
      have covered : 0 ≤ index ∧ index < 0 + (len + num - maxPktBurst) := by
        exact ⟨Nat.zero_le index, by simpa using below⟩
      simp only [MbufTable.fill, if_pos covered, Nat.sub_zero]
    · rfl

/-- With room in the buffer, `sendPacketsx4` stays inside the table and hands its
packets on. -/
theorem sendPacketsx4_spec (env : Env) (state : LcoreState) {port : BitVec 16}
    (m : Nat → MbufPtr) {num : Nat} (valid : port.toNat < rteMaxEthports)
    (room : state.txLen port.toNat < maxPktBurst)
    (positive : 0 < num) (inside : num ≤ maxPktBurst) :
    ∃ state' stats,
      sendPacketsx4 env state port m num = .ok (state', stats) ∧
      TxEffect state state' port ((List.range num).map m) stats ∧
      state'.txLen port.toNat = x4Len env (state.txLen port.toNat) num := by
  by_cases direct : env.txBurstSize ≤ num ∧ state.txLen port.toNat = 0
  · have effect := TxEffect.direct env state port ((List.range num).map m) direct.2
    refine ⟨_, _, sendPacketsx4_direct env state m valid direct.1 direct.2, ?_, ?_⟩
    · simpa using effect
    · rw [x4Len, if_pos direct]
      exact direct.2
  rcases Nat.lt_or_ge (state.txLen port.toNat + num) maxPktBurst with fits | overflow
  · refine ⟨_, _, sendPacketsx4_buffer env state m valid direct positive fits, ?_, ?_⟩
    · apply TxEffect.store
      exact MbufTable.buffered_fill (state.qconf.txMbufs port.toNat) m num
    · have noOverflow : ¬ maxPktBurst ≤ state.txLen port.toNat + num := by omega
      rw [txLen_setTable_self, x4Len, if_neg direct, if_neg noOverflow]
  · rcases sendPacketsx4_flush env state m valid direct room inside overflow with
      ⟨rest, restBuffered, restLen, run⟩
    refine ⟨_, _, run, ?_, ?_⟩
    · generalize lenIs : state.txLen port.toNat = len at *
      have filled := MbufTable.buffered_fill (state.qconf.txMbufs port.toNat) m
        (maxPktBurst - len)
      have isFull : len + (maxPktBurst - len) = maxPktBurst := by omega
      have tableLen : (state.qconf.txMbufs port.toNat).len = len := lenIs
      simp only [tableLen, isFull] at filled
      have refilled := TxEffect.refill env state port _ rest _ filled
      have parts : (List.range num).map m =
          (List.range (maxPktBurst - len)).map m ++
            (List.range (len + num - maxPktBurst)).map
              (fun j => m (maxPktBurst - len + j)) := by
        have split : num = maxPktBurst - len + (len + num - maxPktBurst) := by omega
        conv_lhs => rw [split]
        rw [List.range_add, List.map_append, List.map_map]
        rfl
      rw [parts, ← restBuffered]
      exact refilled
    · rw [txLen_setTable_self, restLen, x4Len, if_neg direct, if_pos overflow]

/-- With a full buffer, `sendPacketsx4` writes behind the table: there is nothing
to copy, and the copy of nothing begins with four elements. -/
theorem sendPacketsx4_full (env : Env) (state : LcoreState) {port : BitVec 16}
    (m : Nat → MbufPtr) {num : Nat} (valid : port.toNat < rteMaxEthports)
    (full : maxPktBurst ≤ state.txLen port.toNat) (positive : 0 < num) :
    sendPacketsx4 env state port m num = .error (.mTableIndex (state.txLen port.toNat)) := by
  have someLen : 0 < maxPktBurst := by decide
  simp only [LcoreState.txLen] at full ⊢
  have notEmpty : ¬ (env.txBurstSize ≤ num ∧ (state.qconf.txMbufs port.toNat).len = 0) := by
    omega
  have overflow : maxPktBurst < (state.qconf.txMbufs port.toNat).len + num := by omega
  simp only [sendPacketsx4, state.txTable_ok valid, bind, Except.bind, if_neg notEmpty,
    if_pos overflow, copyMbufs_full _ _ m _ full]

theorem sendPacketsx4_invalidPort (env : Env) (state : LcoreState) {port : BitVec 16}
    (m : Nat → MbufPtr) (num : Nat) (invalid : ¬ port.toNat < rteMaxEthports) :
    sendPacketsx4 env state port m num = .error (.txMbufsIndex port) := by
  simp only [sendPacketsx4, LcoreState.txTable, if_neg invalid, bind, Except.bind]

/-- The length of a buffer after `sendSinglePacket`. -/
def singleLen (env : Env) (len : Nat) : Nat :=
  if len + 1 = env.rxBurstSize then 0 else len + 1

theorem singleLen_le (env : Env) {len : Nat} (room : len < maxPktBurst) :
    singleLen env len ≤ maxPktBurst := by
  unfold singleLen
  split
  · exact Nat.zero_le _
  · exact room

/-- The buffer with one more packet. -/
def MbufTable.push (table : MbufTable) (m : MbufPtr) : MbufTable :=
  { table.fill table.len (fun _ => m) 1 with len := table.len + 1 }

theorem MbufTable.buffered_push (table : MbufTable) (m : MbufPtr) :
    (table.push m).buffered = table.buffered ++ [m] :=
  table.buffered_fill (fun _ => m) 1

theorem sendSinglePacket_eq (env : Env) (state : LcoreState) (m : MbufPtr)
    {port : BitVec 16} (valid : port.toNat < rteMaxEthports)
    (room : state.txLen port.toNat < maxPktBurst) :
    sendSinglePacket env state m port =
      .ok (if state.txLen port.toNat + 1 = env.rxBurstSize then
        ((state.deliver env port ((state.qconf.txMbufs port.toNat).push m).buffered).setTable
          port { (state.qconf.txMbufs port.toNat).push m with len := 0 },
          state.takes env env.rxBurstSize)
      else
        (state.setTable port ((state.qconf.txMbufs port.toNat).push m), 0)) := by
  have put : (state.qconf.txMbufs port.toNat).put (state.qconf.txMbufs port.toNat).len m =
      .ok ((state.qconf.txMbufs port.toNat).fill (state.qconf.txMbufs port.toNat).len
        (fun _ => m) 1) := by
    have atFirst := (state.qconf.txMbufs port.toNat).put_fill
      (state.qconf.txMbufs port.toNat).len (fun _ => m) 0 room
    rw [MbufTable.fill_zero] at atFirst
    exact atFirst
  simp only [sendSinglePacket, state.txTable_ok valid, bind, Except.bind, put]
  by_cases filled : state.txLen port.toNat + 1 = env.rxBurstSize
  · have burstSize : env.rxBurstSize ≤ maxPktBurst := by omega
    have burst := sendBurst_eq env
      (state.setTable port ((state.qconf.txMbufs port.toNat).fill
        (state.qconf.txMbufs port.toNat).len (fun _ => m) 1)) valid burstSize
    have filledNow : ((state.qconf.txMbufs port.toNat).fill
        (state.qconf.txMbufs port.toNat).len (fun _ => m) 1).len + 1 = env.rxBurstSize := filled
    simp only [LcoreState.txLen] at filled
    rw [if_pos filledNow, burst]
    simp [MbufTable.buffered, MbufTable.push, LcoreState.deliver_setTable, filled,
      LcoreState.txLen]
  · have notFilledNow : ¬ ((state.qconf.txMbufs port.toNat).fill
        (state.qconf.txMbufs port.toNat).len (fun _ => m) 1).len + 1 = env.rxBurstSize := filled
    rw [if_neg filled, if_neg notFilledNow, LcoreState.setTable_setTable]
    rfl

/-- With room in the buffer, `sendSinglePacket` hands its packet on. The packets
it drops are those of a flush that the driver did not take. -/
theorem sendSinglePacket_spec (env : Env) (state : LcoreState) (m : MbufPtr)
    {port : BitVec 16} (valid : port.toNat < rteMaxEthports)
    (room : state.txLen port.toNat < maxPktBurst) :
    ∃ state' sent,
      sendSinglePacket env state m port = .ok (state', sent) ∧
      TxEffect state state' port [m] ⟨sent,
        if state.txLen port.toNat + 1 = env.rxBurstSize then env.rxBurstSize - sent else 0⟩ ∧
      state'.txLen port.toNat = singleLen env (state.txLen port.toNat) := by
  have run := sendSinglePacket_eq env state m valid room
  have appended := (state.qconf.txMbufs port.toNat).buffered_push m
  by_cases filled : state.txLen port.toNat + 1 = env.rxBurstSize
  · rw [if_pos filled] at run
    refine ⟨_, _, run, ?_, ?_⟩
    · have refilled := TxEffect.refill env state port _
        { (state.qconf.txMbufs port.toNat).push m with len := 0 } [m] appended
      rw [if_pos filled, ← filled]
      exact refilled
    · rw [txLen_setTable_self, singleLen, if_pos filled]
  · rw [if_neg filled] at run
    refine ⟨_, _, run, ?_, ?_⟩
    · rw [if_neg filled]
      exact TxEffect.store state port _ [m] appended
    · rw [txLen_setTable_self, singleLen, if_neg filled]
      rfl

theorem sendSinglePacket_full (env : Env) (state : LcoreState) (m : MbufPtr)
    {port : BitVec 16} (valid : port.toNat < rteMaxEthports)
    (full : maxPktBurst ≤ state.txLen port.toNat) :
    sendSinglePacket env state m port = .error (.mTableIndex (state.txLen port.toNat)) := by
  have outside : ¬ (state.qconf.txMbufs port.toNat).len < maxPktBurst := by
    simp only [LcoreState.txLen] at full
    omega
  simp only [sendSinglePacket, state.txTable_ok valid, bind, Except.bind, MbufTable.put,
    if_neg outside, LcoreState.txLen]

theorem sendSinglePacket_invalidPort (env : Env) (state : LcoreState) (m : MbufPtr)
    {port : BitVec 16} (invalid : ¬ port.toNat < rteMaxEthports) :
    sendSinglePacket env state m port = .error (.txMbufsIndex port) := by
  simp only [sendSinglePacket, LcoreState.txTable, if_neg invalid, bind, Except.bind]

theorem drainTxPort_invalidPort (env : Env) (state : LcoreState) {port : BitVec 16}
    (invalid : ¬ port.toNat < rteMaxEthports) :
    drainTxPort env state port = .error (.txMbufsIndex port) := by
  simp only [drainTxPort, LcoreState.txTable, if_neg invalid, bind, Except.bind]

theorem drainTxPort_spec (env : Env) (state : LcoreState) {port : BitVec 16}
    (valid : port.toNat < rteMaxEthports) (inside : state.txLen port.toNat ≤ maxPktBurst) :
    ∃ state' stats,
      drainTxPort env state port = .ok (state', stats) ∧
      TxEffect state state' port [] stats ∧ state'.txLen port.toNat = 0 := by
  by_cases empty : state.txLen port.toNat = 0
  · refine ⟨state, ⟨0, 0⟩, ?_, TxEffect.refl state port, empty⟩
    simp only [LcoreState.txLen] at empty
    simp only [drainTxPort, state.txTable_ok valid, bind, Except.bind, if_pos empty]
  · have flushed := TxEffect.flush env state port
      { state.qconf.txMbufs port.toNat with len := 0 } rfl
    refine ⟨_, _, ?_, flushed, txLen_setTable_self _ _ _⟩
    simp only [LcoreState.txLen] at empty inside
    simp only [drainTxPort, state.txTable_ok valid, bind, Except.bind, if_neg empty,
      sendBurst_eq env state valid inside]
    rfl

/-! ## A driver that takes everything -/

/-- A driver that takes whatever it is offered. -/
def Env.TakesAll (env : Env) : Prop :=
  ∀ calls, maxPktBurst ≤ env.txAccept calls

/-- The mbufs on their way out of a port: those that have left, and those in the buffer. -/
def LcoreState.outgoing (state : LcoreState) (port : BitVec 16) : List MbufPtr :=
  state.transmitted port.toNat ++ (state.qconf.txMbufs port.toNat).buffered

theorem Env.TakesAll.takes {env : Env} (takesAll : env.TakesAll) (state : LcoreState)
    {offered : Nat} (inside : offered ≤ maxPktBurst) : state.takes env offered = offered :=
  Nat.min_eq_right (Nat.le_trans inside (takesAll _))

/-- If nothing is dropped, what was handed to a port is on its way out. -/
theorem TxEffect.kept {state state' : LcoreState}
    (effect : TxEffect state state' port handed stats) (none : stats.dropped = 0)
    (other : BitVec 16) :
    state'.outgoing other = state.outgoing other ++ (if port = other then handed else []) ∧
      state'.freed = state.freed := by
  have length := effect.dropped
  rw [none, Nat.add_zero] at length
  rcases effect.custody.kept length with ⟨inOrder, freed⟩
  refine ⟨?_, freed⟩
  by_cases same : port = other
  · subst same
    rw [if_pos rfl]
    exact inOrder
  · have different : other.toNat ≠ port.toNat :=
      fun equal => same (BitVec.eq_of_toNat_eq equal).symm
    rw [if_neg same, List.append_nil, LcoreState.outgoing, LcoreState.outgoing,
      effect.tables _ different, effect.wires different]

/-- A call that returns was made for a port that exists and a buffer with room. -/
theorem sendPacketsx4_kept {env : Env} (takesAll : env.TakesAll) {state : LcoreState}
    {port : BitVec 16} {m : Nat → MbufPtr} {num : Nat} (positive : 0 < num)
    (inside : num ≤ maxPktBurst) {result : LcoreState × TxStats}
    (ran : sendPacketsx4 env state port m num = .ok result) :
    TxEffect state result.1 port ((List.range num).map m) result.2 ∧ result.2.dropped = 0 := by
  have valid : port.toNat < rteMaxEthports := by
    by_contra invalid
    rw [sendPacketsx4_invalidPort env state m num invalid] at ran
    cases ran
  have room : state.txLen port.toNat < maxPktBurst := by
    by_contra noRoom
    rw [sendPacketsx4_full env state m valid (Nat.le_of_not_lt noRoom) positive] at ran
    cases ran
  rcases sendPacketsx4_spec env state m valid room positive inside with
    ⟨state', stats, returned, effect, _⟩
  rw [returned] at ran
  cases ran
  refine ⟨effect, ?_⟩
  by_cases direct : env.txBurstSize ≤ num ∧ state.txLen port.toNat = 0
  · rw [sendPacketsx4_direct env state m valid direct.1 direct.2] at returned
    cases returned
    exact Nat.sub_eq_zero_of_le (Nat.le_of_eq (takesAll.takes state inside).symm)
  rcases Nat.lt_or_ge (state.txLen port.toNat + num) maxPktBurst with fits | overflow
  · rw [sendPacketsx4_buffer env state m valid direct positive fits] at returned
    cases returned
    rfl
  · rcases sendPacketsx4_flush env state m valid direct room inside overflow with
      ⟨rest, _, _, flushed⟩
    rw [flushed] at returned
    cases returned
    exact Nat.sub_eq_zero_of_le (Nat.le_of_eq (takesAll.takes state (Nat.le_refl _)).symm)

theorem sendSinglePacket_kept {env : Env} (takesAll : env.TakesAll) {state : LcoreState}
    {port : BitVec 16} {m : MbufPtr} {result : LcoreState × Nat}
    (ran : sendSinglePacket env state m port = .ok result) :
    ∃ stats, TxEffect state result.1 port [m] stats ∧ stats.dropped = 0 := by
  have valid : port.toNat < rteMaxEthports := by
    by_contra invalid
    rw [sendSinglePacket_invalidPort env state m invalid] at ran
    cases ran
  have room : state.txLen port.toNat < maxPktBurst := by
    by_contra noRoom
    rw [sendSinglePacket_full env state m valid (Nat.le_of_not_lt noRoom)] at ran
    cases ran
  rcases sendSinglePacket_spec env state m valid room with ⟨state', sent, returned, effect, _⟩
  have equation := sendSinglePacket_eq env state m valid room
  rw [returned] at ran equation
  cases ran
  refine ⟨_, effect, ?_⟩
  by_cases filled : state.txLen port.toNat + 1 = env.rxBurstSize
  · have inside : env.rxBurstSize ≤ maxPktBurst := by omega
    rw [if_pos filled] at equation ⊢
    cases equation
    exact Nat.sub_eq_zero_of_le (Nat.le_of_eq (takesAll.takes state inside).symm)
  · rw [if_neg filled]

end PacketForwarding.L3fwd
