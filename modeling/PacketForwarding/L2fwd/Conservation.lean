import PacketForwarding.L2fwd.Ownership

/-! # No packet is lost or counted twice

What is received on a port is sent, dropped or still in the buffer of its destination. The
counts are written in different functions, and one of them by the callback of the buffer. No
two ports have one destination, so that all packets of a destination come from one port.
-/

namespace PacketForwarding.L2fwd

open CString

/-! ## What a destination holds -/

namespace Memory

/-- What was dropped and what is in the buffer. -/
def held (memory : Memory) (port : Nat) : BitVec 64 :=
  (memory.portStatistics port).dropped + BitVec.ofNat 64 (memory.txBuffer port).length

theorem flush_held (memory : Memory) {port sent : Nat}
    (enough : sent ≤ (memory.txBuffer port).length) :
    (memory.flush port sent).held port + BitVec.ofNat 64 sent = memory.held port := by
  have split : (memory.txBuffer port).length = (memory.txBuffer port).length - sent + sent := by
    omega
  have counted : BitVec.ofNat 64 ((memory.txBuffer port).length - sent) + BitVec.ofNat 64 sent
      = BitVec.ofNat 64 (memory.txBuffer port).length := by
    rw [← BitVec.ofNat_add, ← split]
  simp only [held, flush, Function.update_self, List.length_nil]
  rw [← counted, BitVec.add_zero, add_assoc]

theorem flush_held_of_ne (memory : Memory) {port other : Nat} (sent : Nat)
    (differ : other ≠ port) : (memory.flush port sent).held other = memory.held other := by
  simp only [held, flush, Function.update_of_ne differ]

@[simp]
theorem flush_read (memory : Memory) (port sent : Nat) (counter : Counter) :
    (memory.flush port sent).read counter = memory.read counter := by
  cases counter with
  | tx other | rx other =>
      by_cases same : other = port
      · simp only [read, flush, same, Function.update_self]
      · simp only [read, flush, Function.update_of_ne same]

/-- The memory with the packet behind those in the buffer. -/
def append (memory : Memory) (port : Nat) (m : RteMbuf) : Memory :=
  { memory with txBuffer := Function.update memory.txBuffer port (memory.txBuffer port ++ [m]) }

theorem append_length (memory : Memory) (port : Nat) (m : RteMbuf) :
    ((memory.append port m).txBuffer port).length = (memory.txBuffer port).length + 1 := by
  simp only [append, Function.update_self, List.length_append, List.length_singleton]

theorem append_held (memory : Memory) (port : Nat) (m : RteMbuf) :
    (memory.append port m).held port = memory.held port + 1 := by
  rw [held, append_length, BitVec.ofNat_add, ← add_assoc]
  rfl

theorem append_held_of_ne (memory : Memory) {port other : Nat} (m : RteMbuf)
    (differ : other ≠ port) : (memory.append port m).held other = memory.held other := by
  simp only [held, append, Function.update_of_ne differ]

@[simp]
theorem append_read (memory : Memory) (port : Nat) (m : RteMbuf) (counter : Counter) :
    (memory.append port m).read counter = memory.read counter := by
  cases counter <;> rfl

theorem rteEthTxBuffer_eq (memory : Memory) (port : Nat) (m : RteMbuf) (sent : Nat) :
    memory.rteEthTxBuffer port m sent =
      if (memory.txBuffer port).length + 1 < maxPktBurst then (0, memory.append port m)
      else (sent, (memory.append port m).flush port sent) := by
  rw [rteEthTxBuffer, List.length_append]
  rfl

/-- The packet is in the buffer, sent or dropped. -/
theorem rteEthTxBuffer_held (memory : Memory) (m : RteMbuf) {port sent : Nat}
    (enough : sent ≤ (memory.txBuffer port).length + 1) :
    (memory.rteEthTxBuffer port m sent).2.held port
        + BitVec.ofNat 64 (memory.rteEthTxBuffer port m sent).1
      = memory.held port + 1 := by
  rw [rteEthTxBuffer_eq, ← memory.append_held port m]
  split
  · exact BitVec.add_zero _
  · rw [← memory.append_length port m] at enough
    exact flush_held _ enough

theorem rteEthTxBuffer_held_of_ne (memory : Memory) (m : RteMbuf) {port other : Nat} (sent : Nat)
    (differ : other ≠ port) :
    (memory.rteEthTxBuffer port m sent).2.held other = memory.held other := by
  rw [rteEthTxBuffer_eq, ← memory.append_held_of_ne m differ]
  split
  · rfl
  · exact flush_held_of_ne _ sent differ

@[simp]
theorem rteEthTxBuffer_read (memory : Memory) (m : RteMbuf) (port sent : Nat) (counter : Counter) :
    (memory.rteEthTxBuffer port m sent).2.read counter = memory.read counter := by
  rw [rteEthTxBuffer_eq, ← memory.append_read port m]
  split
  · rfl
  · exact flush_read _ port sent counter

theorem flush_room {memory : Memory} {port other : Nat} (sent : Nat)
    (room : (memory.txBuffer other).length < maxPktBurst) :
    ((memory.flush port sent).txBuffer other).length < maxPktBurst := by
  by_cases same : other = port
  · simp only [flush, same, Function.update_self]
    exact Nat.zero_lt_succ 31
  · simp only [flush, Function.update_of_ne same]
    exact room

theorem rteEthTxBuffer_room {memory : Memory} (m : RteMbuf) {port other : Nat} (sent : Nat)
    (room : (memory.txBuffer other).length < maxPktBurst) :
    ((memory.rteEthTxBuffer port m sent).2.txBuffer other).length < maxPktBurst := by
  by_cases same : other = port
  · subst same
    rw [rteEthTxBuffer_eq]
    split
    · rename_i fits
      exact (memory.append_length other m).trans_lt fits
    · simp only [flush, Function.update_self]
      exact Nat.zero_lt_succ 31
  · have appended : ((memory.append port m).txBuffer other).length < maxPktBurst := by
      simpa only [append, Function.update_of_ne same] using room
    rw [rteEthTxBuffer_eq]
    split
    · exact appended
    · exact flush_room sent appended

@[simp]
theorem write_read_self (memory : Memory) (counter : Counter) (value : BitVec 64) :
    (memory.write counter value).read counter = value := by
  cases counter <;> simp only [read, write, Function.update_self]

theorem write_read_of_ne (memory : Memory) {counter other : Counter} (value : BitVec 64)
    (differ : other ≠ counter) : (memory.write counter value).read other = memory.read other := by
  cases counter with
  | tx port | rx port =>
      cases other with
      | tx other | rx other =>
          by_cases same : other = port
          · first
              | exact absurd (same ▸ rfl) differ
              | simp only [read, write, same, Function.update_self]
          · simp only [read, write, Function.update_of_ne same]

@[simp]
theorem write_held (memory : Memory) (counter : Counter) (value : BitVec 64) (port : Nat) :
    (memory.write counter value).held port = memory.held port := by
  cases counter with
  | tx other | rx other =>
      by_cases same : port = other
      · simp only [held, write, same, Function.update_self]
      · simp only [held, write, Function.update_of_ne same]

end Memory

/-! ## What an lcore accounts for -/

/-- A counter as the addition that is under way leaves it. -/
def Lcore.read (own : Lcore) (memory : Memory) (counter : Counter) : BitVec 64 :=
  match own.adding with
  | none => memory.read counter
  | some (.load added amount) =>
      if counter = added then memory.read counter + BitVec.ofNat 64 amount
      else memory.read counter
  | some (.store added value) => if counter = added then value else memory.read counter

/-- The packets of a burst of the port that are still to be forwarded. -/
def Lcore.unforwarded (config : Config) (lcore : Nat) (own : Lcore) (port : Nat) : Nat :=
  match own.pc with
  | .forward i pkts => if (config.rxPortList lcore)[i]? = some port then pkts.length else 0
  | _ => 0

def Lcore.Accounts (config : Config) (lcore : Nat) (own : Lcore) (memory : Memory) (port : Nat) :
    Prop :=
  own.read memory (.rx port)
    = own.read memory (.tx (config.dstPorts port)) + memory.held (config.dstPorts port)
      + BitVec.ofNat 64 (own.unforwarded config lcore port)

/-- An lcore does not send the packets of two ports to one. -/
def Config.Apart (config : Config) : Prop :=
  ∀ lcore, ∀ one ∈ config.rxPortList lcore, ∀ other ∈ config.rxPortList lcore,
    config.dstPorts one = config.dstPorts other → one = other

section Accounts

variable {config : Config} {lcore : Nat} {memory : Memory} {port : Nat}

theorem read_load (pc : Pc) (counter other : Counter) (amount : Nat) :
    Lcore.read ⟨pc, some (.store counter (memory.read counter + BitVec.ofNat 64 amount))⟩
        memory other
      = Lcore.read ⟨pc, some (.load counter amount)⟩ memory other := by
  simp only [Lcore.read]
  split
  · rename_i same
    rw [same]
  · rfl

theorem read_store (pc : Pc) (counter other : Counter) (value : BitVec 64) :
    Lcore.read ⟨pc, none⟩ (memory.write counter value) other
      = Lcore.read ⟨pc, some (.store counter value)⟩ memory other := by
  simp only [Lcore.read]
  split
  · rename_i same
    rw [same, Memory.write_read_self]
  · rename_i differ
    exact Memory.write_read_of_ne memory value differ

theorem read_addSent_self (pc : Pc) (dst sent : Nat) :
    Lcore.read ⟨pc, addSent dst sent⟩ memory (.tx dst)
      = memory.read (.tx dst) + BitVec.ofNat 64 sent := by
  rw [addSent]
  split
  · rename_i none
    rw [none]
    exact (BitVec.add_zero _).symm
  · simp only [Lcore.read, if_true]

theorem read_addSent_of_ne (pc : Pc) {dst : Nat} (sent : Nat) {counter : Counter}
    (differ : counter ≠ .tx dst) :
    Lcore.read ⟨pc, addSent dst sent⟩ memory counter = memory.read counter := by
  rw [addSent]
  split
  · rfl
  · simp only [Lcore.read, if_neg differ]

/-- Where packets leave the burst of a port for the buffer of its destination, which may then
be sent, the port is still accounted for. -/
theorem accounts_addSent {own : Lcore} {memory' : Memory} {pc : Pc} {sent : Nat}
    (leaving : Nat) (idle : own.adding = none) (accounts : own.Accounts config lcore memory port)
    (reads : ∀ counter, memory'.read counter = memory.read counter)
    (held : memory'.held (config.dstPorts port) + BitVec.ofNat 64 sent
      = memory.held (config.dstPorts port) + BitVec.ofNat 64 leaving)
    (left : own.unforwarded config lcore port
      = Lcore.unforwarded config lcore ⟨pc, none⟩ port + leaving) :
    Lcore.Accounts config lcore ⟨pc, addSent (config.dstPorts port) sent⟩ memory' port := by
  rw [Lcore.Accounts] at accounts ⊢
  rw [read_addSent_self, read_addSent_of_ne pc sent Counter.noConfusion, reads, reads]
  simp only [Lcore.read, idle] at accounts
  rw [accounts, left, BitVec.ofNat_add]
  calc memory.read (.tx (config.dstPorts port)) + memory.held (config.dstPorts port)
        + (BitVec.ofNat 64 (Lcore.unforwarded config lcore ⟨pc, none⟩ port)
          + BitVec.ofNat 64 leaving)
      = memory.read (.tx (config.dstPorts port))
        + (memory.held (config.dstPorts port) + BitVec.ofNat 64 leaving)
        + BitVec.ofNat 64 (Lcore.unforwarded config lcore ⟨pc, none⟩ port) := by ring
    _ = memory.read (.tx (config.dstPorts port))
        + (memory'.held (config.dstPorts port) + BitVec.ofNat 64 sent)
        + BitVec.ofNat 64 (Lcore.unforwarded config lcore ⟨pc, none⟩ port) := by rw [held]
    _ = _ := by
      rw [add_comm (memory'.held _), ← add_assoc]
      rfl

/-- What goes to another destination does not matter. -/
theorem accounts_of_ne {own : Lcore} {memory' : Memory} {pc : Pc} {dst sent : Nat}
    (idle : own.adding = none) (accounts : own.Accounts config lcore memory port)
    (reads : ∀ counter, memory'.read counter = memory.read counter)
    (differ : config.dstPorts port ≠ dst)
    (held : memory'.held (config.dstPorts port) = memory.held (config.dstPorts port))
    (left : own.unforwarded config lcore port = Lcore.unforwarded config lcore ⟨pc, none⟩ port) :
    Lcore.Accounts config lcore ⟨pc, addSent dst sent⟩ memory' port := by
  rw [Lcore.Accounts] at accounts ⊢
  have otherCounter : Counter.tx (config.dstPorts port) ≠ .tx dst := fun same =>
    differ (Counter.tx.inj same)
  rw [read_addSent_of_ne pc sent Counter.noConfusion, read_addSent_of_ne pc sent otherCounter,
    reads, reads, held]
  simp only [Lcore.read, idle] at accounts
  rw [accounts, left]
  rfl

theorem LcoreStep.accounts (apart : config.Apart) {own next : Lcore} {memory' : Memory}
    {writes : List Location} (polled : port ∈ config.rxPortList lcore)
    (accounts : own.Accounts config lcore memory port)
    (step : LcoreStep config lcore own memory writes next memory') :
    next.Accounts config lcore memory' port := by
  cases step with
  | quit | due | notDue | drained | noPackets | polled => exact accounts
  | load pc counter amount =>
      rw [Lcore.Accounts, read_load, read_load]
      exact accounts
  | store pc counter value =>
      rw [Lcore.Accounts, read_store, read_store, Memory.write_held]
      exact accounts
  | forwarded i =>
      have none : Lcore.unforwarded config lcore ⟨.forward i [], none⟩ port = 0 := by
        simp only [Lcore.unforwarded, List.length_nil, ite_self]
      rw [Lcore.Accounts, none] at accounts
      exact accounts
  | flush i sent _ at_ enough =>
      rename_i portid
      by_cases same : port = portid
      · subst same
        apply accounts_addSent 0 rfl accounts (Memory.flush_read memory _ _)
        · rw [Memory.flush_held memory enough]
          exact (BitVec.add_zero _).symm
        · rfl
      · have differ : config.dstPorts port ≠ config.dstPorts portid := fun dst =>
          same (apart lcore port polled portid (List.mem_of_getElem? at_) dst)
        exact accounts_of_ne rfl accounts (Memory.flush_read memory _ _) differ
          (Memory.flush_held_of_ne memory sent differ) rfl
  | rxBurst i pkts _ at_ =>
      rename_i portid _ _
      rw [Lcore.Accounts] at accounts ⊢
      simp only [Lcore.read, Lcore.unforwarded, reduceCtorEq, if_false, at_, Option.some.injEq,
        Counter.rx.injEq] at accounts ⊢
      by_cases same : port = portid
      · subst same
        simp only [if_true, accounts]
        rw [BitVec.add_zero]
      · rw [if_neg same, if_neg (Ne.symm same)]
        exact accounts
  | simpleForward i sent m pkts _ at_ enough =>
      rename_i portid
      by_cases same : port = portid
      · subst same
        apply accounts_addSent 1 rfl accounts (Memory.rteEthTxBuffer_read memory _ _ _)
        · exact Memory.rteEthTxBuffer_held memory _ enough
        · simp only [Lcore.unforwarded, at_, if_true, List.length_cons]
      · have differ : config.dstPorts port ≠ config.dstPorts portid := fun dst =>
          same (apart lcore port polled portid (List.mem_of_getElem? at_) dst)
        apply accounts_of_ne rfl accounts (Memory.rteEthTxBuffer_read memory _ _ _) differ
          (Memory.rteEthTxBuffer_held_of_ne memory _ sent differ)
        simp only [Lcore.unforwarded, at_, Option.some.injEq, if_neg (Ne.symm same)]

end Accounts

/-! ## The other lcores -/

/-- A location is the same in both memories. -/
def Memory.Same : Location → Memory → Memory → Prop
  | .txBuffer port, one, other => other.txBuffer port = one.txBuffer port
  | .tx port, one, other => (other.portStatistics port).tx = (one.portStatistics port).tx
  | .rx port, one, other => (other.portStatistics port).rx = (one.portStatistics port).rx
  | .dropped port, one, other =>
      (other.portStatistics port).dropped = (one.portStatistics port).dropped

section Frames

variable {config : Config}

theorem Memory.same_refl (location : Location) (memory : Memory) :
    Memory.Same location memory memory := by
  cases location <;> rfl

theorem Memory.write_same (memory : Memory) (counter : Counter) (value : BitVec 64)
    {location : Location} (other : location ∉ [counter.location]) :
    Memory.Same location memory (memory.write counter value) := by
  have differ : location ≠ counter.location := fun same => other (List.mem_singleton.mpr same)
  cases counter with
  | tx port | rx port =>
      cases location with
      | txBuffer => rfl
      | tx place | rx place | dropped place =>
          by_cases same : place = port
          · first
              | exact absurd (same ▸ rfl) differ
              | simp only [Same, write, same, Function.update_self]
          · simp only [Same, write, Function.update_of_ne same]

theorem Memory.flush_same (memory : Memory) (port sent : Nat) {location : Location}
    (other : location ∉ [Location.txBuffer port, .dropped port]) :
    Memory.Same location memory (memory.flush port sent) := by
  cases location with
  | txBuffer place =>
      have differ : place ≠ port := fun same => other (same ▸ List.mem_cons_self)
      simp only [Same, flush, Function.update_of_ne differ]
  | dropped place =>
      have differ : place ≠ port := fun same =>
        other (same ▸ List.mem_cons_of_mem _ List.mem_cons_self)
      simp only [Same, flush, Function.update_of_ne differ]
  | tx place => exact memory.flush_read port sent (.tx place)
  | rx place => exact memory.flush_read port sent (.rx place)

theorem Memory.append_same (memory : Memory) (port : Nat) (m : RteMbuf) {location : Location}
    (other : location ≠ .txBuffer port) : Memory.Same location memory (memory.append port m) := by
  cases location with
  | txBuffer place =>
      have differ : place ≠ port := fun same => other (same ▸ rfl)
      simp only [Same, append, Function.update_of_ne differ]
  | tx | rx | dropped => rfl

theorem Memory.rteEthTxBuffer_same (memory : Memory) (m : RteMbuf) (port sent : Nat)
    {location : Location} (other : location ∉ [Location.txBuffer port, .dropped port]) :
    Memory.Same location memory (memory.rteEthTxBuffer port m sent).2 := by
  have appended := memory.append_same port m (List.ne_of_not_mem_cons other)
  rw [rteEthTxBuffer_eq]
  split
  · exact appended
  · have flushed := (memory.append port m).flush_same port sent other
    cases location with
    | txBuffer | tx | rx | dropped => exact Eq.trans flushed appended

theorem frames_loops : Threads.Frames (LcoreStep config) Memory.Same := by
  intro lcore own memory writes next memory' step location other
  cases step with
  | load | quit | due | notDue | drained | noPackets | rxBurst | forwarded | polled =>
      exact Memory.same_refl location memory
  | store pc counter value => exact memory.write_same counter value other
  | flush i sent => exact memory.flush_same _ sent other
  | simpleForward i sent => exact memory.rteEthTxBuffer_same _ _ sent other

theorem accounts_of_same {lcore : Nat} {own : Lcore} {memory memory' : Memory}
    (same : ∀ location, config.Owns lcore location → Memory.Same location memory memory')
    {port : Nat} (polled : port ∈ config.rxPortList lcore)
    (accounts : own.Accounts config lcore memory port) :
    own.Accounts config lcore memory' port := by
  have target : config.Targets lcore (config.dstPorts port) := ⟨port, polled, rfl⟩
  have rx : memory'.read (.rx port) = memory.read (.rx port) := same (.rx port) polled
  have tx : memory'.read (.tx (config.dstPorts port)) = memory.read (.tx (config.dstPorts port)) :=
    same (.tx _) target
  have dropped : (memory'.portStatistics (config.dstPorts port)).dropped
      = (memory.portStatistics (config.dstPorts port)).dropped := same (.dropped _) target
  have txBuffer : memory'.txBuffer (config.dstPorts port)
      = memory.txBuffer (config.dstPorts port) := same (.txBuffer _) target
  simp only [Lcore.Accounts, Lcore.read, Memory.held, rx, tx, dropped, txBuffer] at accounts ⊢
  exact accounts

theorem private_accounts (apart : config.Apart) :
    Threads.Private (LcoreStep config) (fun lcore own => own.Within config lcore) config.Owns
      Memory.Same fun lcore own memory =>
        ∀ port ∈ config.rxPortList lcore, own.Accounts config lcore memory port where
  kept := fun _ _ _ _ _ _ _ accounts step port polled =>
    step.accounts apart polled (accounts port polled)
  looks := fun _ _ _ _ same accounts port polled =>
    accounts_of_same same polled (accounts port polled)

theorem accounts_loops (parts : config.Partitioned) (apart : config.Apart)
    {trace : List (Nat × List Location)} {last : Threads Nat Lcore Memory}
    (run : LoopsRun config trace last) {lcore port : Nat}
    (polled : port ∈ config.rxPortList lcore) :
    (last.locals lcore).Accounts config lcore last.memory port := by
  apply (private_accounts apart).holds (owned_loops parts) frames_loops
    (fun lcore => within_none lcore _) _ run lcore port polled
  intro lcore port polled
  simp only [Lcore.Accounts, startLoops, if_neg (List.ne_nil_of_mem polled)]
  rfl

/-- A buffer that is full is flushed at once. -/
theorem LcoreStep.room {lcore : Nat} {own next : Lcore} {memory memory' : Memory}
    {writes : List Location} {port : Nat} (room : (memory.txBuffer port).length < maxPktBurst)
    (step : LcoreStep config lcore own memory writes next memory') :
    (memory'.txBuffer port).length < maxPktBurst := by
  cases step with
  | load | quit | due | notDue | drained | noPackets | rxBurst | forwarded | polled => exact room
  | store pc counter value =>
      cases counter <;> exact room
  | flush i sent => exact Memory.flush_room sent room
  | simpleForward i sent => exact Memory.rteEthTxBuffer_room _ sent room

theorem room_loops {trace : List (Nat × List Location)} {last : Threads Nat Lcore Memory}
    (run : LoopsRun config trace last) (port : Nat) :
    (last.memory.txBuffer port).length < maxPktBurst := by
  induction run with
  | nil => exact Nat.zero_lt_succ 31
  | snoc run next induction => exact LcoreStep.room induction next

end Frames

/-! ## Between the bursts -/

/-- An lcore is in the middle of a drain, or of a burst that was received on the port. -/
def Lcore.InMiddle (config : Config) (lcore : Nat) (own : Lcore) (port : Nat) : Prop :=
  (∃ i, own.pc = .drain i) ∨
    ∃ i pkts, own.pc = .forward i pkts ∧ (config.rxPortList lcore)[i]? = some port

/-- An addition belongs to a drain, or to the port of the burst. -/
def Lcore.AddsInMiddle (config : Config) (lcore : Nat) (own : Lcore) : Prop :=
  ∀ addition, own.adding = some addition → (∃ i, own.pc = .drain i) ∨
    ∃ i pkts portid, own.pc = .forward i pkts ∧ (config.rxPortList lcore)[i]? = some portid ∧
      (addition.counter = .rx portid ∨ addition.counter = .tx (config.dstPorts portid))

theorem counter_of_addSent {dst sent : Nat} {addition : Addition}
    (adding : addSent dst sent = some addition) : addition.counter = .tx dst := by
  rw [addSent] at adding
  split at adding
  · cases adding
  · cases adding
    rfl

theorem LcoreStep.addsInMiddle {config : Config} {lcore : Nat} {own next : Lcore}
    {memory memory' : Memory} {writes : List Location} (adds : own.AddsInMiddle config lcore)
    (step : LcoreStep config lcore own memory writes next memory') :
    next.AddsInMiddle config lcore := by
  intro addition adding
  cases step with
  | store | quit | due | notDue | drained | noPackets | forwarded | polled => cases adding
  | load pc counter amount =>
      cases adding
      exact adds (.load counter amount) rfl
  | flush i => exact .inl ⟨i + 1, rfl⟩
  | rxBurst i pkts _ at_ =>
      cases adding
      exact .inr ⟨i, pkts, _, rfl, at_, .inl rfl⟩
  | simpleForward i sent m pkts _ at_ =>
      exact .inr ⟨i, pkts, _, rfl, at_, .inr (counter_of_addSent adding)⟩

theorem addsInMiddle_loops {config : Config} (parts : config.Partitioned)
    {trace : List (Nat × List Location)} {last : Threads Nat Lcore Memory}
    (run : LoopsRun config trace last) (lcore : Nat) :
    (last.locals lcore).AddsInMiddle config lcore := by
  have ofItself : Threads.Private (LcoreStep config) (fun lcore own => own.Within config lcore)
      config.Owns Memory.Same fun lcore own _ => own.AddsInMiddle config lcore := by
    constructor
    · exact fun _ _ _ _ _ _ _ adds step => step.addsInMiddle adds
    · exact fun _ _ _ _ _ adds => adds
  apply ofItself.holds (owned_loops parts) frames_loops (fun lcore => within_none lcore _) _ run
  intro lcore addition impossible
  cases impossible

/-- Otherwise the counters of the port and of its destination are as they are in the memory. -/
theorem read_of_not_inMiddle {config : Config} {lcore port : Nat} {own : Lcore}
    (adds : own.AddsInMiddle config lcore) (outside : ¬own.InMiddle config lcore port)
    (memory : Memory) {counter : Counter}
    (others : ∀ portid ∈ config.rxPortList lcore, portid ≠ port →
      counter ≠ .rx portid ∧ counter ≠ .tx (config.dstPorts portid)) :
    own.read memory counter = memory.read counter := by
  have differ : ∀ addition, own.adding = some addition → counter ≠ addition.counter := by
    intro addition adding
    rcases adds addition adding with drain | ⟨i, pkts, portid, forward, at_, added⟩
    · exact absurd (Or.inl drain) outside
    · have notPort : portid ≠ port := fun same =>
        outside (.inr ⟨i, pkts, forward, same ▸ at_⟩)
      have apart := others portid (List.mem_of_getElem? at_) notPort
      rcases added with rx | tx
      · exact rx ▸ apart.1
      · exact tx ▸ apart.2
  rw [Lcore.read]
  split
  · rfl
  · rename_i counter' amount adding
    exact if_neg (differ _ adding)
  · rename_i counter' value adding
    exact if_neg (differ _ adding)

theorem unforwarded_of_not_inMiddle {config : Config} {lcore port : Nat} {own : Lcore}
    (outside : ¬own.InMiddle config lcore port) : own.unforwarded config lcore port = 0 := by
  rw [Lcore.unforwarded]
  split
  · rename_i i pkts forward
    apply if_neg
    exact fun at_ => outside (.inr ⟨i, pkts, forward, at_⟩)
  · rfl

/-- What was received on the port is sent, dropped or in the buffer. The counters wrap around,
and as numbers they agree where the sum is in range. -/
structure Memory.Conserves (memory : Memory) (port dst : Nat) : Prop where
  room : (memory.txBuffer dst).length < maxPktBurst
  counters : (memory.portStatistics port).rx
    = (memory.portStatistics dst).tx + (memory.portStatistics dst).dropped
      + BitVec.ofNat 64 (memory.txBuffer dst).length
  numbers : (memory.portStatistics dst).tx.toNat + (memory.portStatistics dst).dropped.toNat
      + (memory.txBuffer dst).length < 2 ^ 64 →
    (memory.portStatistics port).rx.toNat
      = (memory.portStatistics dst).tx.toNat + (memory.portStatistics dst).dropped.toNat
        + (memory.txBuffer dst).length

theorem conserves_of_accounts {config : Config} {lcore : Nat} {own : Lcore} {memory : Memory}
    {port : Nat} (room : (memory.txBuffer (config.dstPorts port)).length < maxPktBurst)
    (accounts : own.Accounts config lcore memory port)
    (idle : own.unforwarded config lcore port = 0)
    (reads : own.read memory (.rx port) = memory.read (.rx port))
    (readsDst : own.read memory (.tx (config.dstPorts port))
      = memory.read (.tx (config.dstPorts port))) :
    memory.Conserves port (config.dstPorts port) := by
  have counters : (memory.portStatistics port).rx
      = (memory.portStatistics (config.dstPorts port)).tx
        + (memory.portStatistics (config.dstPorts port)).dropped
        + BitVec.ofNat 64 (memory.txBuffer (config.dstPorts port)).length := by
    rw [Lcore.Accounts, idle, reads, readsDst] at accounts
    rw [add_assoc]
    exact accounts.trans (BitVec.add_zero _)
  constructor
  · exact room
  · exact counters
  · intro inRange
    rw [counters, BitVec.toNat_add, BitVec.toNat_add, BitVec.toNat_ofNat, Nat.mod_add_mod,
      Nat.add_mod_mod, Nat.mod_eq_of_lt inRange]

theorem conserves_loops {config : Config} (parts : config.Partitioned) (apart : config.Apart)
    {trace : List (Nat × List Location)} {last : Threads Nat Lcore Memory}
    (run : LoopsRun config trace last) {lcore port : Nat} (polled : port ∈ config.rxPortList lcore)
    (outside : ¬(last.locals lcore).InMiddle config lcore port) :
    last.memory.Conserves port (config.dstPorts port) := by
  have adds := addsInMiddle_loops parts run lcore
  apply conserves_of_accounts (room_loops run _) (accounts_loops parts apart run polled)
    (unforwarded_of_not_inMiddle outside)
  · apply read_of_not_inMiddle adds outside
    intro portid _ differ
    exact ⟨fun same => differ (Counter.rx.inj same).symm, Counter.noConfusion⟩
  · apply read_of_not_inMiddle adds outside
    intro portid alsoPolled differ
    exact ⟨Counter.noConfusion, fun same =>
      differ (apart lcore portid alsoPolled port polled (Counter.tx.inj same).symm)⟩

section Initialised

variable {lcoreEnabled : Nat → Bool} {rxQueuePerLcore nbPorts : Nat}

/-- Whatever is received and sent, and in whatever order the lcores take their steps, no packet
of an enabled port is lost or counted twice. -/
theorem packets_conserved (few : nbPorts ≤ rteMaxEthports) (mask : BitVec 32)
    (portmap : Option (List PortPairParams)) {setup : Setup}
    (initialised : initialise lcoreEnabled rxQueuePerLcore nbPorts mask portmap = some setup)
    (macUpdating : Bool) (portsEthAddr : Nat → BitVec 48) {trace : List (Nat × List Location)}
    {last : Threads Nat Lcore Memory}
    (run : LoopsRun (setup.config macUpdating portsEthAddr) trace last) {port : Nat}
    (enabled : setup.map.Enabled nbPorts port) :
    ∃ lcore, (∀ other, port ∈ setup.assignment.rxPortList other ↔ other = lcore) ∧
      (¬(last.locals lcore).InMiddle (setup.config macUpdating portsEthAddr) lcore port →
        last.memory.Conserves port (setup.map.dstPorts port)) := by
  simp only [initialise, Option.bind_eq_bind, Option.bind_eq_some_iff] at initialised
  rcases initialised with ⟨map, init, assignment, assigned, same⟩
  cases same
  have made := initPorts_pairs few init
  have holds := assignLcores_holds assigned
  have isEnabled := @enabled_iff_polled _ _ _ ⟨map, assignment⟩ holds
  have parts := @partitioned_of_holds _ _ _ ⟨map, assignment⟩ _ made holds macUpdating portsEthAddr
  have apart : (Setup.config ⟨map, assignment⟩ macUpdating portsEthAddr).Apart := by
    intro lcore one oneIn other otherIn
    have oneEnabled := (isEnabled one).mpr ⟨lcore, oneIn⟩
    have otherEnabled := (isEnabled other).mpr ⟨lcore, otherIn⟩
    exact made.injective oneEnabled otherEnabled
  rcases (isEnabled port).mp enabled with ⟨lcore, polled⟩
  refine ⟨lcore, fun other => ⟨fun member => holds.unique port other lcore member polled, ?_⟩, ?_⟩
  · exact fun same => same ▸ polled
  · exact fun outside => conserves_loops parts apart run polled outside

end Initialised

/-- Four ports on two lcores, where the first lcore receives and forwards a packet. -/
theorem packets_conserved_four :
    ∃ setup trace last,
      initialise (fun lcore => decide (lcore < 2)) 2 4 15#32 none = some setup ∧
      LoopsRun (setup.config false fun _ => 0) trace last ∧ setup.map.Enabled 4 0 ∧
      (last.memory.portStatistics 0).rx = 1#64 ∧
      ∃ lcore, (∀ other, 0 ∈ setup.assignment.rxPortList other ↔ other = lcore) ∧
        (¬(last.locals lcore).InMiddle (setup.config false fun _ => 0) lcore 0 →
          last.memory.Conserves 0 (setup.map.dstPorts 0)) := by
  have initialised : ∃ setup,
      initialise (fun lcore => decide (lcore < 2)) 2 4 15#32 none = some setup ∧
      (setup.assignment.rxPortList 0)[0]? = some 0 ∧ setup.map.Enabled 4 0 :=
    ⟨_, rfl, rfl, by decide, by decide⟩
  rcases initialised with ⟨setup, same, port, enabled⟩
  have start : LoopsRun (setup.config false fun _ => 0) [] (startLoops _) := .nil
  have idle : (startLoops (setup.config false fun _ => 0)).locals 0 = ⟨.top, none⟩ := by
    have some : setup.assignment.rxPortList 0 ≠ [] :=
      List.ne_nil_of_mem (List.mem_of_getElem? port)
    exact congrArg (Lcore.mk · none) (if_neg some)
  rcases start.next ⟨idle, rfl⟩ (.notDue _) with ⟨_, run, here⟩
  rcases run.next here
    (.rxBurst 0 [⟨fun _ => 0⟩] _ port (List.cons_ne_nil _ _) (by decide)) with ⟨_, run, here⟩
  rcases run.next here (.load _ _ _ _) with ⟨_, run, here⟩
  rcases run.next here (.store _ _ _ _) with ⟨_, run, here⟩
  rcases run.next here (.simpleForward 0 0 _ _ _ port (Nat.zero_le _)) with ⟨_, run, here⟩
  rcases run.next here (.forwarded _ _) with ⟨last, run, here⟩
  refine ⟨setup, _, last, same, run, enabled, ?_, ?_⟩
  · rw [here.2]
    rfl
  · exact packets_conserved (by decide) 15#32 none same false (fun _ => 0) run enabled

end PacketForwarding.L2fwd
