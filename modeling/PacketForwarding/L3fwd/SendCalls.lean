import PacketForwarding.L3fwd.SendMulti

/-! # What a sender does from outside

A sender is a list of calls that write packets, hand them to ports and free them. If the
driver takes everything, the calls decide where each packet is in the end.
-/

namespace PacketForwarding.L3fwd

open Lanes Cells Runs

/-! ## Calls -/

/-- The sender writes the packets, hands packets to the transmit stream of a port, several
at once or one, or frees packets. -/
inductive SendCall
  | write (mbufs : MbufHeap)
  | sendPacketsx4 (port : BitVec 16) (m : Nat → MbufPtr) (num : Nat)
  | sendSinglePacket (port : BitVec 16) (m : MbufPtr)
  | free (mbufs : List MbufPtr)

namespace SendCall

def exec (env : Env) (state : LcoreState) : SendCall → Except Fault LcoreState
  | write mbufs => .ok { state with mbufs := mbufs }
  | sendPacketsx4 port m num => (L3fwd.sendPacketsx4 env state port m num).map Prod.fst
  | sendSinglePacket port m => (L3fwd.sendSinglePacket env state m port).map Prod.fst
  | free mbufs => .ok { state with freed := state.freed ++ mbufs }

/-- The packets that calls hand to a port, as they are then. -/
def stream (port : BitVec 16) : MbufHeap → List SendCall → List (MbufPtr × RteMbuf)
  | _, [] => []
  | _, write mbufs :: rest => stream port mbufs rest
  | mbufs, sendPacketsx4 other m num :: rest =>
      (if other = port then (List.range num).map fun i => (m i, mbufs (m i)) else []) ++
        stream port mbufs rest
  | mbufs, sendSinglePacket other m :: rest =>
      (if other = port then [(m, mbufs m)] else []) ++ stream port mbufs rest
  | mbufs, free _ :: rest => stream port mbufs rest

def freed (calls : List SendCall) : List MbufPtr :=
  calls.flatMap fun
    | free mbufs => mbufs
    | _ => []

/-- Packets are sent in groups that are not empty and fit a table. -/
def WellFormed : SendCall → Prop
  | sendPacketsx4 _ _ num => 0 < num ∧ num ≤ maxPktBurst
  | _ => True

/-- The mbufs that a call hands to a port. -/
def handed (port : BitVec 16) : SendCall → List MbufPtr
  | write _ => []
  | sendPacketsx4 other m num => if other = port then (List.range num).map m else []
  | sendSinglePacket other m => if other = port then [m] else []
  | free _ => []

theorem map_stream (port : BitVec 16) (calls : List SendCall) : ∀ mbufs : MbufHeap,
    (stream port mbufs calls).map Prod.fst = calls.flatMap (handed port) := by
  induction calls with
  | nil => exact fun _ => rfl
  | cons call rest induction =>
      intro mbufs
      cases call with
      | write heap => exact induction heap
      | sendPacketsx4 other m num =>
          rw [stream, List.map_append, induction, List.flatMap_cons, handed]
          split
          · rw [List.map_map]
            rfl
          · rfl
      | sendSinglePacket other m =>
          rw [stream, List.map_append, induction, List.flatMap_cons, handed]
          split
          · rfl
          · rfl
      | free freed => exact induction mbufs

/-- What calls do to the packets of an lcore, if the driver takes everything. -/
structure Kept (state : LcoreState) (calls : List SendCall) (last : LcoreState) : Prop where
  outgoing : ∀ port, last.outgoing port = state.outgoing port ++ calls.flatMap (handed port)
  freed : last.freed = state.freed ++ SendCall.freed calls

theorem Kept.nil (state : LcoreState) : Kept state [] state where
  outgoing := fun _ => (List.append_nil _).symm
  freed := (List.append_nil _).symm

theorem Kept.cons {state middle last : LcoreState} {call : SendCall} {rest : List SendCall}
    (before : Kept state [call] middle) (after : Kept middle rest last) :
    Kept state (call :: rest) last where
  outgoing := by
    intro port
    rw [after.outgoing, before.outgoing, List.append_assoc, List.flatMap_singleton,
      List.flatMap_cons]
  freed := by
    rw [after.freed, before.freed, List.append_assoc, SendCall.freed, SendCall.freed,
      SendCall.freed, List.flatMap_singleton, List.flatMap_cons]

theorem Kept.of_effect {state last : LcoreState} {port : BitVec 16} {mbufs : List MbufPtr}
    {stats : TxStats} (effect : TxEffect state last port mbufs stats)
    (none : stats.dropped = 0) {call : SendCall} (freesNothing : SendCall.freed [call] = [])
    (hands : ∀ other, call.handed other = if port = other then mbufs else []) :
    Kept state [call] last where
  outgoing := by
    intro other
    rw [List.flatMap_singleton, hands other]
    exact (effect.kept none other).1
  freed := by
    rw [freesNothing, List.append_nil]
    exact (effect.kept none port).2

theorem exec_kept {env : Env} (takesAll : env.TakesAll) {state last : LcoreState}
    {call : SendCall} (wellFormed : call.WellFormed) (ran : call.exec env state = .ok last) :
    Kept state [call] last := by
  cases call with
  | write mbufs =>
      cases ran
      exact ⟨fun _ => (List.append_nil _).symm, (List.append_nil _).symm⟩
  | sendPacketsx4 port m num =>
      rw [exec] at ran
      cases sent : L3fwd.sendPacketsx4 env state port m num with
      | error fault =>
          rw [sent] at ran
          cases ran
      | ok result =>
          rw [sent] at ran
          cases ran
          rcases sendPacketsx4_kept takesAll wellFormed.1 wellFormed.2 sent with ⟨effect, none⟩
          exact Kept.of_effect effect none rfl fun _ => rfl
  | sendSinglePacket port m =>
      rw [exec] at ran
      cases sent : L3fwd.sendSinglePacket env state m port with
      | error fault =>
          rw [sent] at ran
          cases ran
      | ok result =>
          rw [sent] at ran
          cases ran
          rcases sendSinglePacket_kept takesAll sent with ⟨stats, effect, none⟩
          exact Kept.of_effect effect none rfl fun _ => rfl
  | free mbufs =>
      cases ran
      refine ⟨fun _ => (List.append_nil _).symm, ?_⟩
      rw [SendCall.freed, List.flatMap_singleton]

/-- If the driver takes everything, each port gets the packets that the calls hand to it, in
order, and what they free is all that is freed. -/
theorem foldlM_kept {env : Env} (takesAll : env.TakesAll) (calls : List SendCall) :
    ∀ {state last : LcoreState}, (∀ call ∈ calls, call.WellFormed) →
      calls.foldlM (exec env) state = .ok last → Kept state calls last := by
  induction calls with
  | nil =>
      intro state last _ ran
      cases ran
      exact Kept.nil state
  | cons call rest induction =>
      intro state last wellFormed ran
      rw [List.foldlM_cons] at ran
      cases executed : call.exec env state with
      | error fault =>
          rw [executed] at ran
          cases ran
      | ok middle =>
          rw [executed] at ran
          have before := exec_kept takesAll (wellFormed call List.mem_cons_self) executed
          exact before.cons
            (induction (fun other member => wellFormed other (List.mem_cons_of_mem call member)) ran)

end SendCall

/-- With these packets a sender makes these calls, whatever else the lcore holds. -/
def Makes (env : Env) (mbufs : MbufHeap) (sender : LcoreState → Except Fault LcoreState)
    (calls : List SendCall) : Prop :=
  ∀ state : LcoreState, state.mbufs = mbufs →
    sender state = calls.foldlM (SendCall.exec env) state

/-! ## In groups -/

namespace Dispatch

def call (pktsBurst : Nat → MbufPtr) (group : Dispatch) : SendCall :=
  if group.port ≠ badPort then
    .sendPacketsx4 group.port (fun i => pktsBurst (group.first + i)) group.count
  else
    .free (group.mbufs pktsBurst)

theorem exec_call (env : Env) (pktsBurst : Nat → MbufPtr) (result : LcoreState × TxStats)
    (group : Dispatch) :
    (group.exec env pktsBurst result).map Prod.fst =
      (group.call pktsBurst).exec env result.1 := by
  unfold exec call
  split
  · rw [SendCall.exec]
    cases sendPacketsx4 env result.1 group.port
        (fun i => pktsBurst (group.first + i)) group.count with
    | ok sent => rfl
    | error fault => rfl
  · rw [SendCall.exec, mbufs, LcoreState.rtePktmbufFreeRange, Nat.add_sub_cancel_left]
    rfl

theorem foldlM_call (env : Env) (pktsBurst : Nat → MbufPtr) (groups : List Dispatch) :
    ∀ result : LcoreState × TxStats,
      (groups.foldlM (exec env pktsBurst) result).map Prod.fst =
        (groups.map (call pktsBurst)).foldlM (SendCall.exec env) result.1 := by
  induction groups with
  | nil => exact fun _ => rfl
  | cons group rest induction =>
      intro result
      rw [List.foldlM_cons, List.map_cons, List.foldlM_cons, ← exec_call]
      cases group.exec env pktsBurst result with
      | ok next => exact induction next
      | error fault => rfl

theorem filter_packets (p : Nat × BitVec 16 → Bool) (group : Dispatch) (holds : Bool)
    (same : ∀ i, p (i, group.port) = holds) :
    group.packets.filter p = if holds = true then group.packets else [] := by
  unfold packets
  cases holds with
  | true =>
      rw [if_pos rfl, List.filter_eq_self]
      intro packet member
      rcases List.mem_map.mp member with ⟨i, _, rfl⟩
      exact same i
  | false =>
      rw [if_neg Bool.false_ne_true, List.filter_eq_nil_iff]
      intro packet member
      rcases List.mem_map.mp member with ⟨i, _, rfl⟩
      rw [same i]
      exact Bool.false_ne_true

/-- A port gets the packets of its groups, unless it is bad. -/
theorem stream_call (pktsBurst : Nat → MbufPtr) (port : BitVec 16) (mbufs : MbufHeap)
    (groups : List Dispatch) :
    SendCall.stream port mbufs (groups.map (call pktsBurst)) =
      ((groups.flatMap packets).filter
          fun packet => packet.2 ≠ badPort ∧ packet.2 = port).map
        fun packet => (pktsBurst packet.1, mbufs (pktsBurst packet.1)) := by
  induction groups with
  | nil => rfl
  | cons group rest induction =>
      have own := filter_packets (fun packet => packet.2 ≠ badPort ∧ packet.2 = port) group
        (group.port ≠ badPort ∧ group.port = port) (fun i => rfl)
      rw [List.map_cons, List.flatMap_cons, List.filter_append, List.map_append, ← induction, own]
      by_cases bad : group.port = badPort
      · have notSent : ¬ group.port ≠ badPort := not_not_intro bad
        simp [call, bad, SendCall.stream]
      · rw [call, if_pos bad, SendCall.stream]
        by_cases here : group.port = port
        · simp [here ▸ bad, here, packets, List.range'_eq_map_range]
        · simp [here]

/-- The packets of the other groups are freed. -/
theorem freed_call (pktsBurst : Nat → MbufPtr) (groups : List Dispatch) :
    SendCall.freed (groups.map (call pktsBurst)) =
      ((groups.flatMap packets).filter fun packet => packet.2 = badPort).map
        fun packet => pktsBurst packet.1 := by
  induction groups with
  | nil => rfl
  | cons group rest induction =>
      have own := filter_packets (fun packet => packet.2 = badPort) group
        (group.port = badPort) (fun i => rfl)
      rw [List.flatMap_cons, List.filter_append, List.map_append, ← induction, own,
        List.map_cons, SendCall.freed, List.flatMap_cons]
      by_cases bad : group.port = badPort
      · simp [call, bad, mbufs, packets, SendCall.freed]
      · simp [call, bad, SendCall.freed]

end Dispatch

theorem Dispatch.calls_wellFormed (pktsBurst : Nat → MbufPtr) {dstPort : Nat → BitVec 16}
    {nbRx : Nat} {runs : List (Nat × Nat)} (tiled : Tiling dstPort nbRx 0 runs)
    (inside : nbRx ≤ maxPktBurst) :
    ∀ call ∈ (groupsOf dstPort runs).map (Dispatch.call pktsBurst), call.WellFormed := by
  intro call member
  rcases List.mem_map.mp member with ⟨group, inGroups, rfl⟩
  rcases List.mem_map.mp inGroups with ⟨run, inRuns, rfl⟩
  have maximal := tiled.maximalRun_of_mem inRuns
  have runInside := maximal.inside
  unfold Dispatch.call
  split
  · exact ⟨maximal.positive, Nat.le_trans (Nat.le_of_add_left_le runInside) inside⟩
  · trivial

/-- If the driver takes everything, groups leave each packet on its way out of its port, or
free it. -/
theorem Dispatch.foldlM_kept {env : Env} (takesAll : env.TakesAll) {state : LcoreState}
    {heap : MbufHeap} {pktsBurst : Nat → MbufPtr} {dstPort : Nat → BitVec 16} {nbRx : Nat}
    {runs : List (Nat × Nat)} (tiled : Tiling dstPort nbRx 0 runs) (inside : nbRx ≤ maxPktBurst)
    {result : LcoreState × TxStats}
    (ran : (groupsOf dstPort runs).foldlM (Dispatch.exec env pktsBurst)
      ({ state with mbufs := heap }, ⟨0, 0⟩) = .ok result) :
    (∀ port, port ≠ badPort → result.1.outgoing port = state.outgoing port ++
      ((List.range nbRx).filter fun i => dstPort i = port).map pktsBurst) ∧
    result.1.freed = state.freed ++
      ((List.range nbRx).filter fun i => dstPort i = badPort).map pktsBurst := by
  have calls := Dispatch.foldlM_call env pktsBurst (groupsOf dstPort runs)
    ({ state with mbufs := heap }, ⟨0, 0⟩)
  rw [ran] at calls
  have kept := SendCall.foldlM_kept takesAll _ (Dispatch.calls_wellFormed pktsBurst tiled inside)
    calls.symm
  constructor
  · intro port notBad
    have same : (fun i => decide (dstPort i ≠ badPort ∧ dstPort i = port)) =
        fun i => decide (dstPort i = port) := by
      funext i
      rw [decide_eq_decide]
      exact and_iff_right_of_imp fun isPort => isPort ▸ notBad
    rw [kept.outgoing, ← SendCall.map_stream port _ heap, Dispatch.stream_call,
      packets_groupsOf tiled, List.filter_map, List.map_map, List.map_map]
    exact congrArg (fun p => state.outgoing port ++ ((List.range nbRx).filter p).map pktsBurst) same
  · rw [kept.freed, Dispatch.freed_call, packets_groupsOf tiled, List.filter_map, List.map_map]
    rfl

/-! ## The groups of a burst -/

/-- The counts partition a burst into the maximal runs of its final destination
ports. Hence the loop that sends terminates: it handles every packet once, in
order, and under its final destination port. If the driver takes everything, the
packets of each port are on their way out in order, and the others are freed. -/
theorem sendPacketsMulti_groups (env : Env) (state : LcoreState)
    (pktsBurst : Nat → MbufPtr) (dstPort : Nat → BitVec 16) (nbRx : Nat)
    (positive : 1 ≤ nbRx) (inside : nbRx ≤ maxPktBurst)
    (ports : ∀ i, i < nbRx → (dstPort i).toNat < rteMaxEthports) :
    ∃ (grouping : Grouping) (groups : List Dispatch),
      groupPackets env state.mbufs pktsBurst dstPort nbRx = .ok grouping ∧
      (∀ i, i < nbRx →
        grouping.packets.2 i = (state.mbufs (pktsBurst i)).checkedPort (dstPort i)) ∧
      (∀ head length, MaximalRun grouping.packets.2 nbRx head length →
        (grouping.pnum head).toNat = length ∧ 1 ≤ length) ∧
      (∀ group ∈ groups, MaximalRun grouping.packets.2 nbRx group.first group.count ∧
        group.port = grouping.packets.2 group.first) ∧
      groups.flatMap Dispatch.packets =
        (List.range nbRx).map (fun i => (i, grouping.packets.2 i)) ∧
      sendPacketsMulti env state pktsBurst dstPort nbRx =
        groups.foldlM (Dispatch.exec env pktsBurst)
          ({ state with mbufs := grouping.packets.1 }, ⟨0, 0⟩) ∧
      (state.HasRoom → ∃ result,
        sendPacketsMulti env state pktsBurst dstPort nbRx = .ok result ∧
        Accounted maxPktBurst state ((List.range nbRx).map pktsBurst) result) ∧
      (env.TakesAll → ∀ result, sendPacketsMulti env state pktsBurst dstPort nbRx = .ok result →
        (∀ port, port ≠ badPort → result.1.outgoing port = state.outgoing port ++
          ((List.range nbRx).filter fun i => grouping.packets.2 i = port).map pktsBurst) ∧
        result.1.freed = state.freed ++
          ((List.range nbRx).filter fun i => grouping.packets.2 i = badPort).map pktsBurst) := by
  rcases sendPacketsMulti_eq env state pktsBurst dstPort positive inside
    (fun i below => ne_badPort_pred (ports i below)) with
    ⟨grouping, runs, grouped, checked, exact, tiled, sent⟩
  refine ⟨grouping, groupsOf grouping.packets.2 runs, grouped, ?_, ?_, ?_,
    packets_groupsOf tiled, sent, ?_, ?_⟩
  · intro i below
    exact checked.inside i (Nat.zero_le i) (by omega)
  · intro head length run
    exact ⟨exact head length run, run.positive⟩
  · intro group member
    rcases List.mem_map.mp member with ⟨run, inRuns, rfl⟩
    exact ⟨tiled.maximalRun_of_mem inRuns, rfl⟩
  · intro room
    have outcome := sendPacketsMulti_outcome env state pktsBurst dstPort room positive inside
      (fun i below => ne_badPort_pred (ports i below))
    exact outcome.exists_ok (by
      rintro ⟨i, below, invalid⟩
      exact invalid (ports i below))
  · intro takesAll result ran
    rw [sent] at ran
    exact Dispatch.foldlM_kept takesAll tiled inside ran

/-- Five packets of which the third is malformed, to one port. -/
theorem sendPacketsMulti_groups_five :
    let env : Env := { (default : Env) with txAccept := fun _ => maxPktBurst }
    let state : LcoreState := { (default : LcoreState) with mbufs := fun name =>
      { (default : RteMbuf) with packetType := if name = 2 then 0x10#32 else 0#32 } }
    ∃ (grouping : Grouping) (groups : List Dispatch) (result : LcoreState × TxStats),
      groupPackets env state.mbufs id (fun _ => 7#16) 5 = .ok grouping ∧
      grouping.packets.2 2 = badPort ∧ grouping.packets.2 3 = 7#16 ∧
      groups.flatMap Dispatch.packets =
        (List.range 5).map (fun i => (i, grouping.packets.2 i)) ∧
      sendPacketsMulti env state id (fun _ => 7#16) 5 = .ok result ∧ result.1.freed = [2] := by
  intro env state
  rcases sendPacketsMulti_groups env state id (fun _ => 7#16) 5 (by decide) (by decide)
    (fun _ _ => by decide) with
    ⟨grouping, groups, grouped, final, _, _, visited, _, returns, kept⟩
  have someRoom : 0 < maxPktBurst := by decide
  have empty : state.HasRoom := fun _ _ => someRoom
  have takesAll : env.TakesAll := fun _ => Nat.le_refl _
  have malformed : (List.range 5).filter (fun i => grouping.packets.2 i = badPort) = [2] := by
    have same : (List.range 5).filter (fun i => grouping.packets.2 i = badPort) =
        (List.range 5).filter fun i => (state.mbufs i).checkedPort 7#16 = badPort :=
      List.filter_congr fun i member => by
        rw [final i (List.mem_range.mp member)]
        rfl
    rw [same]
    decide
  rcases returns empty with ⟨result, sent, _⟩
  refine ⟨grouping, groups, result, grouped, ?_, ?_, visited, sent, ?_⟩
  · rw [final 2 (by decide)]
    decide
  · rw [final 3 (by decide)]
    decide
  · rw [(kept takesAll result sent).2, malformed]
    rfl

end PacketForwarding.L3fwd
