import PacketForwarding.L3fwd.Lpm

/-! # The packets of a burst behind the grouping

Before a burst is sent, its packets are processed four at a time and grouped, and the rest
one by one. The groups depend on the ports, but the packets are left as if each had been
processed by itself.
-/

namespace PacketForwarding.L3fwd

open Lanes Runs Cells

/-! ## Grouping processes the packets -/

theorem groupBlocks_packets (env : Env) (pktsBurst : Nat → MbufPtr) :
    ∀ rounds j dp1 (grouping : Grouping),
      Outcome (fun result => result.2.packets =
          forFours (processx4Step3 env pktsBurst) rounds j grouping.packets) True
        (groupBlocks env pktsBurst rounds j dp1 grouping)
  | 0, _, _, _ => rfl
  | rounds + 1, j, dp1, grouping => by
      rw [groupBlocks]
      apply (Outcome.any _).bind
      rintro ⟨pnum, lp⟩ _
      exact groupBlocks_packets env pktsBurst rounds (j + fwdStep) _ ⟨_, pnum, lp⟩

theorem groupFours_packets (env : Env) (pktsBurst : Nat → MbufPtr)
    (packets : MbufHeap × (Nat → BitVec 16)) (fours : Nat) :
    Outcome (fun result => result.2.packets =
        forFours (processx4Step3 env pktsBurst) fours 0 packets) True
      (groupFours env pktsBurst packets (fours * fwdStep)) := by
  cases fours with
  | zero => rfl
  | succ rounds =>
      have notZero : (rounds + 1) * fwdStep ≠ 0 := by
        simp only [fwdStep]
        omega
      have roundCount : (rounds + 1) * fwdStep / fwdStep - 1 = rounds := by
        rw [Nat.mul_div_cancel _ (by decide), Nat.add_sub_cancel]
      rw [groupFours, if_pos notZero, roundCount]
      apply (Outcome.any _).bind
      intro pnum _
      apply (groupBlocks_packets env pktsBurst rounds fwdStep _ _).bind
      rintro ⟨dp1, grouping⟩ processed
      apply (Outcome.any _).bind
      rintro ⟨pnum, lp⟩ _
      apply (Outcome.any _).bind
      intro pnum _
      rw [forFours, Nat.zero_add]
      exact processed

theorem groupTail_packets (env : Env) (pktsBurst : Nat → MbufPtr) :
    ∀ count j (result : BitVec 16 × Grouping),
      Outcome (fun result' => result'.2.packets =
          visit pktsBurst (processPacket env) count j result.2.packets) True
        (groupTail env pktsBurst count j result)
  | 0, _, _ => rfl
  | count + 1, j, (dlp, grouping) => by
      rw [groupTail]
      apply (Outcome.any _).bind
      rintro ⟨dlp', lp, pnum⟩ _
      exact groupTail_packets env pktsBurst count (j + 1) (dlp', ⟨_, pnum, lp⟩)

/-- On different packets, grouping leaves every packet as `processPacket` does. -/
theorem groupPackets_packets (env : Env) (mbufs : MbufHeap) {pktsBurst : Nat → MbufPtr}
    (dstPort : Nat → BitVec 16) {nbRx : Nat} (distinct : Distinct pktsBurst 0 nbRx)
    {grouping : Grouping}
    (grouped : groupPackets env mbufs pktsBurst dstPort nbRx = .ok grouping) :
    grouping.packets = visit pktsBurst (processPacket env) nbRx 0 (mbufs, dstPort) := by
  have split : 4 * (nbRx / 4) + nbRx % 4 = nbRx := Nat.div_add_mod nbRx 4
  have fours := step3Fours_spec env pktsBurst (nbRx / 4) 0 (mbufs, dstPort)
    (distinct.sub (Nat.le_refl 0) (by omega))
  have all := visit_add pktsBurst (processPacket env) (nbRx % 4) (4 * (nbRx / 4)) 0
    (mbufs, dstPort)
  rw [split, Nat.zero_add] at all
  have processed : Outcome (fun grouping : Grouping => grouping.packets =
      visit pktsBurst (processPacket env) nbRx 0 (mbufs, dstPort)) True
      (groupPackets env mbufs pktsBurst dstPort nbRx) := by
    rw [groupPackets]
    apply (groupFours_packets env pktsBurst (mbufs, dstPort) (nbRx / 4)).bind
    intro head headDone
    apply (groupTail_packets env pktsBurst (nbRx % 4) (nbRx / 4 * fwdStep) head).bind
    rintro ⟨dlp, grouping⟩ tailDone
    dsimp only at tailDone
    have floor : nbRx / 4 * fwdStep = 4 * (nbRx / 4) := Nat.mul_comm _ _
    rw [headDone, fours, floor, ← all] at tailDone
    exact tailDone
  exact processed.of_ok grouped

/-! ## Sending -/

/-- The groups of a burst send every packet once and in order, as `processPacket` leaves it
and to the port that it says. -/
theorem sendPacketsMulti_frames (env : Env) (state : LcoreState) {pktsBurst : Nat → MbufPtr}
    (dstPort : Nat → BitVec 16) {nbRx : Nat} (positive : 0 < nbRx)
    (inside : nbRx ≤ maxPktBurst) (ports : ∀ i, i < nbRx → dstPort i ≠ badPort - 1)
    (distinct : Distinct pktsBurst 0 nbRx) :
    ∃ (mbufs : MbufHeap) (port : Nat → BitVec 16) (groups : List Dispatch),
      sendPacketsMulti env state pktsBurst dstPort nbRx =
        groups.foldlM (Dispatch.exec env pktsBurst) ({ state with mbufs := mbufs }, ⟨0, 0⟩) ∧
      groups.flatMap Dispatch.packets = (List.range nbRx).map (fun i => (i, port i)) ∧
      ∀ i, i < nbRx → (mbufs (pktsBurst i), port i) =
        processPacket env (state.mbufs (pktsBurst i)) (dstPort i) := by
  rcases sendPacketsMulti_eq env state pktsBurst dstPort positive inside ports with
    ⟨grouping, runs, grouped, _, _, tiled, sent⟩
  have packets := groupPackets_packets env state.mbufs dstPort distinct grouped
  refine ⟨grouping.packets.1, grouping.packets.2, groupsOf grouping.packets.2 runs, sent,
    packets_groupsOf tiled, ?_⟩
  intro i below
  have processed := visit_inside pktsBurst (processPacket env) nbRx 0 (state.mbufs, dstPort)
    distinct i (Nat.zero_le i) (by omega)
  rw [packets]
  exact Prod.ext processed.1 processed.2

end PacketForwarding.L3fwd
