import PacketForwarding.Foundation.Lanes
import PacketForwarding.Foundation.Runs
import PacketForwarding.L3fwd.Lcore

/-! # Grouping consecutive packets with the same destination port

`pnum` counts consecutive packets with the same destination port, for each packet
of a burst, and `lp` is where it was updated last. Four neighbour comparisons make
an index into a table of prebuilt counts.
-/

namespace PacketForwarding.L3fwd

open Lanes Runs

structure GroupEntry where
  /-- prebuilt 4 values for `pnum` -/
  pnum : BitVec 64
  /-- index for the new last updated element -/
  idx : Nat
  /-- value to add to the last updated element -/
  lpv : BitVec 16

def grpmsk : BitVec 4 := 0xf#4

def gptblEntries : List GroupEntry := [
  ⟨0x0001000100010001#64, 4, 0⟩,
  ⟨0x0001000100010002#64, 4, 1⟩,
  ⟨0x0001000100020001#64, 4, 0⟩,
  ⟨0x0001000100020003#64, 4, 2⟩,
  ⟨0x0001000200010001#64, 4, 0⟩,
  ⟨0x0001000200010002#64, 4, 1⟩,
  ⟨0x0001000200030001#64, 4, 0⟩,
  ⟨0x0001000200030004#64, 4, 3⟩,
  ⟨0x0002000100010001#64, 3, 0⟩,
  ⟨0x0002000100010002#64, 3, 1⟩,
  ⟨0x0002000100020001#64, 3, 0⟩,
  ⟨0x0002000100020003#64, 3, 2⟩,
  ⟨0x0002000300010001#64, 2, 0⟩,
  ⟨0x0002000300010002#64, 2, 1⟩,
  ⟨0x0002000300040001#64, 1, 0⟩,
  ⟨0x0002000300040005#64, 0, 4⟩]

def gptbl (v : BitVec 4) : GroupEntry :=
  gptblEntries.get ⟨v.toNat, v.isLt⟩

/-- `uint16_t pnum[MAX_PKT_BURST + 1]` -/
def writePnum (pnum : Nat → BitVec 16) (index : Nat) (value : BitVec 16) :
    Except Fault (Nat → BitVec 16) :=
  if index < maxPktBurst + 1 then
    .ok (Function.update pnum index value)
  else
    .error (.pnumIndex index)

/-- Write four counts at once. -/
def writePnumU64 (pnum : Nat → BitVec 16) (index : Nat) (value : BitVec 64) :
    Except Fault (Nat → BitVec 16) := do
  let pnum ← writePnum pnum index (lane 16 value 0)
  let pnum ← writePnum pnum (index + 1) (lane 16 value 1)
  let pnum ← writePnum pnum (index + 2) (lane 16 value 2)
  writePnum pnum (index + 3) (lane 16 value 3)

/-- Group consecutive packets with the same destination port in bursts of 4. With
`dp1 = <a, b, c, d, ...>` and `dp2 = <b, c, d, e, ...>`, count `b, c, d, e`. `pn` and
`lp` are positions in `pnum`. -/
def portGroupx4 (pnum : Nat → BitVec 16) (pn lp : Nat) (dp1 dp2 : Register) :
    Except Fault ((Nat → BitVec 16) × Nat) := do
  let dp1 := cmpeqEpi16 dp1 dp2
  let dp1 := unpackloEpi16 dp1 dp1
  let v := movemaskPs dp1
  -- update last port counter
  let pnum ← writePnum pnum lp (pnum lp + (gptbl v).lpv)
  -- if dest port value has changed
  if v ≠ grpmsk then
    let pnum ← writePnumU64 pnum pn (gptbl v).pnum
    let pnum ← writePnum pnum (pn + fwdStep) 1
    .ok (pnum, pn + (gptbl v).idx)
  else
    .ok (pnum, lp)

/-- `GROUP_PORT_STEP`: count one packet. -/
def groupPortStep (dlp : BitVec 16) (dcp : Nat → BitVec 16) (lp : Nat)
    (pn : Nat → BitVec 16) (idx : Nat) :
    Except Fault (BitVec 16 × Nat × (Nat → BitVec 16)) := do
  if dlp = dcp idx then
    let pn ← writePnum pn lp (pn lp + 1)
    .ok (dlp, lp, pn)
  else
    let pn ← writePnum pn idx 1
    .ok (dcp idx, idx, pn)

/-! ## The table -/

/-- What an entry of the table has to say about the comparisons it stands for. -/
structure GroupEntry.Correct (entry : GroupEntry) (v : BitVec 4) : Prop where
  lpv : entry.lpv.toNat = stretchLength v.getLsbD 4 0
  pnum : v ≠ grpmsk → ∀ i, i < 4 →
    (lane 16 entry.pnum i).toNat = 1 + stretchLength v.getLsbD (4 - i) i
  idxPos : v ≠ grpmsk → 0 < entry.idx
  idxLe : entry.idx ≤ 4
  changes : v ≠ grpmsk → v.getLsbD (entry.idx - 1) = false
  settled : v ≠ grpmsk → stretchLength v.getLsbD (4 - entry.idx) entry.idx = 4 - entry.idx

theorem gptbl_correct (v : BitVec 4) : (gptbl v).Correct v where
  lpv := by
    revert v
    decide
  pnum := by
    revert v
    decide
  idxPos := by
    revert v
    decide
  idxLe := by
    revert v
    decide
  changes := by
    revert v
    decide
  settled := by
    revert v
    decide

/-! ## Counting -/

/-- The counts as numbers. -/
def counts (pnum : Nat → BitVec 16) (index : Nat) : Nat := (pnum index).toNat

theorem writePnum_ok (pnum : Nat → BitVec 16) {index : Nat} (value : BitVec 16)
    (inside : index ≤ maxPktBurst) :
    writePnum pnum index value = .ok (Function.update pnum index value) :=
  if_pos (Nat.lt_succ_of_le inside)

theorem writePnumU64_ok (pnum : Nat → BitVec 16) {index : Nat} (value : BitVec 64)
    (inside : index + 3 ≤ maxPktBurst) :
    writePnumU64 pnum index value = .ok fun i =>
      if index ≤ i ∧ i < index + 4 then lane 16 value (i - index) else pnum i := by
  have first : index ≤ maxPktBurst := by omega
  have second : index + 1 ≤ maxPktBurst := by omega
  have third : index + 2 ≤ maxPktBurst := by omega
  simp only [writePnumU64, writePnum_ok _ _ first, writePnum_ok _ _ second,
    writePnum_ok _ _ third, writePnum_ok _ _ inside, bind, Except.bind]
  congr 1
  funext i
  by_cases covered : index ≤ i ∧ i < index + 4
  · rw [if_pos covered]
    have position : i = index ∨ i = index + 1 ∨ i = index + 2 ∨ i = index + 3 := by omega
    rcases position with equal | equal | equal | equal
    all_goals
      subst equal
      simp
  · rw [if_neg covered]
    simp only [Function.update_apply]
    rw [if_neg (by omega), if_neg (by omega), if_neg (by omega), if_neg (by omega)]

/-- Four comparisons, as the stretches of one entry's bits. -/
theorem stretch_of_bits {α : Type*} {values : Nat → α} {base : Nat} {v : BitVec 4}
    (bits : ∀ i, i < 4 → (v.getLsbD i = true ↔ NextEqual values base i))
    (index : Nat) (inside : index ≤ 4) :
    Stretch (NextEqual values base) 4 index (stretchLength v.getLsbD (4 - index) index) := by
  have stretch := stretch_stretchLength v.getLsbD (4 - index) index
  rw [Nat.add_sub_cancel' inside] at stretch
  exact stretch.congr fun offset below => (bits offset below).symm

theorem counts_update (pnum : Nat → BitVec 16) (index : Nat) (value : BitVec 16) :
    counts (Function.update pnum index value) =
      Function.update (counts pnum) index value.toNat := by
  funext i
  simp only [counts, Function.update_apply]
  split <;> rfl

/-- The counter of the open run can be decremented. -/
theorem counts_pred {α : Type*} {values : Nat → α} {pnum : Nat → BitVec 16} {count lp : Nat}
    (run : RunCounter values (counts pnum) count lp) :
    (pnum lp - 1).toNat + 1 = counts pnum lp := by
  have inside := run.inside
  have counted := run.counted
  have small := (pnum lp).isLt
  have one : (1 : BitVec 16).toNat = 1 := rfl
  simp only [counts] at counted ⊢
  rw [BitVec.toNat_sub, one]
  omega

section Counts

variable {α : Type*} {values : Nat → α} {pnum : Nat → BitVec 16} {pn lp : Nat} {v : BitVec 4}

/-- All four comparisons hold: the values continue the open run. -/
theorem groupSame_counts (counted : RunCounter values (counts pnum) (pn + 1) lp)
    (bits : ∀ i, i < 4 → (v.getLsbD i = true ↔ NextEqual values pn i)) (same : v = grpmsk)
    (added : (pnum lp + (gptbl v).lpv).toNat = counts pnum lp + (gptbl v).lpv.toNat) :
    RunCounter values (counts (Function.update pnum lp (pnum lp + (gptbl v).lpv)))
      (pn + 1 + 4) lp := by
  have lpInside := counted.inside
  have allEqual : ∀ offset, offset < 4 → NextEqual values pn (0 + offset) := by
    intro offset below
    apply (bits (0 + offset) (by omega)).mp
    rw [same, Nat.zero_add]
    have position : offset = 0 ∨ offset = 1 ∨ offset = 2 ∨ offset = 3 := by omega
    rcases position with rfl | rfl | rfl | rfl <;> rfl
  refine counted.extend ?_ ?_ ?_
  · intro index after below
    have along := values_eq_of_nextEqual values pn 0 (index - pn)
      (fun offset before => allEqual offset (by omega))
    have position : pn + (0 + (index - pn)) = index := by omega
    rw [position, Nat.add_zero] at along
    exact along.trans (counted.constant pn (by omega) (by omega))
  · rw [counts_update, Function.update_self, added, same]
    rfl
  · intro index before
    rw [counts_update, Function.update_of_ne (by omega)]

/-- Some comparison fails: the table supplies the counts of the four values. -/
theorem groupChanged_counts (counted : RunCounter values (counts pnum) (pn + 1) lp)
    (bits : ∀ i, i < 4 → (v.getLsbD i = true ↔ NextEqual values pn i)) (changed : v ≠ grpmsk)
    (added : (pnum lp + (gptbl v).lpv).toNat = counts pnum lp + (gptbl v).lpv.toNat) :
    RunCounter values
      (counts (Function.update
        (fun i => if pn ≤ i ∧ i < pn + 4 then lane 16 (gptbl v).pnum (i - pn)
          else Function.update pnum lp (pnum lp + (gptbl v).lpv) i) (pn + 4) 1))
      (pn + 1 + 4) (pn + (gptbl v).idx) := by
  have lpInside := counted.inside
  have correct := gptbl_correct v
  have idxPos := correct.idxPos changed
  have idxLe := correct.idxLe
  refine counted.block (fun index below => stretch_of_bits bits index (Nat.le_of_lt below))
    idxPos idxLe ?_ ?_ ?_ ?_ ?_ ?_
  · intro equal
    have set := (bits ((gptbl v).idx - 1) (by omega)).mpr equal
    rw [correct.changes changed] at set
    exact Bool.false_ne_true set
  · have settled := stretch_of_bits bits (gptbl v).idx idxLe
    rw [correct.settled changed] at settled
    exact settled
  · intro index before different
    rw [counts_update, Function.update_of_ne (by omega)]
    have outside : ¬ (pn ≤ index ∧ index < pn + 4) := by omega
    simp only [counts, if_neg outside, Function.update_of_ne different]
  · intro before
    rw [counts_update, Function.update_of_ne (by omega)]
    have outside : ¬ (pn ≤ lp ∧ lp < pn + 4) := by omega
    simp only [counts, if_neg outside, Function.update_self]
    rw [added, correct.lpv]
    rfl
  · intro index below
    rw [counts_update, Function.update_of_ne (by omega)]
    have inside : pn ≤ pn + index ∧ pn + index < pn + 4 := by omega
    simp only [counts, if_pos inside, Nat.add_sub_cancel_left]
    exact correct.pnum changed index below
  · rw [counts_update, Function.update_self]
    rfl

/-- What `port_groupx4` does with its four comparisons. -/
def updateGroup (pnum : Nat → BitVec 16) (pn lp : Nat) (v : BitVec 4) :
    Except Fault ((Nat → BitVec 16) × Nat) := do
  let pnum ← writePnum pnum lp (pnum lp + (gptbl v).lpv)
  if v ≠ grpmsk then
    let pnum ← writePnumU64 pnum pn (gptbl v).pnum
    let pnum ← writePnum pnum (pn + fwdStep) 1
    .ok (pnum, pn + (gptbl v).idx)
  else
    .ok (pnum, lp)

/-- Comparisons of neighbours count four more values. -/
theorem updateGroup_counts
    (bits : ∀ i, i < 4 → (v.getLsbD i = true ↔ NextEqual values pn i))
    (counted : RunCounter values (counts pnum) (pn + 1) lp) (inside : pn + 4 ≤ maxPktBurst) :
    ∃ pnum' lp', updateGroup pnum pn lp v = .ok (pnum', lp') ∧
      RunCounter values (counts pnum') (pn + 1 + 4) lp' := by
  have lpInside := counted.inside
  have lpCounted := counted.counted
  have added : (pnum lp + (gptbl v).lpv).toNat = counts pnum lp + (gptbl v).lpv.toNat := by
    have lpvSmall := (stretch_of_bits bits 0 (Nat.zero_le 4)).inside
    rw [Nat.sub_zero, ← (gptbl_correct v).lpv] at lpvSmall
    simp only [counts, maxPktBurst] at *
    rw [BitVec.toNat_add, Nat.mod_eq_of_lt (by omega)]
  have lpBound : lp ≤ maxPktBurst := by omega
  have blockBound : pn + 3 ≤ maxPktBurst := by omega
  have updated := writePnum_ok pnum (pnum lp + (gptbl v).lpv) lpBound
  by_cases same : v = grpmsk
  · refine ⟨_, _, ?_, groupSame_counts counted bits same added⟩
    have notChanged : ¬ v ≠ grpmsk := not_not_intro same
    simp only [updateGroup, updated, bind, Except.bind, if_neg notChanged]
  · refine ⟨_, _, ?_, groupChanged_counts counted bits same added⟩
    simp only [updateGroup, updated, bind, Except.bind, if_pos same,
      writePnumU64_ok _ _ blockBound, fwdStep, writePnum_ok _ _ inside]

end Counts

section Ports

variable {values : Nat → BitVec 16} {pnum : Nat → BitVec 16} {pn lp : Nat}

/-- `portGroupx4` counts four more values. -/
theorem portGroupx4_counts {dp1 dp2 : Register}
    (dp1Lanes : ∀ i, i < 4 → lane 16 dp1 i = values (pn + i))
    (dp2Lanes : ∀ i, i < 4 → lane 16 dp2 i = values (pn + i + 1))
    (counted : RunCounter values (counts pnum) (pn + 1) lp)
    (inside : pn + 4 ≤ maxPktBurst) :
    ∃ pnum' lp', portGroupx4 pnum pn lp dp1 dp2 = .ok (pnum', lp') ∧
      RunCounter values (counts pnum') (pn + 1 + 4) lp' := by
  have bits : ∀ i, i < 4 →
      ((movemaskPs (unpackloEpi16 (cmpeqEpi16 dp1 dp2) (cmpeqEpi16 dp1 dp2))).getLsbD i = true ↔
        NextEqual values pn i) := by
    intro i below
    rw [getLsbD_movemask_cmpeq dp1 dp2 i below, decide_eq_true_iff, dp1Lanes i below,
      dp2Lanes i below]
  exact updateGroup_counts bits counted inside

/-- At the end of the values, the last one is compared with itself and then taken
out of the count again. -/
theorem portGroupx4_last {dp1 : Register}
    (dp1Lanes : ∀ i, i < 4 → lane 16 dp1 i = values (pn + i))
    (counted : RunCounter values (counts pnum) (pn + 1) lp)
    (inside : pn + 4 ≤ maxPktBurst) :
    ∃ pnum' lp', portGroupx4 pnum pn lp dp1 (shuffleloEpi16 dp1 0xf9#8) = .ok (pnum', lp') ∧
      RunCounter values (counts (Function.update pnum' lp' (pnum' lp' - 1))) (pn + 4) lp' := by
  let repeated := Function.update values (pn + 4) (values (pn + 3))
  have agree : ∀ i, i < pn + 4 → repeated i = values i := by
    intro i below
    exact Function.update_of_ne (by omega) _ _
  have atEnd : repeated (pn + 4) = values (pn + 3) := Function.update_self _ _ _
  have lanes : ∀ i, i < 4 →
      lane 16 (shuffleloEpi16 dp1 0xf9#8) i = repeated (pn + i + 1) := by
    intro i below
    rw [lane_shuffleloEpi16 dp1 _ i below]
    have position : i = 0 ∨ i = 1 ∨ i = 2 ∨ i = 3 := by omega
    rcases position with rfl | rfl | rfl | rfl
    · exact (dp1Lanes 1 (by omega)).trans (agree _ (by omega)).symm
    · exact (dp1Lanes 2 (by omega)).trans (agree _ (by omega)).symm
    · exact (dp1Lanes 3 (by omega)).trans (agree _ (by omega)).symm
    · exact (dp1Lanes 3 (by omega)).trans atEnd.symm
  rcases portGroupx4_counts (fun i below => (dp1Lanes i below).trans (agree _ (by omega)).symm)
    lanes (counted.congr_values fun index below => agree index (by omega)) inside with
    ⟨pnum', lp', grouped, last⟩
  refine ⟨pnum', lp', grouped, ?_⟩
  have lastInside := last.inside
  have lastCounted := last.counted
  have notAtEnd : lp' ≠ pn + 4 := by
    intro same
    rcases last.starts with zero | changes
    · omega
    · rw [same, atEnd] at changes
      exact changes (agree (pn + 3) (by omega))
  rw [Nat.add_right_comm] at last
  have retracted : RunCounter repeated
      (counts (Function.update pnum' lp' (pnum' lp' - 1))) (pn + 4) lp' := by
    refine last.retract (by omega) ?_ ?_
    · rw [counts_update, Function.update_self]
      exact counts_pred last
    · intro index before
      rw [counts_update, Function.update_of_ne (by omega)]
  exact retracted.congr_values fun index below => (agree index below).symm

end Ports

end PacketForwarding.L3fwd
