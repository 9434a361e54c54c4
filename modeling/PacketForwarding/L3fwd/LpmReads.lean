import PacketForwarding.Foundation.Traced
import PacketForwarding.L3fwd.EventVector
import PacketForwarding.L3fwd.Lpm

/-! # Which packets the longest prefix match path looks at

The loop that gathers addresses prefetches one group of four ahead and another one two
groups ahead. The functions are run with a trace of the positions of a burst whose mbuf
they read.
-/

namespace PacketForwarding.L3fwd

open Lanes Cells

/-! ## Event vectors -/

/-- `dst_port` with `dst_port[i]` first. -/
def portsFrom (dstPort : Nat → BitVec 16) (i : Nat) : Nat → BitVec 16 :=
  fun j => dstPort (i + j)

/-- What was written from `dst_port[i]` on. -/
def writePortsFrom (dstPort : Nat → BitVec 16) (i : Nat) (ports : Nat → BitVec 16) :
    Nat → BitVec 16 :=
  fun j => if i ≤ j then ports (j - i) else dstPort j

/-- A packet of a vector without a common port is a burst of one. -/
def lpmVectorPacket (env : Env) (tables : LpmTables) (vec : RteEventVector)
    (packets : MbufHeap × (Nat → BitVec 16)) (i : Nat) : MbufHeap × (Nat → BitVec 16) :=
  let (mbufs, ports) := l3fwdLpmProcessPackets env tables packets.1 1 (fun j => vec.mbufs (i + j))
    (packets.1 (vec.mbufs i)).port (portsFrom packets.2 i) true
  (mbufs, writePortsFrom packets.2 i ports)

/-- `lpm_process_event_vector` with vector instructions. -/
def lpmProcessEventVector (env : Env) (tables : LpmTables) (mbufs : MbufHeap)
    (vec : RteEventVector) (dstPort : Nat → BitVec 16) : VectorState :=
  let packets :=
    if vec.attrValid then
      l3fwdLpmProcessPackets env tables mbufs vec.nbElem vec.mbufs vec.port dstPort true
    else
      (List.range vec.nbElem).foldl (lpmVectorPacket env tables vec) (mbufs, dstPort)
  processEventVector packets.1 vec packets.2

/-! ## The functions with their traces -/

namespace PktReads

/-- `pkt[j], ..., pkt[j + 3]` -/
def readFour (j : Nat) : Traced Nat Unit :=
  Traced.touchAll [j, j + 1, j + 2, j + 3]

/-- Each mbuf is prefetched, and then its data. -/
def processx4Step1Prefetch (j : Nat) : Traced Nat Unit := do
  readFour j
  readFour j

/-- `count` mbufs from `pkts_burst[first]` on are prefetched, each followed by its data. -/
def prefetch2 (first count : Nat) : Traced Nat Unit :=
  Traced.touchAll ((List.range' first count).flatMap fun i => [i, i])

def gatherFour (mbufs : MbufHeap) (pktsBurst : Nat → MbufPtr) (j : Nat)
    (arrays : (Nat → Register) × (Nat → BitVec 32)) :
    Traced Nat ((Nat → Register) × (Nat → BitVec 32)) := do
  readFour j
  return L3fwd.gatherFour mbufs pktsBurst j arrays

/-- One round of the loop over the groups but the last. -/
def gatherRound (mbufs : MbufHeap) (pktsBurst : Nat → MbufPtr) (nbRx : Nat)
    (arrays : (Nat → Register) × (Nat → BitVec 32)) (group : Nat) :
    Traced Nat ((Nat → Register) × (Nat → BitVec 32)) := do
  let j := group * fwdStep
  -- prefetch two groups ahead
  if j + 2 * fwdStep < nbRx then
    prefetch2 (j + 2 * fwdStep) fwdStep
  -- prefetch one group ahead
  processx4Step1Prefetch (j + fwdStep)
  gatherFour mbufs pktsBurst j arrays

def gatherFours (mbufs : MbufHeap) (pktsBurst : Nat → MbufPtr) (nbRx : Nat)
    (arrays : (Nat → Register) × (Nat → BitVec 32)) :
    Traced Nat ((Nat → Register) × (Nat → BitVec 32)) := do
  let k := nbRx / fwdStep * fwdStep
  if k ≠ 0 then
    prefetch2 0 (min fwdStep nbRx)
    processx4Step1Prefetch 0
    let arrays ← (List.range (nbRx / fwdStep - 1)).foldlM (gatherRound mbufs pktsBurst nbRx) arrays
    gatherFour mbufs pktsBurst (k - fwdStep) arrays
  else
    return arrays

/-- Only packets of different types are looked at again. -/
def processx4Step2 (tables : LpmTables) (mbufs : MbufHeap)
    (arrays : (Nat → Register) × (Nat → BitVec 32)) (portid : BitVec 16)
    (pktsBurst : Nat → MbufPtr) (dstPort : Nat → BitVec 16) (group : Nat) :
    Traced Nat (Nat → BitVec 16) := do
  let j := group * fwdStep
  if arrays.2 (j / fwdStep) = 0 then
    readFour j
  return L3fwd.processx4Step2 tables mbufs (arrays.1 (j / fwdStep)) (arrays.2 (j / fwdStep)) portid
    pktsBurst j dstPort

def processx4Step3 (env : Env) (pktsBurst : Nat → MbufPtr)
    (packets : MbufHeap × (Nat → BitVec 16)) (group : Nat) :
    Traced Nat (MbufHeap × (Nat → BitVec 16)) := do
  let j := group * fwdStep
  readFour j
  return L3fwd.processx4Step3 env pktsBurst j packets

/-- Classify one packet of the rest. -/
def lpmProcessLast (env : Env) (tables : LpmTables) (pktsBurst : Nat → MbufPtr)
    (portid : BitVec 16) (doStep3 : Bool) (packets : MbufHeap × (Nat → BitVec 16)) (j : Nat) :
    Traced Nat (MbufHeap × (Nat → BitVec 16)) := do
  Traced.touch j
  return lpmProcessTail env tables pktsBurst portid doStep3 1 j packets

def l3fwdLpmProcessPackets (env : Env) (tables : LpmTables) (mbufs : MbufHeap) (nbRx : Nat)
    (pktsBurst : Nat → MbufPtr) (portid : BitVec 16) (dstPort : Nat → BitVec 16)
    (doStep3 : Bool) : Traced Nat (MbufHeap × (Nat → BitVec 16)) := do
  let k := nbRx / fwdStep * fwdStep
  let m := nbRx % fwdStep
  let groups := List.range (nbRx / fwdStep)
  let arrays ← gatherFours mbufs pktsBurst nbRx (default, default)
  let dstPort ← groups.foldlM (processx4Step2 tables mbufs arrays portid pktsBurst) dstPort
  let packets ←
    if doStep3 then groups.foldlM (processx4Step3 env pktsBurst) (mbufs, dstPort)
    else pure (mbufs, dstPort)
  -- prefetch the rest
  Traced.touchAll (List.range' k m)
  (List.range' k m).foldlM (lpmProcessLast env tables pktsBurst portid doStep3) packets

def lpmVectorPacket (env : Env) (tables : LpmTables) (vec : RteEventVector)
    (packets : MbufHeap × (Nat → BitVec 16)) (i : Nat) :
    Traced Nat (MbufHeap × (Nat → BitVec 16)) := do
  -- for its port
  Traced.touch i
  let (mbufs, ports) ← (l3fwdLpmProcessPackets env tables packets.1 1
    (fun j => vec.mbufs (i + j)) (packets.1 (vec.mbufs i)).port (portsFrom packets.2 i)
    true).relabel fun j => i + j
  return (mbufs, writePortsFrom packets.2 i ports)

def lpmProcessEventVector (env : Env) (tables : LpmTables) (mbufs : MbufHeap)
    (vec : RteEventVector) (dstPort : Nat → BitVec 16) : Traced Nat VectorState := do
  let packets ←
    if vec.attrValid then
      l3fwdLpmProcessPackets env tables mbufs vec.nbElem vec.mbufs vec.port dstPort true
    else
      (List.range vec.nbElem).foldlM (lpmVectorPacket env tables vec) (mbufs, dstPort)
  return processEventVector packets.1 vec packets.2

/-! ## Without the traces -/

/-- Steps of four are counted in groups. -/
theorem foldl_eq_forFours {σ : Type} (body : Nat → σ → σ) :
    ∀ count first state, (List.range' first count).foldl
        (fun state group => body (group * fwdStep) state) state =
      forFours body count (first * fwdStep) state := by
  intro count
  induction count with
  | zero => exact fun _ _ => rfl
  | succ count induction =>
      intro first state
      have next : (first + 1) * fwdStep = first * fwdStep + fwdStep := Nat.succ_mul first fwdStep
      rw [List.range'_succ, List.foldl_cons, induction, next, forFours]

theorem value_groups {σ : Type} (step : σ → Nat → Traced Nat σ) (body : Nat → σ → σ)
    (same : ∀ state group, (step state group).value = body (group * fwdStep) state)
    (count : Nat) (start : σ) :
    ((List.range count).foldlM step start).value = forFours body count 0 start := by
  have loop := foldl_eq_forFours body count 0 start
  rw [Nat.zero_mul, ← List.range_eq_range'] at loop
  rw [Traced.value_foldlM, ← loop]
  simp only [same]

theorem forFours_succ {σ : Type} (body : Nat → σ → σ) :
    ∀ rounds j state, forFours body (rounds + 1) j state =
      body (j + rounds * fwdStep) (forFours body rounds j state) := by
  intro rounds
  induction rounds with
  | zero =>
      intro j state
      rw [Nat.zero_mul, Nat.add_zero]
      rfl
  | succ rounds induction =>
      intro j state
      have next : j + fwdStep + rounds * fwdStep = j + (rounds + 1) * fwdStep := by
        rw [Nat.succ_mul]
        omega
      rw [forFours, induction, next, forFours]

theorem gatherRound_value (mbufs : MbufHeap) (pktsBurst : Nat → MbufPtr) (nbRx : Nat)
    (arrays : (Nat → Register) × (Nat → BitVec 32)) (group : Nat) :
    (gatherRound mbufs pktsBurst nbRx arrays group).value =
      L3fwd.gatherFour mbufs pktsBurst (group * fwdStep) arrays := by
  rw [gatherRound]
  split
  · rfl
  · rfl

theorem gatherFours_value (mbufs : MbufHeap) (pktsBurst : Nat → MbufPtr) (nbRx : Nat)
    (arrays : (Nat → Register) × (Nat → BitVec 32)) :
    (gatherFours mbufs pktsBurst nbRx arrays).value =
      forFours (L3fwd.gatherFour mbufs pktsBurst) (nbRx / fwdStep) 0 arrays := by
  rw [gatherFours]
  cases isGroups : nbRx / fwdStep with
  | zero => rfl
  | succ groups =>
      have notZero : (groups + 1) * fwdStep ≠ 0 := by
        simp only [fwdStep]
        omega
      have last : (groups + 1) * fwdStep - fwdStep = 0 + groups * fwdStep := by
        rw [Nat.succ_mul, Nat.add_sub_cancel, Nat.zero_add]
      have loop := value_groups (gatherRound mbufs pktsBurst nbRx)
        (L3fwd.gatherFour mbufs pktsBurst) (gatherRound_value mbufs pktsBurst nbRx) groups arrays
      rw [if_pos notZero, Nat.add_sub_cancel, forFours_succ, last, ← loop]
      rfl

theorem processx4Step2_value (tables : LpmTables) (mbufs : MbufHeap)
    (arrays : (Nat → Register) × (Nat → BitVec 32)) (portid : BitVec 16)
    (pktsBurst : Nat → MbufPtr) (dstPort : Nat → BitVec 16) (group : Nat) :
    (processx4Step2 tables mbufs arrays portid pktsBurst dstPort group).value =
      (fun j dstPort => L3fwd.processx4Step2 tables mbufs (arrays.1 (j / fwdStep))
        (arrays.2 (j / fwdStep)) portid pktsBurst j dstPort) (group * fwdStep) dstPort := by
  rw [processx4Step2]
  split
  · rfl
  · rfl

theorem lpmProcessTail_eq_foldl (env : Env) (tables : LpmTables) (pktsBurst : Nat → MbufPtr)
    (portid : BitVec 16) (doStep3 : Bool) :
    ∀ count j packets, (List.range' j count).foldl (fun packets j =>
        lpmProcessTail env tables pktsBurst portid doStep3 1 j packets) packets =
      lpmProcessTail env tables pktsBurst portid doStep3 count j packets := by
  intro count
  induction count with
  | zero => exact fun _ _ => rfl
  | succ count induction =>
      intro j packets
      rw [List.range'_succ, List.foldl_cons, induction]
      rfl

/-- The traced function computes what the plain one does. -/
theorem l3fwdLpmProcessPackets_value (env : Env) (tables : LpmTables) (mbufs : MbufHeap)
    (nbRx : Nat) (pktsBurst : Nat → MbufPtr) (portid : BitVec 16) (dstPort : Nat → BitVec 16)
    (doStep3 : Bool) :
    (l3fwdLpmProcessPackets env tables mbufs nbRx pktsBurst portid dstPort doStep3).value =
      L3fwd.l3fwdLpmProcessPackets env tables mbufs nbRx pktsBurst portid dstPort doStep3 := by
  have step2 := fun arrays : (Nat → Register) × (Nat → BitVec 32) => value_groups
    (processx4Step2 tables mbufs arrays portid pktsBurst)
    (fun j dstPort => L3fwd.processx4Step2 tables mbufs (arrays.1 (j / fwdStep))
      (arrays.2 (j / fwdStep)) portid pktsBurst j dstPort)
    (processx4Step2_value tables mbufs arrays portid pktsBurst) (nbRx / fwdStep) dstPort
  have step3 := fun dstPort => value_groups (processx4Step3 env pktsBurst)
    (L3fwd.processx4Step3 env pktsBurst) (fun _ _ => rfl) (nbRx / fwdStep) (mbufs, dstPort)
  have rest : ∀ packets, ((List.range' (nbRx / fwdStep * fwdStep) (nbRx % fwdStep)).foldlM
        (lpmProcessLast env tables pktsBurst portid doStep3) packets).value =
      lpmProcessTail env tables pktsBurst portid doStep3 (nbRx % fwdStep)
        (nbRx / fwdStep * fwdStep) packets := by
    intro packets
    rw [Traced.value_foldlM, ← lpmProcessTail_eq_foldl]
    rfl
  rw [l3fwdLpmProcessPackets, L3fwd.l3fwdLpmProcessPackets]
  cases doStep3 with
  | true =>
      simp only [if_true, Traced.value_bind, gatherFours_value, step2, step3, rest]
  | false =>
      simp only [Bool.false_eq_true, if_false, Traced.value_bind, Traced.value_pure,
        gatherFours_value, step2, rest]

theorem lpmProcessEventVector_value (env : Env) (tables : LpmTables) (mbufs : MbufHeap)
    (vec : RteEventVector) (dstPort : Nat → BitVec 16) :
    (lpmProcessEventVector env tables mbufs vec dstPort).value =
      L3fwd.lpmProcessEventVector env tables mbufs vec dstPort := by
  have packet : ∀ packets i, (lpmVectorPacket env tables vec packets i).value =
      L3fwd.lpmVectorPacket env tables vec packets i := by
    intro packets i
    rw [L3fwd.lpmVectorPacket, ← l3fwdLpmProcessPackets_value]
    rfl
  rw [lpmProcessEventVector, L3fwd.lpmProcessEventVector]
  split
  · rw [Traced.value_bind, l3fwdLpmProcessPackets_value]
    rfl
  · rw [Traced.value_bind, Traced.value_foldlM]
    simp only [packet]
    rfl

/-! ## Which positions are read -/

section Positions

variable {bound : Nat}

theorem readFour_below_iff (j : Nat) : (readFour j).Only (· < bound) ↔ j + 3 < bound := by
  simp only [readFour, Traced.only_touchAll_iff, List.forall_mem_cons]
  constructor
  · exact fun all => all.2.2.2.1
  · intro last
    refine ⟨?_, ?_, ?_, last, List.forall_mem_nil _⟩
    all_goals omega

theorem prefetch2_below_iff (first count : Nat) :
    (prefetch2 first count).Only (· < bound) ↔ ∀ i, first ≤ i → i < first + count → i < bound := by
  simp only [prefetch2, Traced.only_touchAll_iff, List.mem_flatMap, List.mem_range'_1]
  constructor
  · intro all i after before
    exact all i ⟨i, ⟨after, before⟩, List.mem_cons_self⟩
  · rintro all i ⟨other, ⟨after, before⟩, same⟩
    have here : i = other := by simpa using same
    rw [here]
    exact all other after before

theorem processx4Step1Prefetch_below_iff (j : Nat) :
    (processx4Step1Prefetch j).Only (· < bound) ↔ j + 3 < bound := by
  rw [processx4Step1Prefetch, Traced.only_bind_iff, readFour_below_iff, and_self]

theorem gatherFour_below_iff (mbufs : MbufHeap) (pktsBurst : Nat → MbufPtr) (j : Nat)
    (arrays : (Nat → Register) × (Nat → BitVec 32)) :
    (gatherFour mbufs pktsBurst j arrays).Only (· < bound) ↔ j + 3 < bound := by
  rw [gatherFour, Traced.only_bind_iff, readFour_below_iff]
  exact and_iff_left (Traced.only_pure _)

end Positions

/-- The group two ahead is prefetched whole as soon as its first packet is there. -/
theorem gatherRound_below_iff (mbufs : MbufHeap) (pktsBurst : Nat → MbufPtr) (nbRx : Nat)
    (arrays : (Nat → Register) × (Nat → BitVec 32)) (group : Nat) :
    (gatherRound mbufs pktsBurst nbRx arrays group).Only (· < nbRx) ↔
      group * 4 + 7 < nbRx ∧ (group * 4 + 8 < nbRx → group * 4 + 11 < nbRx) := by
  have ahead : (∀ i, group * fwdStep + 2 * fwdStep ≤ i →
      i < group * fwdStep + 2 * fwdStep + fwdStep → i < nbRx) ↔ group * 4 + 11 < nbRx := by
    simp only [fwdStep]
    exact ⟨fun all => all _ (by omega) (by omega), fun last i _ _ => by omega⟩
  rw [gatherRound]
  dsimp only
  by_cases more : group * fwdStep + 2 * fwdStep < nbRx
  · rw [if_pos more, Traced.only_bind_iff, Traced.only_bind_iff, prefetch2_below_iff, ahead,
      processx4Step1Prefetch_below_iff, gatherFour_below_iff]
    simp only [fwdStep] at more ⊢
    omega
  · rw [if_neg more, Traced.only_bind_iff, processx4Step1Prefetch_below_iff, gatherFour_below_iff]
    simp only [fwdStep] at more ⊢
    omega

/-- Only a last group that is not whole is prefetched beyond the burst. -/
theorem gatherFours_below_iff (mbufs : MbufHeap) (pktsBurst : Nat → MbufPtr) (nbRx : Nat)
    (arrays : (Nat → Register) × (Nat → BitVec 32)) :
    (gatherFours mbufs pktsBurst nbRx arrays).Only (· < nbRx) ↔ nbRx < 8 ∨ nbRx % 4 = 0 := by
  have rounds := Traced.only_foldlM_iff_forall
    (fun arrays group => gatherRound_below_iff mbufs pktsBurst nbRx arrays group)
    (List.range (nbRx / fwdStep - 1)) arrays
  have first : ∀ i, 0 ≤ i → i < 0 + min fwdStep nbRx → i < nbRx := fun i _ _ => by omega
  rw [gatherFours]
  by_cases some : nbRx / fwdStep * fwdStep ≠ 0
  · rw [if_pos some, Traced.only_bind_iff, Traced.only_bind_iff, Traced.only_bind_iff, rounds,
      prefetch2_below_iff, processx4Step1Prefetch_below_iff, gatherFour_below_iff]
    simp only [List.mem_range, fwdStep] at some first ⊢
    constructor
    · rintro ⟨_, _, all, _⟩
      by_contra neither
      have last := all (nbRx / 4 - 2) (by omega)
      omega
    · intro whole
      refine ⟨first, by omega, fun group before => ?_, by omega⟩
      omega
  · rw [if_neg some]
    simp only [fwdStep] at some
    exact iff_of_true (Traced.only_pure arrays) (by omega)

/-- The groups of four end inside the burst. -/
theorem processx4Step3_below {bound : Nat} (env : Env) (pktsBurst : Nat → MbufPtr)
    (packets : MbufHeap × (Nat → BitVec 16)) :
    ((List.range (bound / fwdStep)).foldlM (processx4Step3 env pktsBurst) packets).Only
      (· < bound) := by
  apply Traced.only_foldlM
  intro group member packets
  have inside := List.mem_range.mp member
  simp only [fwdStep] at inside
  refine (Traced.only_bind_iff _ _).mpr ⟨(readFour_below_iff _).mpr ?_, Traced.only_pure _⟩
  simp only [fwdStep]
  omega

/-- Apart from the gathering, nothing beyond the burst is read. -/
theorem l3fwdLpmProcessPackets_below_iff (env : Env) (tables : LpmTables) (mbufs : MbufHeap)
    (nbRx : Nat) (pktsBurst : Nat → MbufPtr) (portid : BitVec 16) (dstPort : Nat → BitVec 16)
    (doStep3 : Bool) :
    (l3fwdLpmProcessPackets env tables mbufs nbRx pktsBurst portid dstPort doStep3).Only
        (· < nbRx) ↔ nbRx < 8 ∨ nbRx % 4 = 0 := by
  have inGroup : ∀ group, group ∈ List.range (nbRx / fwdStep) → group * fwdStep + 3 < nbRx := by
    intro group member
    have below := List.mem_range.mp member
    simp only [fwdStep] at below ⊢
    omega
  have inRest : ∀ j, j ∈ List.range' (nbRx / fwdStep * fwdStep) (nbRx % fwdStep) → j < nbRx := by
    intro j member
    have below := (List.mem_range'_1.mp member).2
    have whole : nbRx / fwdStep * fwdStep + nbRx % fwdStep = nbRx := Nat.div_add_mod' nbRx fwdStep
    rwa [whole] at below
  have step2 : ∀ arrays, ((List.range (nbRx / fwdStep)).foldlM
      (processx4Step2 tables mbufs arrays portid pktsBurst) dstPort).Only (· < nbRx) := by
    intro arrays
    apply Traced.only_foldlM
    intro group member ports
    rw [processx4Step2]
    dsimp only
    split
    · exact (Traced.only_bind_iff _ _).mpr
        ⟨(readFour_below_iff _).mpr (inGroup group member), Traced.only_pure _⟩
    · exact Traced.only_pure _
  have rest : ∀ packets, ((List.range' (nbRx / fwdStep * fwdStep) (nbRx % fwdStep)).foldlM
      (lpmProcessLast env tables pktsBurst portid doStep3) packets).Only (· < nbRx) := by
    intro packets
    apply Traced.only_foldlM
    intro j member packets
    exact (Traced.only_bind_iff _ _).mpr
      ⟨(Traced.only_touch_iff j).mpr (inRest j member), Traced.only_pure _⟩
  have ahead : (Traced.touchAll (List.range' (nbRx / fwdStep * fwdStep)
      (nbRx % fwdStep))).Only (· < nbRx) := inRest
  have tail : ∀ packets, (Traced.touchAll (List.range' (nbRx / fwdStep * fwdStep)
        (nbRx % fwdStep)) >>= fun _ => (List.range' (nbRx / fwdStep * fwdStep)
        (nbRx % fwdStep)).foldlM (lpmProcessLast env tables pktsBurst portid doStep3)
        packets).Only (· < nbRx) :=
    fun packets => (Traced.only_bind_iff _ _).mpr ⟨ahead, rest packets⟩
  rw [l3fwdLpmProcessPackets]
  dsimp only
  rw [Traced.only_bind_iff, gatherFours_below_iff, Traced.only_bind_iff]
  refine and_iff_left ⟨step2 _, ?_⟩
  cases doStep3 with
  | true => exact (Traced.only_bind_iff _ _).mpr ⟨processx4Step3_below env pktsBurst _, tail _⟩
  | false => exact (Traced.only_bind_iff _ _).mpr ⟨Traced.only_pure _, tail _⟩

/-- A burst of one reads its packet only. -/
theorem lpmVectorPacket_below (env : Env) (tables : LpmTables) (vec : RteEventVector)
    (packets : MbufHeap × (Nat → BitVec 16)) {i : Nat} (inside : i < vec.nbElem) :
    (lpmVectorPacket env tables vec packets i).Only (· < vec.nbElem) := by
  have one := (l3fwdLpmProcessPackets_below_iff env tables packets.1 1
    (fun j => vec.mbufs (i + j)) (packets.1 (vec.mbufs i)).port (portsFrom packets.2 i) true).mpr
    (Or.inl (by decide))
  rw [lpmVectorPacket, Traced.only_bind_iff, Traced.only_bind_iff, Traced.only_relabel_iff]
  refine ⟨(Traced.only_touch_iff i).mpr inside, ?_, Traced.only_pure _⟩
  intro j member
  have atFirst := one j member
  dsimp only at atFirst ⊢
  omega

theorem lpmProcessEventVector_below_iff (env : Env) (tables : LpmTables) (mbufs : MbufHeap)
    (vec : RteEventVector) (dstPort : Nat → BitVec 16) :
    (lpmProcessEventVector env tables mbufs vec dstPort).Only (· < vec.nbElem) ↔
      (vec.attrValid = true → vec.nbElem < 8 ∨ vec.nbElem % 4 = 0) := by
  have one : ((List.range vec.nbElem).foldlM (lpmVectorPacket env tables vec)
      (mbufs, dstPort)).Only (· < vec.nbElem) := by
    apply Traced.only_foldlM
    intro i member packets
    exact lpmVectorPacket_below env tables vec packets (List.mem_range.mp member)
  rw [lpmProcessEventVector]
  cases vec.attrValid with
  | true =>
      rw [if_pos rfl, Traced.only_bind_iff, l3fwdLpmProcessPackets_below_iff]
      simp only [Traced.only_pure_iff, and_true, forall_const]
  | false =>
      rw [if_neg Bool.false_ne_true, Traced.only_bind_iff]
      exact iff_of_true ⟨one, Traced.only_pure _⟩ fun impossible => absurd impossible
        Bool.false_ne_true

end PktReads

/-- Only packets of the burst are read if and only if the burst is shorter than two groups
or made of whole groups, and the same holds of vectors whose packets have one port. -/
theorem lpmPktReads_below_iff (env : Env) (tables : LpmTables) (mbufs : MbufHeap) :
    (∀ nbRx pktsBurst portid dstPort doStep3,
      ((PktReads.l3fwdLpmProcessPackets env tables mbufs nbRx pktsBurst portid dstPort
          doStep3).Only (· < nbRx) ↔ nbRx < 8 ∨ nbRx % 4 = 0)) ∧
    ∀ vec dstPort,
      ((PktReads.lpmProcessEventVector env tables mbufs vec dstPort).Only (· < vec.nbElem) ↔
        (vec.attrValid = true → vec.nbElem < 8 ∨ vec.nbElem % 4 = 0)) :=
  ⟨fun nbRx pktsBurst portid dstPort doStep3 => PktReads.l3fwdLpmProcessPackets_below_iff env
      tables mbufs nbRx pktsBurst portid dstPort doStep3,
    fun vec dstPort => PktReads.lpmProcessEventVector_below_iff env tables mbufs vec dstPort⟩

/-- Nine packets: with the first group, a third one is prefetched of which there is only
one packet. -/
theorem lpmPktReads_nine :
    ¬ (PktReads.l3fwdLpmProcessPackets default (singleRouteTables 0#32) (fun _ => default) 9 id 0#16
      (fun _ => 0#16) false).Only (· < 9) := by
  rw [PktReads.l3fwdLpmProcessPackets_below_iff]
  decide

end PacketForwarding.L3fwd
