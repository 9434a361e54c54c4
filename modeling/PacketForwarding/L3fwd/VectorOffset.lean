import PacketForwarding.L3fwd.VectorSlots

/-! # Where the elements of an event vector begin

The elements of a vector begin at `elem_offset`. The cleanup frees them from there, and the
functions that process a vector take them from the start of the array.
-/

namespace PacketForwarding.L3fwd

open Lanes Cells

structure OffsetVector extends RteEventVector where
  elemOffset : Nat

namespace OffsetVector

def Valid (vec : OffsetVector) (slot : Nat) : Prop :=
  vec.elemOffset ≤ slot ∧ slot < vec.elemOffset + vec.nbElem

/-- The vector of the valid elements alone. -/
def valid (vec : OffsetVector) : RteEventVector :=
  { vec.toRteEventVector with mbufs := fun i => vec.mbufs (vec.elemOffset + i) }

/-- No function writes `elem_offset`. -/
def after (vec : OffsetVector) (result : VectorState) : OffsetVector :=
  { toRteEventVector := result.vec, elemOffset := vec.elemOffset }

end OffsetVector

/-- The mbufs that are freed and the vectors that are put back into their pool. -/
structure VectorFree where
  freed : List MbufPtr
  put : List Nat

def l3fwdEventVectorArrayFree (vecs : Nat → OffsetVector) (events : List Nat) : VectorFree :=
  events.foldl (fun done event =>
    { freed := done.freed ++ (vecs event).valid.elems, put := done.put ++ [event] }) ⟨[], []⟩

/-! ## The functions as one -/

/-- Only packets of the vector get a new port. -/
theorem processEventVector_leaves {mbufs : MbufHeap} {vec : RteEventVector} {name : MbufPtr}
    (apart : name ∉ vec.elems) (dstPort : Nat → BitVec 16) :
    (processEventVector mbufs vec dstPort).mbufs name = mbufs name := by
  unfold processEventVector
  dsimp only
  rw [filterBadPackets_left]
  split
  · apply cell_outside
    intro index _ before same
    have inside : index < (keptPackets dstPort vec.nbElem).length := by rwa [Nat.zero_add] at before
    have filtered := filterBadPackets_spec vec.mbufs dstPort vec.nbElem
    have isKept := eq_of_map_range filtered.kept inside
    rcases mem_keptPackets.mp (List.getElem_mem inside) with ⟨isElem, -⟩
    apply apart
    rw [← same, isKept]
    exact List.mem_map_of_mem (List.mem_range.mpr isElem)
  · rfl

/-- The three lookups, with the builds of the first two and the variants of the last. -/
inductive VectorFunction
  | lpm (build : Build) (tables : LpmTables)
  | fib (build : Build) (tables : FibTables) (search : FibSearch)
  | em (tables : EmTables)
  | emSequential (tables : EmTables)

namespace VectorFunction

/-- The lookups and rewrites in front of `process_event_vector`. -/
def packets (env : Env) (mbufs : MbufHeap) (vec : RteEventVector) (dstPort : Nat → BitVec 16) :
    VectorFunction → Traced Nat (MbufHeap × (Nat → BitVec 16))
  | lpm build tables => SlotReads.lpmVectorPackets build env tables mbufs vec dstPort
  | fib build tables search =>
      SlotReads.fibVectorPackets build env tables search mbufs vec dstPort
  | em tables => SlotReads.emVectorPackets env tables mbufs vec dstPort
  | emSequential tables => SlotReads.Sequential.emVectorPackets env tables mbufs vec dstPort

def process (function : VectorFunction) (env : Env) (mbufs : MbufHeap) (vec : RteEventVector)
    (dstPort : Nat → BitVec 16) : Traced Nat VectorState := do
  let packets ← function.packets env mbufs vec dstPort
  SlotReads.processEventVector packets.1 vec packets.2

theorem process_value (env : Env) (mbufs : MbufHeap) (vec : RteEventVector)
    (dstPort : Nat → BitVec 16) :
    (∀ tables, ((lpm .simd tables).process env mbufs vec dstPort).value =
        lpmProcessEventVector env tables mbufs vec dstPort) ∧
      (∀ build tables search, ((fib build tables search).process env mbufs vec dstPort).value =
        fibProcessEventVector build env tables search mbufs vec dstPort) ∧
      (∀ tables, ((em tables).process env mbufs vec dstPort).value =
        l3fwdEmProcessEventVector env tables mbufs vec dstPort) ∧
      ∀ tables, ((emSequential tables).process env mbufs vec dstPort).value =
        Sequential.l3fwdEmProcessEventVector env tables mbufs vec dstPort := by
  have filters := SlotReads.processEventVector_value
  exact ⟨fun tables => (filters _ _ _).trans (SlotReads.lpmVectorPackets_value _ _ _ _ _),
    fun build tables search =>
      (filters _ _ _).trans (SlotReads.fibVectorPackets_value _ _ _ _ _ _ _),
    fun tables => (filters _ _ _).trans (SlotReads.emVectorPackets_value _ _ _ _ _),
    fun tables => (filters _ _ _).trans (SlotReads.Sequential.emVectorPackets_value _ _ _ _ _)⟩

/-- With the elements at the start of the array, no slot behind them is read: the groups of
four have no group ahead that is not whole, and there is a first packet to prefetch. -/
def ReadsInside (vec : RteEventVector) : VectorFunction → Prop
  | lpm .simd _ => vec.attrValid = true → vec.nbElem < 8 ∨ vec.nbElem % 4 = 0
  | lpm .generic _ => True
  | fib _ _ _ => True
  | em _ => True
  | emSequential _ => 1 ≤ vec.nbElem

section

variable (function : VectorFunction) (env : Env) (mbufs : MbufHeap) (vec : RteEventVector)
  (dstPort : Nat → BitVec 16)

theorem process_below_iff :
    (function.process env mbufs vec dstPort).Only (· < vec.nbElem) ↔
      function.ReadsInside vec := by
  rw [process, Traced.only_bind_iff]
  refine (and_iff_left (SlotReads.processEventVector_below _ vec _)).trans ?_
  cases function with
  | lpm build tables =>
      refine (SlotReads.lpmVectorPackets_below_iff build env tables mbufs vec dstPort).trans ?_
      cases build with
      | simd => exact forall_prop_of_true rfl
      | generic => exact iff_of_true (fun impossible => Build.noConfusion impossible) trivial
  | fib build tables search =>
      exact iff_of_true (SlotReads.fibVectorPackets_below build env tables search mbufs vec dstPort)
        trivial
  | em tables =>
      exact iff_of_true (SlotReads.emVectorPackets_below env tables mbufs vec dstPort) trivial
  | emSequential tables =>
      exact SlotReads.Sequential.emVectorPackets_below_iff env tables mbufs vec dstPort

/-- Every packet is at least looked at. -/
theorem process_touched {slot : Nat} (inside : slot < vec.nbElem) :
    slot ∈ (function.process env mbufs vec dstPort).touched := by
  rw [process, Traced.touched_bind, List.mem_append]
  refine Or.inl ?_
  cases function with
  | lpm build tables =>
      exact SlotReads.lpmVectorPackets_touched env mbufs vec inside build tables dstPort
  | fib build tables search =>
      exact SlotReads.fibVectorPackets_touched env mbufs vec inside build tables search dstPort
  | em tables => exact SlotReads.emVectorPackets_touched env mbufs vec inside tables dstPort
  | emSequential tables =>
      exact SlotReads.Sequential.emVectorPackets_touched env mbufs vec inside tables dstPort

/-- A packet outside the vector is left alone. -/
theorem process_leaves {name : MbufPtr} (apart : name ∉ vec.elems) :
    (function.process env mbufs vec dstPort).value.mbufs name = mbufs name := by
  have outside : ∀ i, i < vec.nbElem → vec.mbufs i ≠ name := by
    intro i inside same
    exact apart (same ▸ List.mem_map_of_mem (List.mem_range.mpr inside))
  rw [process, Traced.value_bind, SlotReads.processEventVector_value,
    processEventVector_leaves apart]
  cases function with
  | lpm build tables => exact SlotReads.lpmVectorPackets_leaves env outside build tables dstPort
  | fib build tables search =>
      exact SlotReads.fibVectorPackets_leaves env outside build tables search dstPort
  | em tables => exact SlotReads.emVectorPackets_leaves env outside tables dstPort
  | emSequential tables =>
      exact SlotReads.Sequential.emVectorPackets_leaves env outside tables dstPort

end

end VectorFunction

/-! ## Serving the valid elements -/

theorem badPackets_append_perm (dstPort : Nat → BitVec 16) (nbPkts : Nat) :
    (badPackets dstPort nbPkts ++ keptPackets dstPort nbPkts).Perm (List.range nbPkts) := by
  have split := List.filter_append_perm (fun i => decide (dstPort i = badPort))
    (List.range nbPkts)
  simpa [badPackets, keptPackets] using split

/-- Exactly the valid elements are served. They are processed as if the array held nothing
else, and those with a bad port are freed. The others are the valid elements afterwards, and
the cleanup frees what has not been freed. -/
structure Served (mbufs : MbufHeap) (vec : OffsetVector) (alone : MbufHeap × (Nat → BitVec 16))
    (run : Traced Nat VectorState) : Prop where
  slots : ∀ slot, slot ∈ run.touched ↔ vec.Valid slot
  packets : run.value.mbufs = (processEventVector alone.1 vec.valid alone.2).mbufs
  others : ∀ name, name ∉ vec.valid.elems → run.value.mbufs name = mbufs name
  outside : ∀ slot, ¬ vec.Valid slot → run.value.vec.mbufs slot = vec.mbufs slot
  freed : run.value.freed = (badPackets alone.2 vec.nbElem).map vec.valid.mbufs
  kept : (vec.after run.value).valid.elems =
    (keptPackets alone.2 vec.nbElem).map vec.valid.mbufs
  cleanup : ∀ vecs event, vecs event = vec.after run.value →
    (l3fwdEventVectorArrayFree vecs [event]).freed = (vec.after run.value).valid.elems ∧
      (run.value.freed ++ (l3fwdEventVectorArrayFree vecs [event]).freed).Perm vec.valid.elems

theorem Served.of_filtered {mbufs : MbufHeap} {vec : OffsetVector}
    {alone : MbufHeap × (Nat → BitVec 16)} {run : Traced Nat VectorState}
    (slots : ∀ slot, slot ∈ run.touched ↔ vec.Valid slot)
    (packets : run.value.mbufs = (processEventVector alone.1 vec.valid alone.2).mbufs)
    (others : ∀ name, name ∉ vec.valid.elems → run.value.mbufs name = mbufs name)
    (outside : ∀ slot, ¬ vec.Valid slot → run.value.vec.mbufs slot = vec.mbufs slot)
    (freed : run.value.freed = (badPackets alone.2 vec.nbElem).map vec.valid.mbufs)
    (kept : (vec.after run.value).valid.elems =
      (keptPackets alone.2 vec.nbElem).map vec.valid.mbufs) :
    Served mbufs vec alone run where
  slots := slots
  packets := packets
  others := others
  outside := outside
  freed := freed
  kept := kept
  cleanup := by
    intro vecs event isVec
    have isFree : (l3fwdEventVectorArrayFree vecs [event]).freed =
        (vec.after run.value).valid.elems := by
      rw [← isVec]
      exact List.nil_append _
    refine ⟨isFree, ?_⟩
    rw [isFree, kept, freed, ← List.map_append]
    exact (badPackets_append_perm alone.2 vec.nbElem).map vec.valid.mbufs

namespace VectorFunction

variable (function : VectorFunction) (env : Env) (mbufs : MbufHeap)

def Serves (vec : OffsetVector) (dstPort : Nat → BitVec 16) : Prop :=
  Served mbufs vec (function.packets env mbufs vec.valid dstPort).value
    (function.process env mbufs vec.toRteEventVector dstPort)

/-- The elements are taken from slot 0 on, so as soon as there is one, it has to be there. -/
theorem process_slots_iff (vec : OffsetVector) (dstPort : Nat → BitVec 16) :
    (∀ slot, slot ∈ (function.process env mbufs vec.toRteEventVector dstPort).touched ↔
        vec.Valid slot) ↔
      (vec.nbElem = 0 ∨ vec.elemOffset = 0) ∧ function.ReadsInside vec.toRteEventVector := by
  have touched := fun slot inside => @process_touched function env mbufs vec.toRteEventVector
    dstPort slot inside
  rw [← process_below_iff function env mbufs vec.toRteEventVector dstPort]
  generalize (function.process env mbufs vec.toRteEventVector dstPort) = run at touched ⊢
  constructor
  · intro exactly
    have atStart : vec.nbElem = 0 ∨ vec.elemOffset = 0 := by
      rcases Nat.eq_zero_or_pos vec.nbElem with none | some
      · exact Or.inl none
      · exact Or.inr (Nat.le_zero.mp ((exactly 0).mp (touched 0 some)).1)
    refine ⟨atStart, ?_⟩
    intro slot member
    have valid := (exactly slot).mp member
    unfold OffsetVector.Valid at valid
    omega
  · rintro ⟨atStart, inside⟩ slot
    unfold OffsetVector.Valid
    constructor
    · intro member
      have before : slot < vec.nbElem := inside slot member
      omega
    · intro valid
      exact touched slot (by omega)

/-- Where the elements begin at slot 0, the array is that of the valid elements. -/
theorem serves_atStart {vec : OffsetVector} (dstPort : Nat → BitVec 16)
    (atStart : vec.elemOffset = 0) (inside : function.ReadsInside vec.toRteEventVector) :
    function.Serves env mbufs vec dstPort := by
  have isValid : vec.valid = vec.toRteEventVector := by
    simp only [OffsetVector.valid, atStart, Nat.zero_add]
  have afterValid : ∀ result, (vec.after result).valid = result.vec := by
    intro result
    simp only [OffsetVector.valid, OffsetVector.after, atStart, Nat.zero_add]
  have slots := (function.process_slots_iff env mbufs vec dstPort).mpr ⟨Or.inr atStart, inside⟩
  have leaves := fun name => @process_leaves function env mbufs vec.toRteEventVector dstPort name
  have value : (function.process env mbufs vec.toRteEventVector dstPort).value =
      processEventVector (function.packets env mbufs vec.toRteEventVector dstPort).value.1
        vec.toRteEventVector (function.packets env mbufs vec.toRteEventVector dstPort).value.2 :=
    SlotReads.processEventVector_value _ _ _
  rcases processEventVector_vec
    (function.packets env mbufs vec.toRteEventVector dstPort).value.1 vec.toRteEventVector
    (function.packets env mbufs vec.toRteEventVector dstPort).value.2 with ⟨elems, freed, behind⟩
  rw [← value] at elems freed behind
  rw [Serves, isValid]
  refine Served.of_filtered slots ?_ ?_ ?_ ?_ ?_
  · rw [isValid, value]
  · rw [isValid]
    exact leaves
  · intro slot outside
    apply behind slot
    unfold OffsetVector.Valid at outside
    omega
  · rw [isValid, freed]
  · rw [isValid, afterValid, elems]

/-- A vector without elements is left as it is. -/
theorem serves_empty {vec : OffsetVector} (dstPort : Nat → BitVec 16) (empty : vec.nbElem = 0)
    (inside : function.ReadsInside vec.toRteEventVector) :
    function.Serves env mbufs vec dstPort := by
  have noneBad : ∀ ports, badPackets ports 0 = [] := fun _ => rfl
  have noneKept : ∀ ports, keptPackets ports 0 = [] := fun _ => rfl
  have noElems : ∀ array : RteEventVector, array.nbElem = 0 → array.elems = [] := by
    intro array none
    rw [RteEventVector.elems, none]
    rfl
  have slots := (function.process_slots_iff env mbufs vec dstPort).mpr ⟨Or.inl empty, inside⟩
  have leaves : ∀ array : RteEventVector, array.nbElem = 0 →
      (function.process env mbufs array dstPort).value.mbufs = mbufs := by
    intro array none
    funext name
    apply process_leaves
    rw [noElems array none]
    exact List.not_mem_nil
  have value := fun array => SlotReads.processEventVector_value
    (function.packets env mbufs array dstPort).value.1 array
    (function.packets env mbufs array dstPort).value.2
  rcases processEventVector_vec
    (function.packets env mbufs vec.toRteEventVector dstPort).value.1 vec.toRteEventVector
    (function.packets env mbufs vec.toRteEventVector dstPort).value.2 with ⟨elems, freed, behind⟩
  rw [← value vec.toRteEventVector] at elems freed behind
  refine Served.of_filtered slots ?_ ?_ ?_ ?_ ?_
  · rw [leaves vec.toRteEventVector empty, ← value vec.valid]
    exact (leaves vec.valid empty).symm
  · intro name _
    rw [leaves vec.toRteEventVector empty]
  · intro slot _
    exact behind slot (by omega)
  · rw [empty, noneBad] at freed ⊢
    exact freed
  · rw [empty, noneKept] at elems ⊢
    apply noElems
    have length := congrArg List.length elems
    rwa [RteEventVector.elems, List.length_map, List.length_range] at length

/-- Exactly the valid elements are served if and only if they begin at slot 0, or there are
none, and the function reads no slot behind them. -/
theorem serves_iff (vec : OffsetVector) (dstPort : Nat → BitVec 16) :
    function.Serves env mbufs vec dstPort ↔
      (vec.nbElem = 0 ∨ vec.elemOffset = 0) ∧ function.ReadsInside vec.toRteEventVector := by
  constructor
  · intro served
    exact (function.process_slots_iff env mbufs vec dstPort).mp served.slots
  · rintro ⟨empty | atStart, inside⟩
    · exact function.serves_empty env mbufs dstPort empty inside
    · exact function.serves_atStart env mbufs dstPort atStart inside

/-- The only element is in slot 1. The functions process what slot 0 happens to hold: its
packet is freed, and the cleanup finds no element left to free. -/
theorem serves_offsetOne :
    let vec : OffsetVector := ⟨⟨1, true, 3#16, 0#16, fun slot => 7 + slot⟩, 1⟩
    let mbufs : MbufHeap := fun _ => { (default : RteMbuf) with packetType := rtePtypeL3Ipv4 }
    let tables : FibTables := ⟨fun _ _ _ => 5#64, fun _ _ _ => 5#64⟩
    let ports : Nat → BitVec 16 := fun _ => 0#16
    let result := fibProcessEventVector .generic default tables default mbufs
      vec.toRteEventVector ports
    (result.freed = [7] ∧
        (l3fwdEventVectorArrayFree (fun _ => vec.after result) [0]).freed = []) ∧
      ¬ (lpm .simd (singleRouteTables 0#32)).Serves default mbufs vec ports ∧
      ¬ (fib .generic tables default).Serves default mbufs vec ports ∧
      ¬ (em (oneInterfaceTables 5#8)).Serves default mbufs vec ports ∧
      ¬ (emSequential (oneInterfaceTables 5#8)).Serves default mbufs vec ports := by
  intro vec mbufs tables ports result
  have served : ∀ function : VectorFunction, ¬ function.Serves default mbufs vec ports := by
    intro function served
    have first := function.process_touched default mbufs vec.toRteEventVector ports Nat.one_pos
    exact absurd ((served.slots 0).mp first).1 (by decide)
  refine ⟨⟨?_, ?_⟩, served _, served _, served _, served _⟩
  · decide +kernel
  · decide +kernel

end VectorFunction

end PacketForwarding.L3fwd
