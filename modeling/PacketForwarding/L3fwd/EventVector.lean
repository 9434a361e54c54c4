import PacketForwarding.L3fwd.EmEvents

/-! # Event vectors

A vector carries many packets in one event. After their processing, the packets with a
bad port are filtered out of it, and if the others have one port in common, it is the
port of the vector.
-/

namespace PacketForwarding.L3fwd

open Lanes Cells

/-- The part of a vector that the functions read or write. -/
structure RteEventVector where
  nbElem : Nat
  attrValid : Bool
  port : BitVec 16
  queue : BitVec 16
  mbufs : Nat → MbufPtr
  deriving Inhabited

/-! ## One port in common -/

/-- `dst_ports[i], ..., dst_ports[i + 7]` are equal to `dst_ports[0]`. -/
def eightPortsEqual (dstPorts : Nat → BitVec 16) (i : Nat) : Prop :=
  movemaskEpi8 (cmpeqEpi16 (loadLanes16 dstPorts i) (set1Epi16 (dstPorts 0))) = 0xffff#16

/-- `dst_ports[i], ..., dst_ports[i + 3]` are equal to `dst_ports[0]`. -/
def fourPortsEqual (dstPorts : Nat → BitVec 16) (i : Nat) : Prop :=
  let dp1 := cmpeqEpi16 (loadLanes16 dstPorts i) (set1Epi16 (dstPorts 0))
  movemaskPs (unpackloEpi16 dp1 dp1) = 0xf#4

def onePortEqual (dstPorts : Nat → BitVec 16) (i : Nat) : Prop :=
  dstPorts i = dstPorts 0

instance (dstPorts : Nat → BitVec 16) : DecidablePred (eightPortsEqual dstPorts) :=
  fun _ => inferInstanceAs (Decidable (_ = _))

instance (dstPorts : Nat → BitVec 16) : DecidablePred (fourPortsEqual dstPorts) :=
  fun _ => inferInstanceAs (Decidable (_ = _))

instance (dstPorts : Nat → BitVec 16) : DecidablePred (onePortEqual dstPorts) :=
  fun _ => inferInstanceAs (Decidable (_ = _))

/-- Eight at a time, then four, then one by one. The first difference ends the search. -/
def processDstPort (dstPorts : Nat → BitVec 16) (nbElem : Nat) : BitVec 16 :=
  let eights := nbElem / 8
  let fours := nbElem % 8 / 4
  if ¬ ∀ k ∈ List.range eights, eightPortsEqual dstPorts (8 * k) then
    badPort
  else if ¬ ∀ k ∈ List.range fours, fourPortsEqual dstPorts (8 * eights + 4 * k) then
    badPort
  else if ¬ ∀ k ∈ List.range (nbElem % 4), onePortEqual dstPorts (8 * eights + 4 * fours + k) then
    badPort
  else
    dstPorts 0

/-! ## Filtering -/

/-- What `filter_bad_packets` has done so far. -/
structure BadFilter where
  mbufs : Nat → MbufPtr
  dstPort : Nat → BitVec 16
  pos : Nat
  desPos : Nat
  free : Nat
  freed : List MbufPtr

namespace BadFilter

def step (filter : BadFilter) (i : Nat) : BadFilter :=
  if filter.dstPort i = badPort then
    { filter with
      freed := filter.freed ++ [filter.mbufs i]
      pos := if filter.free = 0 then i else filter.pos
      desPos := if filter.free = 0 then i else filter.desPos
      free := filter.free + 1 }
  else if filter.free ≠ 0 then
    { filter with
      mbufs := Function.update filter.mbufs filter.pos (filter.mbufs i)
      pos := filter.pos + 1
      dstPort := Function.update filter.dstPort filter.desPos (filter.dstPort i)
      desPos := filter.desPos + 1 }
  else
    filter

end BadFilter

/-- Filter out and free bad packets. -/
def filterBadPackets (mbufs : Nat → MbufPtr) (dstPort : Nat → BitVec 16) (nbPkts : Nat) :
    BadFilter :=
  (List.range nbPkts).foldl BadFilter.step ⟨mbufs, dstPort, 0, 0, 0, []⟩

/-- The packets, the vector, and the mbufs given back. -/
structure VectorState where
  mbufs : MbufHeap
  vec : RteEventVector
  freed : List MbufPtr

def processEventVector (mbufs : MbufHeap) (vec : RteEventVector) (dstPort : Nat → BitVec 16) :
    VectorState :=
  let filter := filterBadPackets vec.mbufs dstPort vec.nbElem
  let vec := { vec with nbElem := vec.nbElem - filter.free, mbufs := filter.mbufs }
  -- verify destination array
  let port := processDstPort filter.dstPort vec.nbElem
  if port = badPort then
    { mbufs := (visit vec.mbufs
        (fun pkt dstPort => ({ pkt with port := dstPort, txq := 0 }, dstPort))
        vec.nbElem 0 (mbufs, filter.dstPort)).1
      vec := { vec with attrValid := false }
      freed := filter.freed }
  else
    { mbufs := mbufs
      vec := { vec with attrValid := true, port := port, queue := 0 }
      freed := filter.freed }

/-! ## What the search for a common port finds -/

theorem eightPortsEqual_iff (dstPorts : Nat → BitVec 16) (i : Nat) :
    eightPortsEqual dstPorts i ↔ ∀ k, k < 8 → dstPorts (i + k) = dstPorts 0 := by
  have bits := fun k inside => getLsbD_movemaskEpi8_cmpeq (loadLanes16 dstPorts i)
    (set1Epi16 (dstPorts 0)) k inside
  have same : ∀ k, k < 16 → lane 16 (loadLanes16 dstPorts i) (k / 2) = dstPorts (i + k / 2) ∧
      lane 16 (set1Epi16 (dstPorts 0)) (k / 2) = dstPorts 0 := by
    intro k inside
    have half : k / 2 < 8 := by omega
    exact ⟨lane_loadLanes16 dstPorts i _ half, lane_ofLanes 16 8 _ _ half⟩
  unfold eightPortsEqual
  constructor
  · intro all k inside
    have twice : 2 * k < 16 := by omega
    have bit := bits (2 * k) twice
    rw [all, (same _ twice).1, (same _ twice).2, Nat.mul_div_cancel_left k (by decide)] at bit
    have isSet : (0xffff#16 : BitVec 16).getLsbD (2 * k) = true := by
      have allSet : ∀ index : Fin 16, (0xffff#16 : BitVec 16).getLsbD index = true := by decide
      exact allSet ⟨2 * k, twice⟩
    rw [isSet] at bit
    exact of_decide_eq_true bit.symm
  · intro all
    apply BitVec.eq_of_getLsbD_eq
    intro k inside
    have allSet : ∀ index : Fin 16, (0xffff#16 : BitVec 16).getLsbD index = true := by decide
    rw [bits k inside, (same k inside).1, (same k inside).2, all (k / 2) (by omega),
      allSet ⟨k, inside⟩]
    exact decide_eq_true rfl

theorem fourPortsEqual_iff (dstPorts : Nat → BitVec 16) (i : Nat) :
    fourPortsEqual dstPorts i ↔ ∀ k, k < 4 → dstPorts (i + k) = dstPorts 0 := by
  have bits := fun k inside => getLsbD_movemask_cmpeq (loadLanes16 dstPorts i)
    (set1Epi16 (dstPorts 0)) k inside
  have same : ∀ k, k < 4 → lane 16 (loadLanes16 dstPorts i) k = dstPorts (i + k) ∧
      lane 16 (set1Epi16 (dstPorts 0)) k = dstPorts 0 := by
    intro k inside
    have below : k < 8 := by omega
    exact ⟨lane_loadLanes16 dstPorts i _ below, lane_ofLanes 16 8 _ _ below⟩
  have allSet : ∀ index : Fin 4, (0xf#4 : BitVec 4).getLsbD index = true := by decide
  unfold fourPortsEqual
  constructor
  · intro all k inside
    have bit := bits k inside
    rw [all, (same _ inside).1, (same _ inside).2, allSet ⟨k, inside⟩] at bit
    exact of_decide_eq_true bit.symm
  · intro all
    apply BitVec.eq_of_getLsbD_eq
    intro k inside
    rw [bits k inside, (same k inside).1, (same k inside).2, all k inside, allSet ⟨k, inside⟩]
    exact decide_eq_true rfl

/-- The search finds the port that all have in common. -/
theorem processDstPort_eq (dstPorts : Nat → BitVec 16) (nbElem : Nat) :
    processDstPort dstPorts nbElem =
      if ∀ i ∈ List.range nbElem, onePortEqual dstPorts i then dstPorts 0 else badPort := by
  have covers : (∀ i ∈ List.range nbElem, onePortEqual dstPorts i) ↔
      (∀ k ∈ List.range (nbElem / 8), eightPortsEqual dstPorts (8 * k)) ∧
      (∀ k ∈ List.range (nbElem % 8 / 4),
        fourPortsEqual dstPorts (8 * (nbElem / 8) + 4 * k)) ∧
      ∀ k ∈ List.range (nbElem % 4),
        onePortEqual dstPorts (8 * (nbElem / 8) + 4 * (nbElem % 8 / 4) + k) := by
    simp only [List.mem_range, eightPortsEqual_iff, fourPortsEqual_iff, onePortEqual]
    constructor
    · intro all
      exact ⟨fun k inside i below => all _ (by omega), fun k inside i below => all _ (by omega),
        fun k inside => all _ (by omega)⟩
    · rintro ⟨eights, fours, ones⟩ i inside
      rcases Nat.lt_or_ge i (8 * (nbElem / 8)) with inEights | behindEights
      · have equal := eights (i / 8) (by omega) (i % 8) (by omega)
        rwa [Nat.div_add_mod] at equal
      · rcases Nat.lt_or_ge i (8 * (nbElem / 8) + 4 * (nbElem % 8 / 4)) with inFours | behindFours
        · have equal := fours 0 (by omega) (i - 8 * (nbElem / 8)) (by omega)
          rwa [Nat.mul_zero, Nat.add_zero, Nat.add_sub_of_le behindEights] at equal
        · have equal := ones (i - (8 * (nbElem / 8) + 4 * (nbElem % 8 / 4))) (by omega)
          rwa [Nat.add_sub_of_le behindFours] at equal
  unfold processDstPort
  dsimp only
  by_cases all : ∀ i ∈ List.range nbElem, onePortEqual dstPorts i
  · rcases covers.mp all with ⟨eights, fours, ones⟩
    rw [if_pos all, if_neg (not_not_intro eights), if_neg (not_not_intro fours),
      if_neg (not_not_intro ones)]
  · rw [if_neg all]
    split
    · rfl
    · split
      · rfl
      · split
        · rfl
        · rename_i eights fours ones
          exact absurd (covers.mpr ⟨not_not.mp eights, not_not.mp fours, not_not.mp ones⟩) all

/-! ## What the filter keeps -/

/-- The positions with a port, in order. -/
def keptPackets (dstPort : Nat → BitVec 16) (nbPkts : Nat) : List Nat :=
  (List.range nbPkts).filter fun i => dstPort i ≠ badPort

/-- The positions with a bad port, in order. -/
def badPackets (dstPort : Nat → BitVec 16) (nbPkts : Nat) : List Nat :=
  (List.range nbPkts).filter fun i => dstPort i = badPort

theorem keptPackets_succ_of_kept {dstPort : Nat → BitVec 16} {count : Nat}
    (kept : dstPort count ≠ badPort) :
    keptPackets dstPort (count + 1) = keptPackets dstPort count ++ [count] := by
  simp [keptPackets, List.range_succ, List.filter_append, kept]

theorem keptPackets_succ_of_bad {dstPort : Nat → BitVec 16} {count : Nat}
    (bad : dstPort count = badPort) :
    keptPackets dstPort (count + 1) = keptPackets dstPort count := by
  simp [keptPackets, List.range_succ, List.filter_append, bad]

theorem badPackets_succ_of_kept {dstPort : Nat → BitVec 16} {count : Nat}
    (kept : dstPort count ≠ badPort) :
    badPackets dstPort (count + 1) = badPackets dstPort count := by
  simp [badPackets, List.range_succ, List.filter_append, kept]

theorem badPackets_succ_of_bad {dstPort : Nat → BitVec 16} {count : Nat}
    (bad : dstPort count = badPort) :
    badPackets dstPort (count + 1) = badPackets dstPort count ++ [count] := by
  simp [badPackets, List.range_succ, List.filter_append, bad]

/-- The first `length` entries of an array are `entries`, with one more behind them. -/
theorem map_range_snoc {α : Type} {array : Nat → α} {entries : List α} {length : Nat} {last : α}
    (before : (List.range length).map array = entries) :
    (List.range (length + 1)).map (Function.update array length last) = entries ++ [last] := by
  have untouched : (List.range length).map (Function.update array length last) =
      (List.range length).map array := by
    apply List.map_congr_left
    intro i member
    exact Function.update_of_ne (Nat.ne_of_lt (List.mem_range.mp member)) _ _
  rw [List.range_succ, List.map_append, untouched, before, List.map_cons, List.map_nil,
    Function.update_self]

/-- The first `count` packets have been filtered. As long as none was bad, the arrays are
as they were. -/
structure Filtered (mbufs : Nat → MbufPtr) (dstPort : Nat → BitVec 16) (count : Nat)
    (filter : BadFilter) : Prop where
  kept : (List.range (keptPackets dstPort count).length).map filter.mbufs =
    (keptPackets dstPort count).map mbufs
  ports : (List.range (keptPackets dstPort count).length).map filter.dstPort =
    (keptPackets dstPort count).map dstPort
  behind : ∀ i, count ≤ i → filter.mbufs i = mbufs i ∧ filter.dstPort i = dstPort i
  free : filter.free + (keptPackets dstPort count).length = count
  place : filter.free ≠ 0 → filter.pos = (keptPackets dstPort count).length ∧
    filter.desPos = (keptPackets dstPort count).length
  freed : filter.freed = (badPackets dstPort count).map mbufs

namespace Filtered

variable {mbufs : Nat → MbufPtr} {dstPort : Nat → BitVec 16} {count : Nat} {filter : BadFilter}

/-- A bad packet is given back. The first one marks the place for the next good one. -/
theorem step_bad (filtered : Filtered mbufs dstPort count filter)
    (bad : dstPort count = badPort) : Filtered mbufs dstPort (count + 1) (filter.step count) := by
  rcases filtered.behind count (Nat.le_refl count) with ⟨isMbuf, isPort⟩
  have free := filtered.free
  have same := keptPackets_succ_of_bad bad
  rw [BadFilter.step, isPort, isMbuf, if_pos bad]
  constructor
  · rw [same]
    exact filtered.kept
  · rw [same]
    exact filtered.ports
  · exact fun i after => filtered.behind i (by omega)
  · simp only [same]
    omega
  · intro _
    simp only [same]
    by_cases first : filter.free = 0
    · simp only [first, if_true]
      omega
    · simp only [first, if_false]
      exact filtered.place first
  · simp only [filtered.freed, badPackets_succ_of_bad bad, List.map_append, List.map_cons,
      List.map_nil]

/-- In front of the first bad packet nothing moves. -/
theorem step_still (filtered : Filtered mbufs dstPort count filter)
    (good : dstPort count ≠ badPort) (first : filter.free = 0) :
    Filtered mbufs dstPort (count + 1) (filter.step count) := by
  rcases filtered.behind count (Nat.le_refl count) with ⟨isMbuf, isPort⟩
  have free := filtered.free
  have oneMore := keptPackets_succ_of_kept good
  have place : (keptPackets dstPort count).length = count := by omega
  have kept := filtered.kept
  have ports := filtered.ports
  rw [place] at kept ports
  rw [BadFilter.step, isPort, if_neg good, if_neg (not_not_intro first)]
  constructor
  · rw [oneMore, List.length_append, List.length_singleton, place, List.range_succ,
      List.map_append, List.map_append, kept]
    simp [isMbuf]
  · rw [oneMore, List.length_append, List.length_singleton, place, List.range_succ,
      List.map_append, List.map_append, ports]
    simp [isPort]
  · exact fun i after => filtered.behind i (by omega)
  · rw [oneMore, List.length_append, List.length_singleton]
    omega
  · exact fun some => absurd first some
  · rw [badPackets_succ_of_kept good]
    exact filtered.freed

/-- Behind a bad packet, a good one is moved to the place. -/
theorem step_moved (filtered : Filtered mbufs dstPort count filter)
    (good : dstPort count ≠ badPort) (some : filter.free ≠ 0) :
    Filtered mbufs dstPort (count + 1) (filter.step count) := by
  rcases filtered.behind count (Nat.le_refl count) with ⟨isMbuf, isPort⟩
  rcases filtered.place some with ⟨isPos, isDesPos⟩
  have free := filtered.free
  have oneMore := keptPackets_succ_of_kept good
  have early : (keptPackets dstPort count).length < count := by omega
  rw [BadFilter.step, isPort, isMbuf, if_neg good, if_pos some]
  constructor
  · simp only [oneMore, List.length_append, List.length_singleton, isPos, List.map_append,
      List.map_cons, List.map_nil]
    exact map_range_snoc filtered.kept
  · simp only [oneMore, List.length_append, List.length_singleton, isDesPos, List.map_append,
      List.map_cons, List.map_nil]
    exact map_range_snoc filtered.ports
  · intro i after
    have other : i ≠ (keptPackets dstPort count).length := by omega
    simp only [isPos, isDesPos, Function.update_of_ne other]
    exact filtered.behind i (by omega)
  · simp only [oneMore, List.length_append, List.length_singleton]
    omega
  · intro _
    simp only [oneMore, List.length_append, List.length_singleton, isPos, isDesPos]
    exact ⟨trivial, trivial⟩
  · rw [badPackets_succ_of_kept good]
    exact filtered.freed

theorem step (filtered : Filtered mbufs dstPort count filter) :
    Filtered mbufs dstPort (count + 1) (filter.step count) := by
  by_cases bad : dstPort count = badPort
  · exact filtered.step_bad bad
  · by_cases first : filter.free = 0
    · exact filtered.step_still bad first
    · exact filtered.step_moved bad first

end Filtered

theorem filterBadPackets_spec (mbufs : Nat → MbufPtr) (dstPort : Nat → BitVec 16)
    (nbPkts : Nat) :
    Filtered mbufs dstPort nbPkts (filterBadPackets mbufs dstPort nbPkts) := by
  induction nbPkts with
  | zero => exact ⟨rfl, rfl, fun _ _ => ⟨rfl, rfl⟩, rfl, fun some => absurd rfl some, rfl⟩
  | succ count induction =>
      unfold filterBadPackets
      rw [List.range_succ, List.foldl_append, List.foldl_cons, List.foldl_nil]
      exact induction.step

/-! ## What is left in the vector -/

/-- The port on which a packet of the vector is sent. -/
def RteEventVector.outPort (vec : RteEventVector) (mbufs : MbufHeap) (mbuf : MbufPtr) :
    BitVec 16 :=
  if vec.attrValid then vec.port else (mbufs mbuf).port

/-- The mbufs of a vector, in order. -/
def RteEventVector.elems (vec : RteEventVector) : List MbufPtr :=
  (List.range vec.nbElem).map vec.mbufs

/-- The packets with a port are left in the vector, in order, and are sent on it. The
others are freed. -/
structure VectorKeeps (mbufs : MbufHeap) (vec : RteEventVector) (dstPort : Nat → BitVec 16)
    (result : VectorState) : Prop where
  elems : result.vec.elems = (keptPackets dstPort vec.nbElem).map vec.mbufs
  freed : result.freed = (badPackets dstPort vec.nbElem).map vec.mbufs
  outPort : ∀ i ∈ keptPackets dstPort vec.nbElem,
    result.vec.outPort result.mbufs (vec.mbufs i) = dstPort i
  data : ∀ name, (result.mbufs name).data = (mbufs name).data

/-- Equal lists have equal entries. -/
theorem eq_of_map_range {α : Type} {array : Nat → α} {indices : List Nat} {source : Nat → α}
    (same : (List.range indices.length).map array = indices.map source) {k : Nat}
    (inside : k < indices.length) : array k = source indices[k] := by
  have entries := congrArg (fun list => list[k]?) same
  simpa [inside] using entries

theorem nodup_keptPackets (dstPort : Nat → BitVec 16) (nbPkts : Nat) :
    (keptPackets dstPort nbPkts).Nodup :=
  List.nodup_range.filter _

theorem mem_keptPackets {dstPort : Nat → BitVec 16} {nbPkts i : Nat} :
    i ∈ keptPackets dstPort nbPkts ↔ i < nbPkts ∧ dstPort i ≠ badPort := by
  simp [keptPackets]

/-- What is left is what the filter has not freed. -/
theorem filterBadPackets_left (mbufs : Nat → MbufPtr) (dstPort : Nat → BitVec 16)
    (nbPkts : Nat) :
    nbPkts - (filterBadPackets mbufs dstPort nbPkts).free =
      (keptPackets dstPort nbPkts).length := by
  have free := (filterBadPackets_spec mbufs dstPort nbPkts).free
  omega

/-- What the filter leaves of a vector, whether or not its mbufs are different. -/
theorem processEventVector_vec (mbufs : MbufHeap) (vec : RteEventVector)
    (dstPort : Nat → BitVec 16) :
    let result := processEventVector mbufs vec dstPort
    result.vec.elems = (keptPackets dstPort vec.nbElem).map vec.mbufs ∧
      result.freed = (badPackets dstPort vec.nbElem).map vec.mbufs ∧
      ∀ slot, vec.nbElem ≤ slot → result.vec.mbufs slot = vec.mbufs slot := by
  have filtered := filterBadPackets_spec vec.mbufs dstPort vec.nbElem
  have kept := filtered.kept
  rw [← filterBadPackets_left vec.mbufs] at kept
  unfold processEventVector
  dsimp only
  split
  · exact ⟨kept, filtered.freed, fun slot behind => (filtered.behind slot behind).1⟩
  · exact ⟨kept, filtered.freed, fun slot behind => (filtered.behind slot behind).1⟩

theorem processEventVector_spec (mbufs : MbufHeap) (vec : RteEventVector)
    (dstPort : Nat → BitVec 16) (distinct : Distinct vec.mbufs 0 vec.nbElem) :
    VectorKeeps mbufs vec dstPort (processEventVector mbufs vec dstPort) := by
  let kept := keptPackets dstPort vec.nbElem
  let filter := filterBadPackets vec.mbufs dstPort vec.nbElem
  have filtered : Filtered vec.mbufs dstPort vec.nbElem filter :=
    filterBadPackets_spec vec.mbufs dstPort vec.nbElem
  have left : vec.nbElem - filter.free = kept.length :=
    filterBadPackets_left vec.mbufs dstPort vec.nbElem
  have isMbuf : ∀ k (inside : k < kept.length), filter.mbufs k = vec.mbufs kept[k] :=
    fun k inside => eq_of_map_range filtered.kept inside
  have isPort : ∀ k (inside : k < kept.length), filter.dstPort k = dstPort kept[k] :=
    fun k inside => eq_of_map_range filtered.ports inside
  have stillDistinct : Distinct filter.mbufs 0 kept.length := by
    intro one other _ oneInside _ otherInside same
    rw [Nat.zero_add] at oneInside otherInside
    rw [isMbuf one oneInside, isMbuf other otherInside] at same
    have oneKept := (mem_keptPackets.mp (List.getElem_mem oneInside)).1
    have otherKept := (mem_keptPackets.mp (List.getElem_mem otherInside)).1
    have equal := distinct _ _ (Nat.zero_le _) (by omega) (Nat.zero_le _) (by omega) same
    exact (List.Nodup.getElem_inj_iff (nodup_keptPackets dstPort vec.nbElem)).mp equal
  rcases processEventVector_vec mbufs vec dstPort with ⟨elems, freed, -⟩
  refine ⟨elems, freed, ?_, ?_⟩
  · intro i member
    rcases List.getElem_of_mem member with ⟨k, inside, rfl⟩
    unfold processEventVector
    dsimp only
    change RteEventVector.outPort (if processDstPort filter.dstPort
      (vec.nbElem - filter.free) = badPort then _ else _ : VectorState).vec _ _ = _
    rw [left]
    split
    · have inRange : k < 0 + kept.length := by rwa [Nat.zero_add]
      change (((visit filter.mbufs _ kept.length 0 (mbufs, filter.dstPort)).1 _).port) = _
      rw [← isMbuf k inside,
        (visit_inside filter.mbufs _ kept.length 0 _ stillDistinct k (Nat.zero_le k) inRange).1]
      exact isPort k inside
    · rename_i common
      rw [processDstPort_eq] at common ⊢
      by_cases all : ∀ i ∈ List.range kept.length, onePortEqual filter.dstPort i
      · have atFirst := all k (List.mem_range.mpr inside)
        rw [onePortEqual, isPort k inside] at atFirst
        simp only [RteEventVector.outPort, if_true]
        exact (if_pos all).trans atFirst.symm
      · rw [if_neg all] at common
        exact absurd rfl common
  · intro name
    unfold processEventVector
    dsimp only
    split
    · have keeps := @visit_keeps MbufPtr RteMbuf (BitVec 16) _ filter.mbufs
        (fun pkt dstPort => ({ pkt with port := dstPort, txq := 0 }, dstPort))
        (fun before after => after.data = before.data) (fun _ => rfl)
        (fun _ _ _ first second => second.trans first) (vec.nbElem - filter.free) 0
        (mbufs, filter.dstPort) (fun _ _ _ _ _ => rfl)
      exact keeps.1 name
    · rfl

/-! ## When the vector has a port -/

/-- As long as no packet is kept, none is moved. -/
theorem filterBadPackets_unmoved (mbufs : Nat → MbufPtr) (dstPort : Nat → BitVec 16) :
    ∀ nbPkts, keptPackets dstPort nbPkts = [] →
      (filterBadPackets mbufs dstPort nbPkts).dstPort = dstPort := by
  intro nbPkts
  induction nbPkts with
  | zero =>
      intro _
      rfl
  | succ count induction =>
      intro none
      have bad : dstPort count = badPort := by
        by_contra good
        rw [keptPackets_succ_of_kept good] at none
        exact List.append_ne_nil_of_right_ne_nil _ (List.cons_ne_nil _ _) none
      rw [keptPackets_succ_of_bad bad] at none
      have unmoved := induction none
      unfold filterBadPackets at unmoved ⊢
      rw [List.range_succ, List.foldl_append, List.foldl_cons, List.foldl_nil, BadFilter.step,
        unmoved, if_pos bad]

/-- The packets that are kept have one port. -/
def OnePort (dstPort : Nat → BitVec 16) (nbPkts : Nat) : Prop :=
  ∀ i ∈ keptPackets dstPort nbPkts, ∀ j ∈ keptPackets dstPort nbPkts, dstPort i = dstPort j

/-- The search for a common port has the result of a bad port if there is none, and also if
nothing is left of the vector. -/
theorem processDstPort_ne_iff (mbufs : Nat → MbufPtr) (dstPort : Nat → BitVec 16) {nbPkts : Nat}
    (some : 1 ≤ nbPkts) :
    processDstPort (filterBadPackets mbufs dstPort nbPkts).dstPort
        (keptPackets dstPort nbPkts).length ≠ badPort ↔
      keptPackets dstPort nbPkts ≠ [] ∧ OnePort dstPort nbPkts := by
  let kept := keptPackets dstPort nbPkts
  have filtered := filterBadPackets_spec mbufs dstPort nbPkts
  have isPort : ∀ k (inside : k < kept.length),
      (filterBadPackets mbufs dstPort nbPkts).dstPort k = dstPort kept[k] :=
    fun k inside => eq_of_map_range filtered.ports inside
  change processDstPort _ kept.length ≠ badPort ↔ kept ≠ [] ∧ _
  rw [processDstPort_eq]
  rcases Nat.eq_zero_or_pos kept.length with nothing | positive
  · have isNil : kept = [] := List.length_eq_zero_iff.mp nothing
    have notKept : dstPort 0 = badPort := by
      by_contra good
      have member : 0 ∈ kept := mem_keptPackets.mpr ⟨some, good⟩
      rw [isNil] at member
      exact List.not_mem_nil member
    have vacuous : ∀ i ∈ List.range kept.length,
        onePortEqual (filterBadPackets mbufs dstPort nbPkts).dstPort i := by
      intro i member
      rw [nothing] at member
      exact absurd member List.not_mem_nil
    rw [if_pos vacuous, filterBadPackets_unmoved mbufs dstPort nbPkts isNil]
    exact iff_of_false (not_not_intro notKept) fun both => both.1 isNil
  · have notNil : kept ≠ [] := List.ne_nil_of_length_pos positive
    have first : dstPort kept[0] ≠ badPort := (mem_keptPackets.mp (List.getElem_mem positive)).2
    have common : (∀ i ∈ List.range kept.length,
        onePortEqual (filterBadPackets mbufs dstPort nbPkts).dstPort i) ↔
          OnePort dstPort nbPkts := by
      constructor
      · intro all i iKept j jKept
        rcases List.getElem_of_mem iKept with ⟨k, kInside, rfl⟩
        rcases List.getElem_of_mem jKept with ⟨l, lInside, rfl⟩
        have left := all k (List.mem_range.mpr kInside)
        have right := all l (List.mem_range.mpr lInside)
        rw [onePortEqual, isPort k kInside] at left
        rw [onePortEqual, isPort l lInside] at right
        exact left.trans right.symm
      · intro same i member
        have inside := List.mem_range.mp member
        rw [onePortEqual, isPort i inside, isPort 0 positive]
        exact same _ (List.getElem_mem inside) _ (List.getElem_mem positive)
    by_cases all : OnePort dstPort nbPkts
    · rw [if_pos (common.mpr all), isPort 0 positive]
      exact iff_of_true first ⟨notNil, all⟩
    · rw [if_neg fun each => all (common.mp each)]
      exact iff_of_false (not_not_intro rfl) fun both => all both.2

theorem processEventVector_attrValid (mbufs : MbufHeap) (vec : RteEventVector)
    (dstPort : Nat → BitVec 16) (some : 1 ≤ vec.nbElem) :
    (processEventVector mbufs vec dstPort).vec.attrValid = true ↔
      keptPackets dstPort vec.nbElem ≠ [] ∧ OnePort dstPort vec.nbElem := by
  rw [← processDstPort_ne_iff vec.mbufs dstPort some]
  unfold processEventVector
  dsimp only
  rw [filterBadPackets_left]
  split
  · rename_i none
    exact iff_of_false Bool.false_ne_true (not_not_intro none)
  · rename_i common
    exact iff_of_true rfl common

/-- The vector is left with the packets that have a port, in order, each of the others is
freed once, every packet that is left goes out on its port, and the vector has a port of its
own if and only if some packet is left and all have the same port. -/
theorem processEventVector_filters (mbufs : MbufHeap) (vec : RteEventVector)
    (dstPort : Nat → BitVec 16) (some : 1 ≤ vec.nbElem)
    (distinct : Distinct vec.mbufs 0 vec.nbElem) :
    let result := processEventVector mbufs vec dstPort
    result.vec.elems = ((List.range vec.nbElem).filter fun i => dstPort i ≠ badPort).map
        vec.mbufs ∧
      result.freed = ((List.range vec.nbElem).filter fun i => dstPort i = badPort).map
        vec.mbufs ∧
      result.freed.Nodup ∧
      (∀ i, i < vec.nbElem → dstPort i ≠ badPort →
        result.vec.outPort result.mbufs (vec.mbufs i) = dstPort i) ∧
      (result.vec.attrValid = true ↔ (∃ i, i < vec.nbElem ∧ dstPort i ≠ badPort) ∧
        ∀ i j, i < vec.nbElem → dstPort i ≠ badPort → j < vec.nbElem → dstPort j ≠ badPort →
          dstPort i = dstPort j) := by
  intro result
  have keeps := processEventVector_spec mbufs vec dstPort distinct
  have valid := processEventVector_attrValid mbufs vec dstPort some
  refine ⟨keeps.elems, keeps.freed, ?_, ?_, ?_⟩
  · rw [keeps.freed]
    refine List.Nodup.map_on ?_ (List.nodup_range.filter _)
    intro i iBad j jBad same
    have iInside := List.mem_range.mp (List.mem_filter.mp iBad).1
    have jInside := List.mem_range.mp (List.mem_filter.mp jBad).1
    exact distinct i j (Nat.zero_le _) (by omega) (Nat.zero_le _) (by omega) same
  · intro i inside good
    exact keeps.outPort i (mem_keptPackets.mpr ⟨inside, good⟩)
  · refine valid.trans (and_congr ?_ ?_)
    · constructor
      · intro notNil
        rcases List.exists_mem_of_ne_nil _ notNil with ⟨i, member⟩
        exact ⟨i, mem_keptPackets.mp member⟩
      · rintro ⟨i, member⟩
        exact List.ne_nil_of_mem (mem_keptPackets.mpr member)
    · constructor
      · intro same i j iInside iGood jInside jGood
        exact same i (mem_keptPackets.mpr ⟨iInside, iGood⟩) j (mem_keptPackets.mpr ⟨jInside, jGood⟩)
      · intro same i iKept j jKept
        rcases mem_keptPackets.mp iKept with ⟨iInside, iGood⟩
        rcases mem_keptPackets.mp jKept with ⟨jInside, jGood⟩
        exact same i j iInside iGood jInside jGood

/-- Ten packets of which the third is bad, all others to one port. -/
theorem processEventVector_filters_ten :
    let vec : RteEventVector := ⟨10, true, 9#16, 0#16, id⟩
    let dstPort := fun i => if i = 2 then badPort else 4#16
    (processEventVector default vec dstPort).vec.elems = [0, 1, 3, 4, 5, 6, 7, 8, 9] ∧
      (processEventVector default vec dstPort).freed = [2] ∧
      (processEventVector default vec dstPort).vec.attrValid = true := by
  intro vec dstPort
  have filters := processEventVector_filters default vec dstPort (by decide)
    fun _ _ _ _ _ _ same => same
  refine ⟨filters.1.trans (by decide), filters.2.1.trans (by decide), ?_⟩
  refine filters.2.2.2.2.mpr ⟨⟨0, by decide, by decide⟩, ?_⟩
  intro i j _ iGood _ jGood
  by_cases iBad : i = 2
  · exact absurd (if_pos iBad) iGood
  · by_cases jBad : j = 2
    · exact absurd (if_pos jBad) jGood
    · exact (if_neg iBad).trans (if_neg jBad).symm

end PacketForwarding.L3fwd
