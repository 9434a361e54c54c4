import PacketForwarding.L2fwd.PortMap

/-! # Ports and lcores

The enabled ports are given to the enabled lcores in order, so many to each. `rte_exit` ends
the program and is `none`.
-/

namespace PacketForwarding.L2fwd

open CString

def maxRxQueuePerLcore : Nat := 16

/-- `l2fwd_parse_nqueue`, where 0 is an invalid number. -/
def parseNqueue (qArg : Bytes) : Nat :=
  let result := strtoul 10 qArg
  if qArg = [] ∨ result.stop ≠ [] then 0
  else if result.value = 0 then 0
  else if maxRxQueuePerLcore ≤ result.value then 0
  else result.value

/-- `l2fwd_rx_queue_per_lcore` after the arguments are parsed. -/
def parseRxQueuePerLcore : Option Bytes → Option Nat
  | none => some 1
  | some qArg => if parseNqueue qArg = 0 then none else some (parseNqueue qArg)

/-! ## The assignment -/

/-- The state of the loop. The list of an lcore has its `n_rx_port` ports, and `qconf` is
the lcore whose configuration it points to. -/
structure Assignment where
  rxLcoreId : Nat
  qconf : Option Nat
  nbLcores : Nat
  rxPortList : Nat → List Nat

section Loop

variable (lcoreEnabled : Nat → Bool) (rxQueuePerLcore : Nat)

/-- The loop that gets the lcore of a port. No lcore is looked at twice, so their number
bounds the rounds. -/
def nextLcore (rxPortList : Nat → List Nat) : Nat → Nat → Option Nat
  | 0, _ => none
  | fuel + 1, rxLcoreId =>
      if lcoreEnabled rxLcoreId = false ∨ (rxPortList rxLcoreId).length = rxQueuePerLcore then
        if rteMaxLcore ≤ rxLcoreId + 1 then none
        else nextLcore rxPortList fuel (rxLcoreId + 1)
      else some rxLcoreId

def Assignment.addPort (enabledPortMask : BitVec 32) (state : Assignment) (portid : Nat) :
    Option Assignment :=
  -- skip ports that are not enabled
  if portInMask enabledPortMask portid = false then
    some state
  else do
    let rxLcoreId ← nextLcore lcoreEnabled rxQueuePerLcore state.rxPortList rteMaxLcore state.rxLcoreId
    return {
      rxLcoreId
      qconf := some rxLcoreId
      nbLcores := if state.qconf ≠ some rxLcoreId then state.nbLcores + 1 else state.nbLcores
      rxPortList := Function.update state.rxPortList rxLcoreId
        (state.rxPortList rxLcoreId ++ [portid]) }

def assignLcores (nbPorts : Nat) (enabledPortMask : BitVec 32) : Option Assignment :=
  (rteEthForeachDev nbPorts).foldlM (Assignment.addPort lcoreEnabled rxQueuePerLcore enabledPortMask)
    ⟨0, none, 0, fun _ => []⟩

end Loop

/-! ## What is assigned -/

theorem parseRxQueuePerLcore_bounds {qArg : Option Bytes} {rxQueuePerLcore : Nat}
    (parsed : parseRxQueuePerLcore qArg = some rxQueuePerLcore) :
    0 < rxQueuePerLcore ∧ rxQueuePerLcore < maxRxQueuePerLcore := by
  cases qArg with
  | none =>
      cases parsed
      decide
  | some qArg =>
      rw [parseRxQueuePerLcore] at parsed
      split at parsed
      · cases parsed
      · rename_i notZero
        rw [← Option.some.inj parsed]
        refine ⟨Nat.pos_of_ne_zero notZero, ?_⟩
        rw [parseNqueue]
        split
        · decide
        · split
          · decide
          · split
            · decide
            · rename_i small
              exact Nat.lt_of_not_le small

section Lcores

variable {lcoreEnabled : Nat → Bool} {rxQueuePerLcore : Nat}

/-- The lcore that is found is enabled and has room. -/
theorem nextLcore_some {rxPortList : Nat → List Nat} :
    ∀ {fuel start found : Nat}, start < rteMaxLcore →
      nextLcore lcoreEnabled rxQueuePerLcore rxPortList fuel start = some found →
      start ≤ found ∧ found < rteMaxLcore ∧ lcoreEnabled found = true ∧
        (rxPortList found).length ≠ rxQueuePerLcore := by
  intro fuel
  induction fuel with
  | zero =>
      intro start found _ impossible
      cases impossible
  | succ fuel induction =>
      intro start found inside next
      rw [nextLcore] at next
      split at next
      · split at next
        · cases next
        · rename_i more
          rcases induction (Nat.lt_of_not_le more) next with ⟨later, rest⟩
          exact ⟨Nat.le_of_succ_le later, rest⟩
      · rename_i usable
        rcases not_or.mp usable with ⟨isEnabled, room⟩
        cases next
        exact ⟨Nat.le_refl _, inside, Bool.of_not_eq_false isEnabled, room⟩

/-- What is assigned after some enabled ports. -/
structure Assignment.Holds (lcoreEnabled : Nat → Bool) (rxQueuePerLcore : Nat) (seen : List Nat)
    (state : Assignment) : Prop where
  assigned : ∀ port, port ∈ seen ↔ ∃ lcore, port ∈ state.rxPortList lcore
  unique : ∀ port lcore lcore', port ∈ state.rxPortList lcore → port ∈ state.rxPortList lcore' →
    lcore = lcore'
  nodup : ∀ lcore, (state.rxPortList lcore).Nodup
  usable : ∀ lcore, state.rxPortList lcore ≠ [] → lcoreEnabled lcore = true ∧ lcore < rteMaxLcore
  limit : ∀ lcore, (state.rxPortList lcore).length ≤ rxQueuePerLcore
  ahead : ∀ lcore, state.rxLcoreId < lcore → state.rxPortList lcore = []
  inside : state.rxLcoreId < rteMaxLcore
  qconf : state.qconf = if state.rxPortList state.rxLcoreId = [] then none else some state.rxLcoreId
  nbLcores : state.nbLcores =
    ((Finset.range rteMaxLcore).filter fun lcore => state.rxPortList lcore ≠ []).card

namespace Assignment

theorem holds_nil : Holds lcoreEnabled rxQueuePerLcore [] ⟨0, none, 0, fun _ => []⟩ where
  assigned := by simp
  unique := fun _ _ _ impossible => absurd impossible List.not_mem_nil
  nodup := fun _ => List.nodup_nil
  usable := fun _ nonempty => absurd rfl nonempty
  limit := fun _ => Nat.zero_le _
  ahead := fun _ _ => rfl
  inside := by decide
  qconf := rfl
  nbLcores := by simp

/-- A lcore that gets its first port is one more. -/
theorem card_update {rxPortList : Nat → List Nat} {lcore : Nat} (inside : lcore < rteMaxLcore)
    (port : Nat) :
    ((Finset.range rteMaxLcore).filter fun other =>
        Function.update rxPortList lcore (rxPortList lcore ++ [port]) other ≠ []).card =
      ((Finset.range rteMaxLcore).filter fun other => rxPortList other ≠ []).card +
        if rxPortList lcore = [] then 1 else 0 := by
  have inserted : ((Finset.range rteMaxLcore).filter fun other =>
        Function.update rxPortList lcore (rxPortList lcore ++ [port]) other ≠ []) =
      insert lcore ((Finset.range rteMaxLcore).filter fun other => rxPortList other ≠ []) := by
    ext other
    by_cases same : other = lcore
    · rw [same]
      simp [inside]
    · simp [same]
  rw [inserted]
  split
  · rename_i empty
    exact Finset.card_insert_of_notMem (by simp [empty])
  · rename_i nonempty
    rw [Finset.insert_eq_of_mem (by simp [inside, nonempty]), Nat.add_zero]

theorem mem_update {rxPortList : Nat → List Nat} {lcore port item other : Nat} :
    item ∈ Function.update rxPortList lcore (rxPortList lcore ++ [port]) other ↔
      item ∈ rxPortList other ∨ (item = port ∧ other = lcore) := by
  by_cases same : other = lcore
  · rw [same, Function.update_self, List.mem_append, List.mem_singleton]
    simp
  · rw [Function.update_of_ne same]
    simp [same]

section Steps

variable {mask : BitVec 32} {seen : List Nat} {state : Assignment}
  (holds : state.Holds lcoreEnabled rxQueuePerLcore seen)

include holds

/-- The configuration that is kept shows whether an lcore gets its first port. -/
theorem Holds.qconf_iff {lcore : Nat} (later : state.rxLcoreId ≤ lcore) :
    state.qconf ≠ some lcore ↔ state.rxPortList lcore = [] := by
  rw [holds.qconf]
  rcases Nat.eq_or_lt_of_le later with same | ahead
  · rw [same]
    split
    · rename_i empty
      simp [empty]
    · rename_i nonempty
      simp [nonempty]
  · have different := Nat.ne_of_lt ahead
    refine iff_of_true ?_ (holds.ahead lcore ahead)
    split
    · exact nofun
    · simpa using different

section Fresh

variable {port : Nat} (free : ∀ other, port ∉ state.rxPortList other) (lcore : Nat)

include free

theorem Holds.unique_update {item one other : Nat}
    (inOne : item ∈ Function.update state.rxPortList lcore (state.rxPortList lcore ++ [port]) one)
    (inOther : item ∈
      Function.update state.rxPortList lcore (state.rxPortList lcore ++ [port]) other) :
    one = other := by
  rcases mem_update.mp inOne with old | ⟨isPort, isLcore⟩
  · rcases mem_update.mp inOther with alsoOld | ⟨isPort, _⟩
    · exact holds.unique item one other old alsoOld
    · exact absurd (isPort ▸ old) (free one)
  · rcases mem_update.mp inOther with old | ⟨_, alsoLcore⟩
    · exact absurd (isPort ▸ old) (free other)
    · exact isLcore.trans alsoLcore.symm

theorem Holds.nodup_update (other : Nat) :
    (Function.update state.rxPortList lcore (state.rxPortList lcore ++ [port]) other).Nodup := by
  by_cases same : other = lcore
  · rw [same, Function.update_self]
    refine List.nodup_append.mpr ⟨holds.nodup lcore, List.nodup_singleton _, ?_⟩
    intro item inList single isSingle equal
    rw [List.mem_singleton] at isSingle
    rw [equal, isSingle] at inList
    exact free lcore inList
  · rw [Function.update_of_ne same]
    exact holds.nodup other

end Fresh

/-- An enabled port is given to the lcore that is found. -/
theorem Holds.addPort_enabled {port : Nat} (enabled : portInMask mask port = true)
    (fresh : port ∉ seen) {next : Assignment}
    (added : state.addPort lcoreEnabled rxQueuePerLcore mask port = some next) :
    next.Holds lcoreEnabled rxQueuePerLcore (seen ++ [port]) := by
  rw [addPort, if_neg (by simp [enabled])] at added
  rcases Option.bind_eq_some_iff.mp added with ⟨lcore, found, same⟩
  cases same
  rcases nextLcore_some holds.inside found with ⟨later, inside, usable, room⟩
  have free : ∀ other, port ∉ state.rxPortList other := fun other member =>
    fresh ((holds.assigned port).mpr ⟨other, member⟩)
  constructor
  · intro item
    simp only [List.mem_append, List.mem_singleton, holds.assigned item, mem_update, exists_or,
      exists_and_left, exists_eq, and_true]
  · exact fun _ _ _ inOne inOther => holds.unique_update free lcore inOne inOther
  · exact holds.nodup_update free lcore
  · intro other nonempty
    by_cases same : other = lcore
    · rw [same]
      exact ⟨usable, inside⟩
    · dsimp only at nonempty
      rw [Function.update_of_ne same] at nonempty
      exact holds.usable other nonempty
  · intro other
    by_cases same : other = lcore
    · have limit := holds.limit lcore
      rw [same]
      dsimp only
      rw [Function.update_self, List.length_append, List.length_singleton]
      omega
    · dsimp only
      rw [Function.update_of_ne same]
      exact holds.limit other
  · intro other ahead
    dsimp only at ahead ⊢
    rw [Function.update_of_ne (Nat.ne_of_gt ahead)]
    exact holds.ahead other (later.trans_lt ahead)
  · exact inside
  · refine (if_neg ?_).symm
    dsimp only
    rw [Function.update_self]
    exact List.append_ne_nil_of_right_ne_nil _ (List.cons_ne_nil _ _)
  · dsimp only
    rw [card_update inside, ← holds.nbLcores]
    simp only [holds.qconf_iff later]
    split
    · rfl
    · rfl

theorem Holds.run : ∀ (ports : List Nat) (last : Assignment),
    (seen ++ ports.filter (portInMask mask)).Nodup →
    ports.foldlM (Assignment.addPort lcoreEnabled rxQueuePerLcore mask) state = some last →
    last.Holds lcoreEnabled rxQueuePerLcore (seen ++ ports.filter (portInMask mask)) := by
  intro ports
  induction ports generalizing seen state with
  | nil =>
      intro last _ ran
      cases ran
      rw [List.filter_nil, List.append_nil]
      exact holds
  | cons port ports induction =>
      intro last nodup ran
      rw [List.foldlM_cons] at ran
      rcases Option.bind_eq_some_iff.mp ran with ⟨next, added, ran⟩
      cases enabled : portInMask mask port with
      | false =>
          rw [addPort, if_pos enabled] at added
          cases added
          rw [List.filter_cons_of_neg (by simp [enabled])] at nodup ⊢
          exact induction holds last nodup ran
      | true =>
          rw [List.filter_cons_of_pos enabled] at nodup ⊢
          have fresh : port ∉ seen := fun member =>
            (List.nodup_append.mp nodup).2.2 port member port List.mem_cons_self rfl
          have shift : seen ++ port :: ports.filter (portInMask mask) =
              seen ++ [port] ++ ports.filter (portInMask mask) := by simp
          rw [shift] at nodup ⊢
          exact induction (holds.addPort_enabled enabled fresh added) last nodup ran

end Steps

end Assignment

/-- The loop assigns every enabled port to one lcore. -/
theorem assignLcores_holds {nbPorts : Nat} {mask : BitVec 32} {assignment : Assignment}
    (assigned : assignLcores lcoreEnabled rxQueuePerLcore nbPorts mask = some assignment) :
    assignment.Holds lcoreEnabled rxQueuePerLcore (enabledPorts nbPorts mask) :=
  Assignment.holds_nil.run (rteEthForeachDev nbPorts) assignment (nodup_enabledPorts nbPorts mask)
    assigned

end Lcores

end PacketForwarding.L2fwd
