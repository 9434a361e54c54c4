import PacketForwarding.Foundation.Lanes

/-! # Vector operations of ARM

Lanes are counted from the least significant end. The half registers have 64 bits.
-/

namespace PacketForwarding.Lanes

/-- `uint16x4_t`, `uint8x8_t` -/
abbrev HalfRegister := BitVec 64

/-! ## Operations -/

/-- `vceqq_u16` -/
def vceqqU16 (left right : Register) : Register :=
  ofLanes 16 8 fun index =>
    if lane 16 left index = lane 16 right index then 0xffff#16 else 0#16

/-- `vandq_u16` -/
def vandqU16 (left right : Register) : Register :=
  ofLanes 16 8 fun index => lane 16 left index &&& lane 16 right index

/-- `vaddvq_u16`: the sum of all lanes. -/
def vaddvqU16 (register : Register) : BitVec 16 :=
  ((List.range 8).map (lane 16 register)).sum

/-- `vextq_u16`: the lanes of the first register from `n` on, then those of the second. -/
def vextqU16 (left right : Register) (n : Nat) : Register :=
  ofLanes 16 8 fun index =>
    if index + n < 8 then lane 16 left (index + n) else lane 16 right (index + n - 8)

/-- `vsetq_lane_u16` -/
def vsetqLaneU16 (value : BitVec 16) (register : Register) (n : Nat) : Register :=
  ofLanes 16 8 fun index => if index = n then value else lane 16 register index

/-- `vsetq_lane_u32` -/
def vsetqLaneU32 (value : BitVec 32) (register : Register) (n : Nat) : Register :=
  ofLanes 32 4 fun index => if index = n then value else lane 32 register index

/-- `vcopyq_laneq_u32` -/
def vcopyqLaneqU32 (left : Register) (n : Nat) (right : Register) (m : Nat) : Register :=
  ofLanes 32 4 fun index => if index = n then lane 32 right m else lane 32 left index

/-- `vrev32q_u8`: the bytes of every word are reversed. -/
def vrev32qU8 (register : Register) : Register :=
  ofLanes 8 16 fun index => lane 8 register (4 * (index / 4) + (3 - index % 4))

/-- `vqmovn_s32`: every lane is narrowed with saturation. -/
def vqmovnS32 (register : Register) : HalfRegister :=
  ofLanes 16 4 fun index => saturate16 (lane 32 register index)

/-- `vdupq_n_u16` -/
def vdupqNU16 (value : BitVec 16) : Register :=
  ofLanes 16 8 fun _ => value

/-- `vdup_n_u16` -/
def vdupNU16 (value : BitVec 16) : HalfRegister :=
  ofLanes 16 4 fun _ => value

/-- `vld1_u16` -/
def vld1U16 (memory : Nat → BitVec 16) (offset : Nat) : HalfRegister :=
  ofLanes 16 4 fun index => memory (offset + index)

/-- `vceq_u16` -/
def vceqU16 (left right : HalfRegister) : HalfRegister :=
  ofLanes 16 4 fun index =>
    if lane 16 left index = lane 16 right index then 0xffff#16 else 0#16

/-- `vshrn_n_u16`: every lane is shifted, and its low half is kept. -/
def vshrnNU16 (register : Register) (n : Nat) : HalfRegister :=
  ofLanes 8 8 fun index => (lane 16 register index >>> n).setWidth 8

/-! ## What they compute -/

theorem lane_vextqU16 (left right : Register) {n index : Nat} (inside : index + n < 8) :
    lane 16 (vextqU16 left right n) index = lane 16 left (index + n) := by
  rw [vextqU16, lane_ofLanes 16 8 _ _ (by omega), if_pos inside]

theorem lane_vsetqLaneU16 (value : BitVec 16) (register : Register) (n : Nat) {index : Nat}
    (inside : index < 8) :
    lane 16 (vsetqLaneU16 value register n) index =
      if index = n then value else lane 16 register index := by
  rw [vsetqLaneU16, lane_ofLanes 16 8 _ _ inside]

theorem lane_vqmovnS32 (register : Register) {index : Nat} (inside : index < 4) :
    lane 16 (vqmovnS32 register) index = saturate16 (lane 32 register index) := by
  rw [vqmovnS32, lane_ofLanes 16 4 _ _ inside]

/-- Copying a lane is reading and setting it. -/
theorem vcopyqLaneqU32_eq (left : Register) (n : Nat) (right : Register) (m : Nat) :
    vcopyqLaneqU32 left n right m = vsetqLaneU32 (lane 32 right m) left n := rfl

/-- Setting the last word is a blend that takes all but its two half words. -/
theorem vsetqLaneU32_last (te ve : Register) :
    vsetqLaneU32 (lane 32 te 3) ve 3 = blendEpi16 te ve 0x3f#8 := by
  have control : ∀ index : Fin 8, (0x3f#8 : BitVec 8).getLsbD index = decide (index.val / 2 ≠ 3) := by
    decide
  apply ext_lanes 16 8
  intro index inside
  have split : 2 * (index / 2) + index % 2 = index := Nat.div_add_mod index 2
  have odd : index % 2 < 2 := Nat.mod_lt index (by decide)
  have half : ∀ register : Register,
      lane 16 (lane (16 * 2) register (index / 2)) (index % 2) = lane 16 register index := by
    intro register
    rw [lane_lane 16 2 register _ _ odd, split]
  have word := lane_ofLanes_narrow 16 2 4 (fun index =>
    if index = 3 then lane 32 te 3 else lane 32 ve index) (index / 2) (index % 2) odd (by omega)
  rw [split] at word
  rw [blendEpi16, lane_ofLanes 16 8 _ _ inside, control ⟨index, inside⟩]
  apply word.trans
  by_cases last : index / 2 = 3
  · have kept : decide (index / 2 ≠ 3) = false := decide_eq_false (not_not_intro last)
    rw [if_pos last, kept, ← half te, last]
    rfl
  · have taken : decide (index / 2 ≠ 3) = true := decide_eq_true last
    rw [if_neg last, taken, ← half ve]
    rfl

theorem lane_vrev32qU8 (register : Register) {index : Nat} (inside : index < 4) :
    lane 32 (vrev32qU8 register) index = bswap32 (lane 32 register index) := by
  apply ext_lanes 8 4
  intro byte byteLt
  have word : (4 * index + byte) / 4 = index := by omega
  have place : (4 * index + byte) % 4 = byte := by omega
  calc lane 8 (lane 32 (vrev32qU8 register) index) byte
      = lane 8 (vrev32qU8 register) (4 * index + byte) := lane_lane 8 4 _ index byte byteLt
    _ = lane 8 register (4 * index + (3 - byte)) := by
        rw [vrev32qU8, lane_ofLanes 8 16 _ _ (by omega), word, place]
    _ = lane 8 (lane 32 register index) (3 - byte) :=
        (lane_lane 8 4 _ index (3 - byte) (by omega)).symm
    _ = lane 8 (bswap32 (lane 32 register index)) byte := by
        rw [bswap32, lane_ofLanes 8 4 _ byte byteLt]

/-! ## Comparisons as numbers -/

/-- The weights that make a number of four comparisons. -/
def laneBits : Register :=
  ofLanes 16 8 fun index => [1#16, 2#16, 4#16, 8#16].getD index 0#16

theorem sum_laneBits : ∀ mask : BitVec 4,
    ((List.range 8).map fun index =>
      if mask.getLsbD index then [1#16, 2#16, 4#16, 8#16].getD index 0#16 else 0#16).sum =
      mask.setWidth 16 := by
  decide

/-- The weights of the equal lanes add up to the number whose bits are the comparisons. -/
theorem vaddvqU16_vceqqU16 (left right : Register) :
    vaddvqU16 (vandqU16 (vceqqU16 left right) laneBits) =
      (movemaskPs (unpackloEpi16 (cmpeqEpi16 left right) (cmpeqEpi16 left right))).setWidth 16 := by
  rw [vaddvqU16, ← sum_laneBits]
  apply congrArg List.sum
  apply List.map_congr_left
  intro index member
  have inside : index < 8 := List.mem_range.mp member
  rw [vandqU16, lane_ofLanes 16 8 _ _ inside, vceqqU16, lane_ofLanes 16 8 _ _ inside, laneBits,
    lane_ofLanes 16 8 _ _ inside]
  rcases Nat.lt_or_ge index 4 with low | high
  · rw [getLsbD_movemask_cmpeq left right index low]
    by_cases equal : lane 16 left index = lane 16 right index
    · rw [if_pos equal, if_pos (decide_eq_true equal)]
      exact BitVec.allOnes_and
    · have notEqual : ¬ decide (lane 16 left index = lane 16 right index) = true :=
        fun isEqual => equal (of_decide_eq_true isEqual)
      rw [if_neg equal, if_neg notEqual]
      exact BitVec.zero_and
  · have weightless : [1#16, 2#16, 4#16, 8#16].getD index 0#16 = 0#16 :=
      List.getD_eq_default _ _ high
    rw [weightless, ite_self]
    exact BitVec.and_zero

/-- All lanes are ones if and only if all are equal. -/
theorem vshrnNU16_vceqqU16_iff (left right : Register) :
    vshrnNU16 (vceqqU16 left right) 4 = BitVec.allOnes 64 ↔
      ∀ index, index < 8 → lane 16 left index = lane 16 right index := by
  have full : ∀ index, index < 8 → lane 8 (BitVec.allOnes 64) index = 0xff#8 := by
    decide
  have narrowed : ∀ index, index < 8 → lane 8 (vshrnNU16 (vceqqU16 left right) 4) index =
      if lane 16 left index = lane 16 right index then 0xff#8 else 0#8 := by
    intro index inside
    rw [vshrnNU16, lane_ofLanes 8 8 _ _ inside, vceqqU16, lane_ofLanes 16 8 _ _ inside]
    split
    · decide
    · decide
  constructor
  · intro all index inside
    have isFull := narrowed index inside
    rw [all, full index inside] at isFull
    by_contra different
    rw [if_neg different] at isFull
    exact absurd isFull (by decide)
  · intro equal
    apply ext_lanes 8 8
    intro index inside
    exact (narrowed index inside).trans ((if_pos (equal index inside)).trans
      (full index inside).symm)

theorem vceqU16_iff (left right : HalfRegister) :
    vceqU16 left right = BitVec.allOnes 64 ↔
      ∀ index, index < 4 → lane 16 left index = lane 16 right index := by
  have full : ∀ index, index < 4 → lane 16 (BitVec.allOnes 64) index = 0xffff#16 := by
    decide
  constructor
  · intro all index inside
    have compared := lane_ofLanes 16 4 (fun index =>
      if lane 16 left index = lane 16 right index then 0xffff#16 else 0#16) index inside
    have isFull := (full index inside).symm.trans ((congrArg (fun r => lane 16 r index)
      all.symm).trans compared)
    by_contra different
    rw [if_neg different] at isFull
    exact absurd isFull (by decide)
  · intro equal
    apply ext_lanes 16 4
    intro index inside
    rw [vceqU16, lane_ofLanes 16 4 _ _ inside, if_pos (equal index inside)]
    exact (full index inside).symm

end PacketForwarding.Lanes
