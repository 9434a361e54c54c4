import Mathlib

/-! # Vector registers seen as lanes

A 128-bit vector register is a bit vector. A lane is a fixed-width field of it,
counted from the least significant end, as little-endian machines lay vectors
out in memory. Every operation is given by the lanes it produces, so a proof
reads lanes and never individual bits.
-/

namespace PacketForwarding.Lanes

abbrev Register := BitVec 128

def lane (width : Nat) (register : BitVec size) (index : Nat) : BitVec width :=
  register.extractLsb' (width * index) width

/-- The vector whose lanes, least significant first, are the given values. -/
def ofLanes (width count : Nat) (values : Nat → BitVec width) :
    BitVec (width * count) :=
  BitVec.ofFnLE fun bit => (values (bit.val / width)).getLsbD (bit.val % width)

theorem lane_ofLanes (width count : Nat) (values : Nat → BitVec width)
    (index : Nat) (inside : index < count) :
    lane width (ofLanes width count values) index = values index := by
  apply BitVec.eq_of_getLsbD_eq
  intro bit bitLt
  have widthPos : 0 < width := by omega
  have bitInside : width * index + bit < width * count := by
    have := Nat.mul_le_mul_left width inside
    rw [Nat.succ_eq_add_one, Nat.mul_add] at this
    omega
  have quotient : (width * index + bit) / width = index := by
    rw [Nat.mul_add_div widthPos, Nat.div_eq_of_lt bitLt, Nat.add_zero]
  have remainder : (width * index + bit) % width = bit := by
    rw [Nat.mul_add_mod, Nat.mod_eq_of_lt bitLt]
  rw [lane, BitVec.getLsbD_extractLsb', ofLanes, BitVec.getLsbD_ofFnLE]
  simp only [bitLt, bitInside, decide_true, Bool.true_and, dif_pos, quotient,
    remainder]

/-- A lane of a lane is a lane of the register. -/
theorem lane_lane (narrow factor : Nat) (register : BitVec size)
    (outer inner : Nat) (inside : inner < factor) :
    lane narrow (lane (narrow * factor) register outer) inner =
      lane narrow register (factor * outer + inner) := by
  apply BitVec.eq_of_getLsbD_eq
  intro bit bitLt
  have bitInside : narrow * inner + bit < narrow * factor := by
    have := Nat.mul_le_mul_left narrow inside
    rw [Nat.succ_eq_add_one, Nat.mul_add] at this
    omega
  simp only [lane, BitVec.getLsbD_extractLsb', bitLt, bitInside, decide_true,
    Bool.true_and]
  congr 1
  ring

/-- A narrow lane of a vector of wide lanes. -/
theorem lane_ofLanes_narrow (narrow factor count : Nat)
    (values : Nat → BitVec (narrow * factor)) (outer inner : Nat) (inside : inner < factor)
    (outerInside : outer < count) :
    lane narrow (ofLanes (narrow * factor) count values) (factor * outer + inner) =
      lane narrow (values outer) inner := by
  rw [← lane_lane narrow factor _ outer inner inside, lane_ofLanes _ _ _ _ outerInside]

/-- The sign of a wide lane is the sign of its most significant narrow lane. -/
theorem msb_lane_double (width : Nat) (register : BitVec size) (index : Nat)
    (positive : 0 < width) :
    (lane (width * 2) register index).msb =
      (lane width register (2 * index + 1)).msb := by
  simp only [BitVec.msb_eq_getLsbD_last, lane, BitVec.getLsbD_extractLsb']
  have wide : width * 2 - 1 < width * 2 := by omega
  have narrow : width - 1 < width := by omega
  simp only [wide, narrow, decide_true, Bool.true_and]
  congr 1
  have split : width * (2 * index + 1) = width * 2 * index + width := by ring
  omega

/-- Registers with equal lanes are equal. -/
theorem ext_lanes (width count : Nat) (left right : BitVec (width * count))
    (equal : ∀ index, index < count →
      lane width left index = lane width right index) : left = right := by
  apply BitVec.eq_of_getLsbD_eq
  intro bit bitLt
  have widthPos : 0 < width := by
    rcases Nat.eq_zero_or_pos width with zero | positive
    · subst zero
      omega
    · exact positive
  have same := equal (bit / width)
    (Nat.div_lt_of_lt_mul bitLt)
  have sameBit := congrArg (fun value => value.getLsbD (bit % width)) same
  simp only [lane, BitVec.getLsbD_extractLsb', Nat.mod_lt bit widthPos,
    decide_true, Bool.true_and, Nat.div_add_mod] at sameBit
  exact sameBit

/-! ## Loads and stores -/

def loadLanes16 (memory : Nat → BitVec 16) (offset : Nat) : Register :=
  ofLanes 16 8 fun index => memory (offset + index)

theorem lane_loadLanes16 (memory : Nat → BitVec 16) (offset index : Nat)
    (inside : index < 8) :
    lane 16 (loadLanes16 memory offset) index = memory (offset + index) :=
  lane_ofLanes 16 8 _ index inside

/-- `count` consecutive bytes, the first one least significant. -/
def load (count : Nat) (memory : Nat → BitVec 8) (offset : Nat) :
    BitVec (8 * count) :=
  ofLanes 8 count fun index => memory (offset + index)

theorem lane_load (count : Nat) (memory : Nat → BitVec 8) (offset index : Nat)
    (inside : index < count) :
    lane 8 (load count memory offset) index = memory (offset + index) :=
  lane_ofLanes 8 count _ index inside

def store (count : Nat) (memory : Nat → BitVec 8) (offset : Nat)
    (value : BitVec (8 * count)) : Nat → BitVec 8 :=
  fun address =>
    if offset ≤ address ∧ address < offset + count then
      lane 8 value (address - offset)
    else
      memory address

theorem store_of_lt (count : Nat) (memory : Nat → BitVec 8) (offset : Nat)
    (value : BitVec (8 * count)) (index : Nat) (inside : index < count) :
    store count memory offset value (offset + index) = lane 8 value index := by
  rw [store, if_pos (by omega), Nat.add_sub_cancel_left]

theorem store_of_outside (count : Nat) (memory : Nat → BitVec 8) (offset : Nat)
    (value : BitVec (8 * count)) (address : Nat)
    (outside : address < offset ∨ offset + count ≤ address) :
    store count memory offset value address = memory address := by
  rw [store, if_neg (by omega)]

/-- Loads only see the bytes they cover. -/
theorem load_congr (count : Nat) {memory memory' : Nat → BitVec 8} {offset : Nat}
    (agree : ∀ index, index < count →
      memory (offset + index) = memory' (offset + index)) :
    load count memory offset = load count memory' offset := by
  apply ext_lanes 8 count
  intro index inside
  rw [lane_load count memory offset index inside,
    lane_load count memory' offset index inside, agree index inside]

theorem load_store_same (count : Nat) (memory : Nat → BitVec 8) (offset : Nat)
    (value : BitVec (8 * count)) :
    load count (store count memory offset value) offset = value := by
  apply ext_lanes 8 count
  intro index inside
  rw [lane_load count _ offset index inside, store_of_lt count memory offset value index inside]

/-- A little-endian 16-bit load. -/
def load16 (memory : Nat → BitVec 8) (offset : Nat) : BitVec 16 :=
  load 2 memory offset

def store16 (memory : Nat → BitVec 8) (offset : Nat) (value : BitVec 16) : Nat → BitVec 8 :=
  store 2 memory offset value

/-! ## Operations -/

/-- `_mm_cmpeq_epi16` -/
def cmpeqEpi16 (left right : Register) : Register :=
  ofLanes 16 8 fun index =>
    if lane 16 left index = lane 16 right index then 0xffff#16 else 0#16

/-- `_mm_unpacklo_epi16` -/
def unpackloEpi16 (left right : Register) : Register :=
  ofLanes 16 8 fun index =>
    if index % 2 = 0 then lane 16 left (index / 2) else lane 16 right (index / 2)

/-- `_mm_movemask_ps` -/
def movemaskPs (register : Register) : BitVec 4 :=
  BitVec.ofFnLE fun index : Fin 4 => (lane 32 register index.val).msb

/-- `_mm_set1_epi16` -/
def set1Epi16 (value : BitVec 16) : Register :=
  ofLanes 16 8 fun _ => value

/-- `_mm_movemask_epi8` -/
def movemaskEpi8 (register : Register) : BitVec 16 :=
  BitVec.ofFnLE fun index : Fin 16 => (lane 8 register index.val).msb

/-- `_mm_srli_si128` -/
def srliSi128 (register : Register) (bytes : Nat) : Register :=
  register >>> (8 * bytes)

/-- `_mm_shufflelo_epi16` -/
def shuffleloEpi16 (register : Register) (control : BitVec 8) : Register :=
  ofLanes 16 8 fun index =>
    if index < 4 then lane 16 register (lane 2 control index).toNat
    else lane 16 register index

/-- `_mm_blend_epi16` -/
def blendEpi16 (left right : Register) (control : BitVec 8) : Register :=
  ofLanes 16 8 fun index =>
    if control.getLsbD index then lane 16 right index else lane 16 left index

/-- A blend chooses between the bytes of its arguments by the half word they are in. -/
theorem lane8_blendEpi16 (left right : Register) (control : BitVec 8) (index : Nat)
    (inside : index < 16) :
    lane 8 (blendEpi16 left right control) index =
      if control.getLsbD (index / 2) then lane 8 right index else lane 8 left index := by
  have position : 2 * (index / 2) + index % 2 = index := Nat.div_add_mod index 2
  have odd : index % 2 < 2 := Nat.mod_lt _ (by decide)
  have fromHalf : ∀ register : Register,
      lane 8 (lane (8 * 2) register (index / 2)) (index % 2) = lane 8 register index := by
    intro register
    rw [lane_lane 8 2 register _ _ odd, position]
  have narrowed := lane_ofLanes_narrow 8 2 8 (fun index =>
    if control.getLsbD index then lane (8 * 2) right index else lane (8 * 2) left index)
    (index / 2) (index % 2) odd (by omega)
  rw [position] at narrowed
  refine narrowed.trans ?_
  by_cases chosen : control.getLsbD (index / 2) = true
  · rw [if_pos chosen, if_pos chosen]
    exact fromHalf right
  · rw [if_neg chosen, if_neg chosen]
    exact fromHalf left

theorem lane_srliSi128 (register : Register) (shift index : Nat) :
    lane 16 (srliSi128 register (2 * shift)) index =
      lane 16 register (index + shift) := by
  apply BitVec.eq_of_getLsbD_eq
  intro bit bitLt
  simp only [lane, srliSi128, BitVec.getLsbD_extractLsb', BitVec.getLsbD_ushiftRight,
    bitLt, decide_true, Bool.true_and]
  congr 1
  ring

/-- Comparing, widening and taking signs yields the equality of the four low
lanes, one bit for each. -/
theorem getLsbD_movemask_cmpeq (left right : Register) (index : Nat)
    (inside : index < 4) :
    (movemaskPs (unpackloEpi16 (cmpeqEpi16 left right)
      (cmpeqEpi16 left right))).getLsbD index =
      decide (lane 16 left index = lane 16 right index) := by
  rw [movemaskPs, BitVec.getLsbD_ofFnLE, dif_pos inside,
    msb_lane_double 16 _ index (by decide), unpackloEpi16,
    lane_ofLanes 16 8 _ _ (by omega)]
  have half : (2 * index + 1) / 2 = index := by omega
  have odd : ¬ (2 * index + 1) % 2 = 0 := by omega
  simp only [half, if_neg odd, cmpeqEpi16]
  rw [lane_ofLanes 16 8 _ _ (by omega)]
  by_cases equal : lane 16 left index = lane 16 right index
  · simp only [equal, if_true, decide_true]
    decide
  · simp only [equal, if_false, decide_false]
    decide

/-- Comparing and taking signs yields the equality of all lanes, two bits for each. -/
theorem getLsbD_movemaskEpi8_cmpeq (left right : Register) (index : Nat)
    (inside : index < 16) :
    (movemaskEpi8 (cmpeqEpi16 left right)).getLsbD index =
      decide (lane 16 left (index / 2) = lane 16 right (index / 2)) := by
  have position : 2 * (index / 2) + index % 2 = index := Nat.div_add_mod index 2
  have half : index / 2 < 8 := by omega
  have parity : index % 2 = 0 ∨ index % 2 = 1 := Nat.mod_two_eq_zero_or_one index
  rw [movemaskEpi8, BitVec.getLsbD_ofFnLE, dif_pos inside]
  change (lane 8 (cmpeqEpi16 left right) index).msb = _
  rw [← position, cmpeqEpi16,
    lane_ofLanes_narrow 8 2 8 _ (index / 2) (index % 2) (Nat.mod_lt _ (by decide)) half, position]
  by_cases equal : lane 16 left (index / 2) = lane 16 right (index / 2)
  · rw [if_pos equal, decide_eq_true equal]
    rcases parity with even | odd
    · rw [even]
      decide
    · rw [odd]
      decide
  · rw [if_neg equal, decide_eq_false equal]
    rcases parity with even | odd
    · rw [even]
      decide
    · rw [odd]
      decide

theorem lane_shuffleloEpi16 (register : Register) (control : BitVec 8)
    (index : Nat) (inside : index < 4) :
    lane 16 (shuffleloEpi16 register control) index =
      lane 16 register (lane 2 control index).toNat := by
  rw [shuffleloEpi16, lane_ofLanes 16 8 _ _ (by omega), if_pos inside]

/-! ## Byte order and saturation -/

/-- Reverse the bytes of a 32-bit value. -/
def bswap32 (value : BitVec 32) : BitVec 32 :=
  ofLanes 8 4 fun index => lane 8 value (3 - index)

/-- Exchange the bytes of a 16-bit value. -/
def bswap16 (value : BitVec 16) : BitVec 16 :=
  ofLanes 8 2 fun index => lane 8 value (1 - index)

/-- A little-endian 32-bit load. -/
def load32 (memory : Nat → BitVec 8) (offset : Nat) : BitVec 32 :=
  load 4 memory offset

/-- `_mm_set_epi32`, most significant lane first. -/
def setEpi32 (x3 x2 x1 x0 : BitVec 32) : Register :=
  ofLanes 32 4 fun index =>
    if index = 0 then x0 else if index = 1 then x1 else if index = 2 then x2 else x3

/-- `_mm_set_epi8`, most significant lane first. -/
def setEpi8 (values : List (BitVec 8)) : Register :=
  ofLanes 8 16 fun index => values.getD (15 - index) 0#8

/-- `_mm_shuffle_epi8` -/
def shuffleEpi8 (register control : Register) : Register :=
  ofLanes 8 16 fun index =>
    if (lane 8 control index).msb then 0#8
    else lane 8 register ((lane 8 control index).toNat % 16)

/-- The signed 16-bit value closest to a signed 32-bit one. -/
def saturate16 (value : BitVec 32) : BitVec 16 :=
  if 0x7fff < value.toInt then 0x7fff#16
  else if value.toInt < -0x8000 then 0x8000#16
  else value.setWidth 16

/-- `_mm_packs_epi32` -/
def packsEpi32 (left right : Register) : Register :=
  ofLanes 16 8 fun index =>
    if index < 4 then saturate16 (lane 32 left index)
    else saturate16 (lane 32 right (index - 4))

/-- A small unsigned value passes through signed saturation. -/
theorem saturate16_of_lt (value : BitVec 32) (small : value.toNat < 2 ^ 15) :
    saturate16 value = value.setWidth 16 := by
  have nonnegative : value.toInt = value.toNat := by
    rw [BitVec.toInt_eq_toNat_of_lt (by omega)]
  have notAbove : ¬ 0x7fff < value.toInt := by omega
  have notBelow : ¬ value.toInt < -0x8000 := by omega
  rw [saturate16, if_neg notAbove, if_neg notBelow]

theorem lane_packsEpi32 (left right : Register) (index : Nat) (inside : index < 4) :
    lane 16 (packsEpi32 left right) index = saturate16 (lane 32 left index) := by
  rw [packsEpi32, lane_ofLanes 16 8 _ _ (by omega), if_pos inside]

/-- A shuffle that takes bytes `3, 2, 1, 0` of every word swaps the words. -/
theorem lane_shuffleEpi8_bswap (register control : Register)
    (reversed : ∀ word, word < 4 → ∀ byte, byte < 4 →
      lane 8 control (4 * word + byte) = BitVec.ofNat 8 (4 * word + (3 - byte)))
    (index : Nat) (inside : index < 4) :
    lane 32 (shuffleEpi8 register control) index = bswap32 (lane 32 register index) := by
  apply ext_lanes 8 4
  intro byte byteLt
  have chosen := reversed index inside byte byteLt
  have value : (lane 8 control (4 * index + byte)).toNat = 4 * index + (3 - byte) := by
    rw [chosen, BitVec.toNat_ofNat]
    omega
  have positive : (lane 8 control (4 * index + byte)).msb = false := by
    rw [BitVec.msb_eq_false_iff_two_mul_lt, value]
    omega
  calc lane 8 (lane 32 (shuffleEpi8 register control) index) byte
      = lane 8 (shuffleEpi8 register control) (4 * index + byte) :=
        lane_lane 8 4 _ index byte byteLt
    _ = lane 8 register (4 * index + (3 - byte)) := by
        rw [shuffleEpi8, lane_ofLanes 8 16 _ _ (by omega), positive, value]
        simp only [Bool.false_eq_true, if_false]
        rw [Nat.mod_eq_of_lt (by omega)]
    _ = lane 8 (lane 32 register index) (3 - byte) :=
        (lane_lane 8 4 _ index (3 - byte) (by omega)).symm
    _ = lane 8 (bswap32 (lane 32 register index)) byte := by
        rw [bswap32, lane_ofLanes 8 4 _ byte byteLt]

end PacketForwarding.Lanes
