import PacketForwarding.Foundation.Lanes

/-! # Vector operations of POWER

Elements are counted in memory order, which on a little-endian machine is from the least
significant end. The instructions count bits and octets from the most significant end.
-/

namespace PacketForwarding.Lanes

/-- A vector literal. What has no initialiser is zero. -/
def vecLiteral (width count : Nat) (values : List (BitVec width)) : BitVec (width * count) :=
  ofLanes width count fun index => values.getD index 0

/-- `vec_sel`: a bit of the control that is set takes the bit of the second argument. -/
def vecSel (left right control : Register) : Register :=
  (left &&& ~~~control) ||| (right &&& control)

/-- `vec_cmpeq` of half words -/
def vecCmpeq (left right : Register) : Register :=
  ofLanes 16 8 fun index =>
    if lane 16 left index = lane 16 right index then 0xffff#16 else 0#16

/-- `vec_mergeh` of half words: the first halves, interleaved. -/
def vecMergeh (left right : Register) : Register :=
  ofLanes 16 8 fun index =>
    if index % 2 = 0 then lane 16 left (index / 2) else lane 16 right (index / 2)

/-- `vec_vbpermq`: the bits whose numbers are in the control, as an element of 64 bits. -/
def vecVbpermq (register control : Register) : Register :=
  let gathered : BitVec 16 := BitVec.ofFnLE fun bit : Fin 16 =>
    let number := (lane 8 control bit.val).toNat
    decide (number < 128) && register.getLsbD (127 - number)
  ofLanes 64 2 fun index => if index = 1 then gathered.setWidth 64 else 0#64

/-- `vec_perm` of bytes -/
def vecPerm (left right control : Register) : Register :=
  ofLanes 8 16 fun index =>
    let number := (lane 8 control index).toNat % 32
    if number < 16 then lane 8 left number else lane 8 right (number - 16)

/-- `vec_sro`: the number of octets is in bits 121 to 124 of the second argument. -/
def vecSro (register octets : Register) : Register :=
  register >>> (8 * (octets.extractLsb' 3 4).toNat)

/-! ## What they compute -/

/-- The control that gathers the signs of the words. -/
def signsMask : Register :=
  vecLiteral 32 4 [0x00204060#32, 0x80808080#32, 0x80808080#32, 0x80808080#32]

theorem lane_signsMask : ∀ bit : Fin 16,
    (lane 8 signsMask bit.val).toNat = if bit.val < 4 then 96 - 32 * bit.val else 128 := by
  decide +kernel

/-- The four signs and nothing else are gathered. -/
theorem vecVbpermq_signs (register : Register) :
    lane 64 (vecVbpermq register signsMask) 1 = (movemaskPs register).setWidth 64 := by
  rw [vecVbpermq, lane_ofLanes 64 2 _ 1 (by decide), if_pos rfl]
  apply BitVec.eq_of_getLsbD_eq
  intro bit _
  rw [BitVec.getLsbD_setWidth, BitVec.getLsbD_setWidth]
  congr 1
  rw [movemaskPs, BitVec.getLsbD_ofFnLE, BitVec.getLsbD_ofFnLE]
  by_cases inside : bit < 16
  · have number := lane_signsMask ⟨bit, inside⟩
    dsimp only at number
    rw [dif_pos inside]
    dsimp only
    rw [number]
    by_cases sign : bit < 4
    · have small : 96 - 32 * bit < 128 := by omega
      have place : 127 - (96 - 32 * bit) = 32 * bit + 31 := by omega
      rw [if_pos sign, dif_pos sign, decide_eq_true small, Bool.true_and, place,
        BitVec.msb_eq_getLsbD_last, lane, BitVec.getLsbD_extractLsb',
        decide_eq_true (by decide : 32 - 1 < 32), Bool.true_and]
    · rw [if_neg sign, dif_neg sign]
      rfl
  · have notSign : ¬ bit < 4 := by omega
    rw [dif_neg inside, dif_neg notSign]

theorem vecMergeh_eq (left right : Register) : vecMergeh left right = unpackloEpi16 left right :=
  rfl

theorem vecCmpeq_eq (left right : Register) : vecCmpeq left right = cmpeqEpi16 left right := rfl

/-- Without octets in the last byte there is no shift. -/
theorem vecSro_zero (register : Register) {octets : Register} (none : lane 8 octets 0 = 0#8) :
    vecSro register octets = register := by
  have noOctets : octets.extractLsb' 3 4 = 0#4 := by
    apply BitVec.eq_of_getLsbD_eq
    intro bit inside
    have clear := congrArg (fun byte => byte.getLsbD (3 + bit)) none
    simp only [lane, BitVec.getLsbD_extractLsb', BitVec.getLsbD_zero] at clear ⊢
    have below : 3 + bit < 8 := by omega
    rw [decide_eq_true below, Bool.true_and, Nat.mul_zero, Nat.zero_add] at clear
    rw [clear, Bool.and_false]
  rw [vecSro, noOctets]
  rfl

theorem lane_vecLiteral {width count : Nat} (values : List (BitVec width)) {index : Nat}
    (inside : index < count) :
    lane width (vecLiteral width count values) index = values.getD index 0 :=
  lane_ofLanes width count _ index inside

theorem lane_vecSel (left right control : Register) (index : Nat) :
    lane 16 (vecSel left right control) index =
      (lane 16 left index &&& ~~~lane 16 control index) |||
        (lane 16 right index &&& lane 16 control index) := by
  apply BitVec.eq_of_getLsbD_eq
  intro bit inside
  simp only [lane, vecSel, BitVec.getLsbD_extractLsb', BitVec.getLsbD_or, BitVec.getLsbD_and,
    BitVec.getLsbD_not, inside, decide_true, Bool.true_and]
  by_cases beyond : 16 * index + bit < 128
  · rw [decide_eq_true beyond, Bool.true_and]
  · have outside : 128 ≤ 16 * index + bit := Nat.not_lt.mp beyond
    simp only [BitVec.getLsbD_of_ge _ _ outside, Bool.false_and, Bool.or_false]

/-- Half words are taken from one side or the other. -/
theorem vecSel_eq_blend (left right : Register) :
    vecSel left right
        (vecLiteral 16 8 [0#16, 0#16, 0#16, 0#16, 0#16, 0#16, 0xffff#16, 0xffff#16]) =
      blendEpi16 right left 0x3f#8 := by
  apply ext_lanes 16 8
  intro index inside
  rw [lane_vecSel, lane_vecLiteral _ inside, blendEpi16, lane_ofLanes 16 8 _ _ inside]
  have position : index = 0 ∨ index = 1 ∨ index = 2 ∨ index = 3 ∨ index = 4 ∨ index = 5 ∨
      index = 6 ∨ index = 7 := by omega
  have all (word : BitVec 16) : word &&& 65535#16 = word := BitVec.and_allOnes
  rcases position with rfl | rfl | rfl | rfl | rfl | rfl | rfl | rfl
  all_goals simp [all]

/-- The low byte of an element as both bytes of another. -/
def repeatLow (element : BitVec 16) : BitVec 16 :=
  element.setWidth 8 ++ element.setWidth 8

theorem toNat_append_bytes (high low : BitVec 8) :
    (high ++ low).toNat = high.toNat * 256 + low.toNat := by
  rw [BitVec.toNat_append, Nat.shiftLeft_eq, Nat.mul_comm high.toNat,
    Nat.two_pow_add_eq_or_of_lt low.isLt, Nat.mul_comm]

theorem toNat_repeatLow (element : BitVec 16) :
    (repeatLow element).toNat = element.toNat % 256 * 257 := by
  rw [repeatLow, toNat_append_bytes, BitVec.toNat_setWidth]
  omega

theorem eq_append_zero_iff (element : BitVec 16) :
    element = element.setWidth 8 ++ 0#8 ↔ element = 0#16 := by
  rw [← BitVec.toNat_inj, ← BitVec.toNat_inj, toNat_append_bytes, BitVec.toNat_setWidth,
    BitVec.toNat_ofNat, BitVec.toNat_ofNat]
  have small := element.isLt
  omega

theorem lane_append (high low : BitVec 8) {index : Nat} (inside : index < 2) :
    lane 8 (high ++ low) index = if index = 0 then low else high := by
  apply BitVec.eq_of_getLsbD_eq
  intro bit bitInside
  rw [lane, BitVec.getLsbD_extractLsb', BitVec.getLsbD_append, decide_eq_true bitInside,
    Bool.true_and]
  have position : index = 0 ∨ index = 1 := by omega
  rcases position with rfl | rfl
  · rw [if_pos (by omega), if_pos rfl, Nat.mul_zero, Nat.zero_add]
  · rw [if_neg (by omega), if_neg (by decide), Nat.mul_one, Nat.add_sub_cancel_left]

/-- With one initialiser, all bytes but the first are the first byte of the argument. -/
theorem lane_vecPerm_single (register : Register) {index : Nat} (inside : index < 8) :
    lane 16 (vecPerm register 0#128 (vecLiteral 8 16 [0xf9#8])) index =
      if index = 0 then (lane 16 register 0).setWidth 8 ++ 0#8
      else repeatLow (lane 16 register 0) := by
  have lowByte : lane 8 register 0 = (lane 16 register 0).setWidth 8 := by
    apply BitVec.eq_of_getLsbD_eq
    intro bit bitInside
    have wider : bit < 16 := by omega
    simp only [lane, BitVec.getLsbD_extractLsb', BitVec.getLsbD_setWidth, bitInside, wider,
      decide_true, Bool.true_and, Nat.mul_zero]
  have byte (place : Nat) (bound : place < 16) :
      lane 8 (vecPerm register 0#128 (vecLiteral 8 16 [0xf9#8])) place =
        if place = 0 then 0#8 else (lane 16 register 0).setWidth 8 := by
    rw [vecPerm, lane_ofLanes 8 16 _ _ bound, lane_vecLiteral _ bound]
    cases place with
    | zero =>
        rw [if_neg (by decide), if_pos rfl]
        decide +kernel
    | succ place => exact lowByte
  apply ext_lanes 8 2
  intro half halfInside
  refine (lane_lane 8 2 _ index half halfInside).trans ?_
  rw [byte _ (by omega)]
  by_cases first : index = 0
  · rw [first, if_pos rfl, lane_append _ _ halfInside, Nat.mul_zero, Nat.zero_add]
  · rw [if_neg first, repeatLow, lane_append _ _ halfInside, if_neg (by omega)]
    split
    · rfl
    · rfl

end PacketForwarding.Lanes
