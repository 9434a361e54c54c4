import PacketForwarding.Foundation.Lanes

/-! # One's complement sums

Addition in one's complement adds the carry back in at the other end. It is addition
modulo `2 ^ w - 1` with two representations of zero. Exchanging the bytes of all words
multiplies a sum by 256 in that ring, so it does not change whether a sum is zero.
-/

namespace PacketForwarding

open Lanes

variable {w : Nat}

/-- Add with end-around carry. -/
def onesAdd (left right : BitVec w) : BitVec w :=
  if left.toNat + right.toNat < 2 ^ w then left + right else left + right + 1#w

def onesSum (words : List (BitVec w)) : BitVec w :=
  words.foldr onesAdd 0#w

theorem toNat_onesAdd (left right : BitVec w) :
    (onesAdd left right).toNat =
      if left.toNat + right.toNat < 2 ^ w then left.toNat + right.toNat
      else left.toNat + right.toNat - (2 ^ w - 1) := by
  have leftLt := left.isLt
  have rightLt := right.isLt
  unfold onesAdd
  split
  · rename_i noCarry
    rw [BitVec.toNat_add, Nat.mod_eq_of_lt noCarry]
  · rename_i carry
    have wrapped : (left.toNat + right.toNat) % 2 ^ w = left.toNat + right.toNat - 2 ^ w := by
      rw [Nat.mod_eq_sub_mod (Nat.le_of_not_lt carry), Nat.mod_eq_of_lt (by omega)]
    rw [BitVec.toNat_add, BitVec.toNat_add, wrapped, BitVec.toNat_ofNat, Nat.add_mod_mod,
      Nat.mod_eq_of_lt (by omega)]
    omega

theorem onesAdd_modEq (left right : BitVec w) :
    (onesAdd left right).toNat ≡ left.toNat + right.toNat [MOD 2 ^ w - 1] := by
  rw [toNat_onesAdd]
  split
  · exact Nat.ModEq.refl _
  · have enough : 2 ^ w - 1 ≤ left.toNat + right.toNat := by omega
    exact (Nat.modEq_iff_dvd' (Nat.sub_le _ _)).mpr ⟨1, by omega⟩

theorem onesAdd_eq_zero_iff (left right : BitVec w) :
    onesAdd left right = 0#w ↔ left = 0#w ∧ right = 0#w := by
  have positive : 0 < 2 ^ w := Nat.two_pow_pos w
  have value := toNat_onesAdd left right
  simp only [← BitVec.toNat_inj, BitVec.toNat_ofNat, Nat.zero_mod, value]
  split
  · omega
  · omega

theorem onesSum_modEq (words : List (BitVec w)) :
    (onesSum words).toNat ≡ (words.map BitVec.toNat).sum [MOD 2 ^ w - 1] := by
  induction words with
  | nil =>
      rw [onesSum, List.foldr_nil, BitVec.toNat_ofNat, Nat.zero_mod]
      exact Nat.ModEq.refl 0
  | cons word rest induction =>
      have step := onesAdd_modEq word (onesSum rest)
      rw [List.map_cons, List.sum_cons]
      exact step.trans (Nat.ModEq.add_left word.toNat induction)

theorem onesSum_eq_zero_iff (words : List (BitVec w)) :
    onesSum words = 0#w ↔ ∀ word ∈ words, word = 0#w := by
  induction words with
  | nil => simp [onesSum]
  | cons word rest induction =>
      rw [List.forall_mem_cons, ← induction]
      exact onesAdd_eq_zero_iff word (onesSum rest)

/-- A sum is the all-ones zero if it is divisible by the modulus and not a sum of
zeros. -/
theorem onesSum_eq_allOnes_iff (positive : 0 < w) (words : List (BitVec w)) :
    onesSum words = BitVec.allOnes w ↔
      2 ^ w - 1 ∣ (words.map BitVec.toNat).sum ∧ ∃ word ∈ words, word ≠ 0#w := by
  have congruent := onesSum_modEq words
  have zeroIff := onesSum_eq_zero_iff words
  have two : 2 ≤ 2 ^ w := Nat.le_self_pow (Nat.ne_of_gt positive) 2
  constructor
  · intro isOnes
    rw [isOnes, BitVec.toNat_allOnes] at congruent
    refine ⟨(Nat.modEq_zero_iff_dvd.mp (congruent.symm.trans ?_)), ?_⟩
    · exact Nat.modEq_zero_iff_dvd.mpr (Nat.dvd_refl _)
    · by_contra none
      push Not at none
      have isZero := zeroIff.mpr none
      rw [isOnes] at isZero
      have values := congrArg BitVec.toNat isZero
      rw [BitVec.toNat_allOnes, BitVec.toNat_ofNat, Nat.zero_mod] at values
      omega
  · rintro ⟨divides, word, member, notZero⟩
    have sumNotZero : onesSum words ≠ 0#w :=
      fun isZero => notZero (zeroIff.mp isZero word member)
    have sumDivides : 2 ^ w - 1 ∣ (onesSum words).toNat :=
      Nat.modEq_zero_iff_dvd.mp (congruent.trans (Nat.modEq_zero_iff_dvd.mpr divides))
    have sumPositive : 0 < (onesSum words).toNat := by
      refine Nat.pos_of_ne_zero fun isZero => sumNotZero ?_
      rw [← BitVec.toNat_inj, isZero, BitVec.toNat_ofNat, Nat.zero_mod]
    have sumLt := (onesSum words).isLt
    have sumGe := Nat.le_of_dvd sumPositive sumDivides
    rw [← BitVec.toNat_inj, BitVec.toNat_allOnes]
    omega

/-! ## Byte order -/

theorem toNat_eq_bytes (value : BitVec 16) :
    value.toNat = (lane 8 value 0).toNat + 256 * (lane 8 value 1).toNat := by
  have valueLt := value.isLt
  simp only [lane, BitVec.extractLsb'_toNat, Nat.shiftRight_eq_div_pow]
  omega

theorem toNat_bswap16 (value : BitVec 16) :
    (bswap16 value).toNat = (lane 8 value 1).toNat + 256 * (lane 8 value 0).toNat := by
  have low : lane 8 (bswap16 value) 0 = lane 8 value 1 := lane_ofLanes 8 2 _ 0 (by decide)
  have high : lane 8 (bswap16 value) 1 = lane 8 value 0 := lane_ofLanes 8 2 _ 1 (by decide)
  have bytes := toNat_eq_bytes (bswap16 value)
  rw [low, high] at bytes
  exact bytes

theorem bswap16_modEq (value : BitVec 16) :
    (bswap16 value).toNat ≡ 256 * value.toNat [MOD 2 ^ 16 - 1] := by
  rw [toNat_bswap16, toNat_eq_bytes value]
  refine (Nat.modEq_iff_dvd' (by omega)).mpr ⟨(lane 8 value 1).toNat, by omega⟩

theorem bswap16_eq_zero_iff (value : BitVec 16) : bswap16 value = 0#16 ↔ value = 0#16 := by
  have bytes := toNat_eq_bytes value
  have swapped := toNat_bswap16 value
  simp only [← BitVec.toNat_inj, BitVec.toNat_ofNat, Nat.zero_mod]
  omega

/-- Whether a sum of 16-bit words is the all-ones zero does not depend on the byte
order in which the words are read. -/
theorem onesSum_bswap16_iff (words : List (BitVec 16)) :
    onesSum (words.map bswap16) = BitVec.allOnes 16 ↔ onesSum words = BitVec.allOnes 16 := by
  have scaled : ((words.map bswap16).map BitVec.toNat).sum ≡
      256 * (words.map BitVec.toNat).sum [MOD 2 ^ 16 - 1] := by
    induction words with
    | nil => exact Nat.ModEq.refl 0
    | cons word rest induction =>
        simp only [List.map_cons, List.sum_cons, Nat.mul_add]
        exact (bswap16_modEq word).add induction
  have coprime : Nat.Coprime (2 ^ 16 - 1) 256 := by decide
  have divides : 2 ^ 16 - 1 ∣ ((words.map bswap16).map BitVec.toNat).sum ↔
      2 ^ 16 - 1 ∣ (words.map BitVec.toNat).sum :=
    (scaled.dvd_iff (Nat.dvd_refl _)).trans coprime.dvd_mul_left
  rw [onesSum_eq_allOnes_iff (by decide), onesSum_eq_allOnes_iff (by decide), divides]
  simp only [List.mem_map, exists_exists_and_eq_and, ne_eq, bswap16_eq_zero_iff]

end PacketForwarding
