import PacketForwarding.Foundation.Lanes

/-! # Prefixes of bit vectors

Bits are counted from the most significant one, as in network addresses. The prefix of a
vector is made of prefixes of its words: the first words are in it as a whole, and one word
may be in it in part.
-/

namespace PacketForwarding.Prefixes

open Lanes

variable {size : Nat}

def SamePrefix (length : Nat) (left right : BitVec size) : Prop :=
  ∀ bit, bit < length → left.getMsbD bit = right.getMsbD bit

/-- A word, counted from the most significant end. -/
def bigWord (width : Nat) (value : BitVec size) (word : Nat) : BitVec width :=
  value.extractLsb' (size - width * (word + 1)) width

/-- How much of a prefix falls on a word. -/
def prefixPart (width length word : Nat) : Nat :=
  min width (length - width * word)

/-- The bits of a prefix. -/
def prefixMask (size length : Nat) : BitVec size :=
  BitVec.allOnes size <<< (size - length)

/-! ## Words -/

theorem getMsbD_bigWord {width word bit : Nat} (value : BitVec size)
    (inside : width * (word + 1) ≤ size) (bitLt : bit < width) :
    (bigWord width value word).getMsbD bit = value.getMsbD (width * word + bit) := by
  have place : width * (word + 1) = width * word + width := Nat.mul_succ width word
  have bitInside : width * word + bit < size := by omega
  have wordBit : width - 1 - bit < width := by omega
  have same : size - width * (word + 1) + (width - 1 - bit) = size - 1 - (width * word + bit) := by
    omega
  simp only [BitVec.getMsbD, bigWord, BitVec.getLsbD_extractLsb', bitLt, bitInside, wordBit, same,
    decide_true, Bool.true_and]

/-- A word of a word is a word of the value. -/
theorem lane_bigWord {narrow factor word index : Nat} (value : BitVec size)
    (inside : narrow * factor * (word + 1) ≤ size) (before : index < factor) :
    lane narrow (bigWord (narrow * factor) value word) (factor - 1 - index) =
      bigWord narrow value (factor * word + index) := by
  have outer : narrow * factor * (word + 1) = narrow * (factor * word) + narrow * factor := by ring
  have inner : narrow * (factor * word + index + 1) =
      narrow * (factor * word) + narrow * (index + 1) := by ring
  have fits : narrow * (index + 1) ≤ narrow * factor := Nat.mul_le_mul_left narrow before
  have rest : narrow * (factor - 1 - index) = narrow * factor - narrow * (index + 1) := by
    rw [← Nat.mul_sub]
    congr 1
    omega
  apply BitVec.eq_of_getLsbD_eq
  intro bit bitLt
  have bitInside : narrow * factor - narrow * (index + 1) + bit < narrow * factor := by
    have positive : narrow ≤ narrow * (index + 1) := Nat.le_mul_of_pos_right narrow (Nat.succ_pos _)
    omega
  simp only [lane, bigWord, BitVec.getLsbD_extractLsb', bitLt, rest, bitInside, decide_true,
    Bool.true_and]
  congr 1
  omega

/-- A word in two halves. -/
theorem toNat_bigWord_halves {width word : Nat} (value : BitVec size)
    (inside : 2 * width * (word + 1) ≤ size) :
    (bigWord (2 * width) value word).toNat =
      (bigWord width value (2 * word)).toNat * 2 ^ width +
        (bigWord width value (2 * word + 1)).toNat := by
  have low : size - width * (2 * word + 1 + 1) = size - 2 * width * (word + 1) := by
    congr 1
    ring
  have place : 2 * width * (word + 1) = width * (2 * word + 1) + width := by ring
  have high : size - width * (2 * word + 1) = size - 2 * width * (word + 1) + width := by omega
  have split (rest : Nat) : rest % 2 ^ (2 * width) =
      rest / 2 ^ width % 2 ^ width * 2 ^ width + rest % 2 ^ width := by
    rw [Nat.two_mul, Nat.pow_add, Nat.mod_mul, Nat.add_comm, Nat.mul_comm]
  simp only [bigWord, BitVec.extractLsb'_toNat, Nat.shiftRight_eq_div_pow, low, high, split]
  rw [Nat.pow_add, ← Nat.div_div_eq_div_mul]

/-- Two vectors agree on a prefix if their words agree on what falls on them. -/
theorem samePrefix_iff_words {width count length : Nat} (whole : size = width * count)
    (inRange : length ≤ size) (left right : BitVec size) :
    SamePrefix length left right ↔ ∀ word, word < count →
      SamePrefix (prefixPart width length word) (bigWord width left word)
        (bigWord width right word) := by
  have inside {word : Nat} (before : word < count) : width * (word + 1) ≤ size := by
    rw [whole]
    exact Nat.mul_le_mul_left width before
  constructor
  · intro same word before bit bitLt
    have bitInside : bit < width := bitLt.trans_le (Nat.min_le_left _ _)
    have bitBefore : bit < length - width * word := bitLt.trans_le (Nat.min_le_right _ _)
    rw [getMsbD_bigWord left (inside before) bitInside,
      getMsbD_bigWord right (inside before) bitInside]
    exact same _ (by omega)
  · intro same bit bitLt
    have positive : 0 < width := by
      rcases Nat.eq_zero_or_pos width with zero | positive
      · rw [whole, zero, Nat.zero_mul] at inRange
        omega
      · exact positive
    have before : bit / width < count := by
      apply Nat.div_lt_of_lt_mul
      rw [← whole]
      exact bitLt.trans_le inRange
    have bitInside : bit % width < width := Nat.mod_lt bit positive
    have place : width * (bit / width) + bit % width = bit := Nat.div_add_mod bit width
    have sameBit := same (bit / width) before (bit % width)
      (Nat.lt_min.mpr ⟨bitInside, by omega⟩)
    rw [getMsbD_bigWord left (inside before) bitInside,
      getMsbD_bigWord right (inside before) bitInside, place] at sameBit
    exact sameBit

/-- The parts of a prefix make up its length. -/
theorem sum_prefixPart (width length count : Nat) :
    ∑ word ∈ Finset.range count, prefixPart width length word = min length (width * count) := by
  induction count with
  | zero => simp
  | succ count induction =>
      rw [Finset.sum_range_succ, induction, prefixPart, Nat.mul_succ]
      omega

/-! ## Masks -/

theorem getMsbD_and_prefixMask {length bit : Nat} (value : BitVec size) (inRange : length ≤ size) :
    (value &&& prefixMask size length).getMsbD bit = (value.getMsbD bit && decide (bit < length)) := by
  by_cases inside : bit < size
  · have shifted : size - 1 - bit < size - length ↔ ¬ bit < length := by omega
    have back : size - 1 - bit < size := by omega
    simp only [prefixMask, BitVec.getMsbD, inside, decide_true, Bool.true_and, BitVec.getLsbD_and,
      BitVec.getLsbD_shiftLeft, BitVec.getLsbD_allOnes, back, shifted, decide_not, Bool.not_not]
    by_cases before : bit < length
    · have bound : size - 1 - bit - (size - length) < size := by omega
      simp only [before, bound, decide_true, Bool.and_true]
    · simp only [before, decide_false, Bool.false_and, Bool.and_false]
  · simp only [BitVec.getMsbD, inside, decide_false, Bool.false_and]

/-- Behind the mask only the prefix counts. -/
theorem and_prefixMask_eq_iff {length : Nat} (inRange : length ≤ size) (left right : BitVec size) :
    left &&& prefixMask size length = right &&& prefixMask size length ↔
      SamePrefix length left right := by
  constructor
  · intro same bit bitLt
    have sameBit := congrArg (fun value => value.getMsbD bit) same
    simp only [getMsbD_and_prefixMask _ inRange, bitLt, decide_true, Bool.and_true] at sameBit
    exact sameBit
  · intro same
    apply BitVec.eq_of_getMsbD_eq
    intro bit _
    rw [getMsbD_and_prefixMask _ inRange, getMsbD_and_prefixMask _ inRange]
    by_cases bitLt : bit < length
    · rw [same bit bitLt]
    · simp only [bitLt, decide_false, Bool.and_false]

/-! ## Loads -/

/-- `count` consecutive bytes, the first one most significant. -/
def loadBig (count : Nat) (memory : Nat → BitVec 8) (offset : Nat) : BitVec (8 * count) :=
  ofLanes 8 count fun index => memory (offset + (count - 1 - index))

/-- The bytes of a value lie from an offset on, the most significant one first. -/
def StoredBig (count : Nat) (memory : Nat → BitVec 8) (offset : Nat) (value : BitVec size) : Prop :=
  ∀ index, index < count → memory (offset + index) = bigWord 8 value index

/-- A load from where a word of a value lies. -/
theorem loadBig_word {count factor word : Nat} {memory : Nat → BitVec 8} {offset : Nat}
    {value : BitVec size} (stored : StoredBig count memory offset value)
    (inside : factor * (word + 1) ≤ count) (whole : 8 * count = size) :
    loadBig factor memory (offset + factor * word) = bigWord (8 * factor) value word := by
  apply ext_lanes 8 factor
  intro index before
  have back : factor - 1 - (factor - 1 - index) = index := by omega
  have last : factor - 1 - index < factor := by omega
  have place : factor * (word + 1) = factor * word + factor := Nat.mul_succ factor word
  have fits : 8 * factor * (word + 1) ≤ size := by
    rw [Nat.mul_assoc, ← whole]
    exact Nat.mul_le_mul_left 8 inside
  have word := lane_bigWord value fits last
  rw [back] at word
  rw [loadBig, lane_ofLanes 8 factor _ index before, word, Nat.add_assoc]
  exact stored _ (by omega)

end PacketForwarding.Prefixes
