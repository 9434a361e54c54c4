import PacketForwarding.Foundation.Lanes

/-! # Fields that lie in memory without gaps

A record is a list of fields, each some bytes wide and little-endian. Memory that agrees
with the bytes of a record holds the value of each of its fields at the field's offset.
-/

namespace PacketForwarding.Layout

open Lanes

/-- A number of bytes and the value in them. -/
abbrev Field := Σ bytes : Nat, BitVec (8 * bytes)

def size (fields : List Field) : Nat :=
  (fields.map Sigma.fst).sum

/-- The bytes of a record, the first field first. -/
def bytes : List Field → Nat → BitVec 8
  | [], _ => 0#8
  | field :: rest, index =>
      if index < field.1 then lane 8 field.2 index else bytes rest (index - field.1)

/-- The fields lie one after the other from an offset on. -/
def Holds (memory : Nat → BitVec 8) : Nat → List Field → Prop
  | _, [] => True
  | offset, field :: rest =>
      load field.1 memory offset = field.2 ∧ Holds memory (offset + field.1) rest

theorem load_eq_iff (count : Nat) (memory : Nat → BitVec 8) (offset : Nat)
    (value : BitVec (8 * count)) :
    load count memory offset = value ↔
      ∀ index, index < count → memory (offset + index) = lane 8 value index := by
  constructor
  · intro equal index inside
    rw [← equal, lane_load count memory offset index inside]
  · intro agree
    apply ext_lanes 8 count
    intro index inside
    rw [lane_load count memory offset index inside]
    exact agree index inside

/-- Loads are equal if and only if all bytes are. -/
theorem load_eq_load_iff (count : Nat) (memory memory' : Nat → BitVec 8) (offset offset' : Nat) :
    load count memory offset = load count memory' offset' ↔
      ∀ index, index < count → memory (offset + index) = memory' (offset' + index) := by
  rw [load_eq_iff]
  apply forall_congr'
  intro index
  apply imp_congr_right
  intro inside
  rw [lane_load count memory' offset' index inside]

theorem load_shift (count : Nat) (memory : Nat → BitVec 8) (start offset : Nat) :
    load count (fun address => memory (start + address)) offset =
      load count memory (start + offset) := by
  rw [load_eq_load_iff]
  intro index _
  rw [Nat.add_assoc]

/-- To hold the fields is to agree with the bytes of the record. -/
theorem holds_iff (memory : Nat → BitVec 8) : ∀ (fields : List Field) (offset : Nat),
    Holds memory offset fields ↔
      ∀ index, index < size fields → memory (offset + index) = bytes fields index := by
  intro fields
  induction fields with
  | nil =>
      intro offset
      exact iff_of_true trivial fun _ impossible => absurd impossible (Nat.not_lt_zero _)
  | cons field rest induction =>
      intro offset
      have whole : size (field :: rest) = field.1 + size rest := List.sum_cons
      rw [Holds, load_eq_iff, induction, whole]
      constructor
      · rintro ⟨first, others⟩ index inside
        rw [bytes]
        by_cases own : index < field.1
        · rw [if_pos own]
          exact first index own
        · have place : offset + index = offset + field.1 + (index - field.1) := by omega
          rw [if_neg own, place]
          exact others (index - field.1) (by omega)
      · intro all
        constructor
        · intro index own
          have here := all index (Nat.lt_add_right _ own)
          rw [bytes, if_pos own] at here
          exact here
        · intro index inside
          have notOwn : ¬ field.1 + index < field.1 := by omega
          have here := all (field.1 + index) (Nat.add_lt_add_left inside _)
          rw [bytes, if_neg notOwn, Nat.add_sub_cancel_left, ← Nat.add_assoc] at here
          exact here

/-! ## Masks -/

/-- Memory under a mask. -/
def masked (memory mask : Nat → BitVec 8) : Nat → BitVec 8 :=
  fun address => memory address &&& mask address

theorem load_masked_ones (count : Nat) (memory mask : Nat → BitVec 8) (offset : Nat)
    (ones : ∀ index, index < count → mask (offset + index) = 0xff#8) :
    load count (masked memory mask) offset = load count memory offset := by
  apply load_congr
  intro index inside
  rw [masked, ones index inside]
  exact BitVec.and_allOnes

theorem load_masked_zeros (count : Nat) (memory mask : Nat → BitVec 8) (offset : Nat)
    (zeros : ∀ index, index < count → mask (offset + index) = 0#8) :
    load count (masked memory mask) offset = 0#(8 * count) := by
  rw [load_eq_iff]
  intro index inside
  rw [masked, zeros index inside, BitVec.and_zero]
  exact (BitVec.extractLsb'_zero).symm

theorem lane_and {wide : Nat} (width : Nat) (left right : BitVec wide) (index : Nat) :
    lane width (left &&& right) index = lane width left index &&& lane width right index := by
  apply BitVec.eq_of_getLsbD_eq
  intro bit bitLt
  simp only [lane, BitVec.getLsbD_extractLsb', BitVec.getLsbD_and, bitLt, decide_true,
    Bool.true_and]

/-- A load under a register as a mask is a load of masked memory. -/
theorem load_and (count : Nat) (memory : Nat → BitVec 8) (offset : Nat)
    (mask : BitVec (8 * count)) :
    load count memory offset &&& mask =
      load count (masked (fun index => memory (offset + index)) (lane 8 mask)) 0 := by
  apply ext_lanes 8 count
  intro index inside
  rw [lane_and, lane_load count memory offset index inside,
    lane_load count _ 0 index inside, Nat.zero_add]
  rfl

end PacketForwarding.Layout
