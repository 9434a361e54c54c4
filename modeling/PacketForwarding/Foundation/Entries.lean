import Mathlib

/-! # Entries of an array in memory

The entries of an array are filled in order. Where an entry starts is computed with 32
bits, so in a large array it may start over another one. An entry is written through a
function of what it held before.
-/

namespace PacketForwarding

/-- The bytes from the start of an entry on. -/
abbrev Entry := Nat → BitVec 8

/-- Put a word into an entry, the first byte least significant. -/
def Entry.storeWord (offset : Nat) (word : BitVec 32) (entry : Entry) : Entry := fun byte =>
  if offset ≤ byte ∧ byte < offset + 4 then (word >>> (8 * (byte - offset))).setWidth 8
  else entry byte

structure EntryArray where
  memory : Nat → BitVec 8
  cnt : BitVec 32

namespace EntryArray

/-- An array as it is allocated. -/
def zeros : EntryArray := ⟨fun _ => 0#8, 0#32⟩

/-- Where the next entry starts. -/
def offset (size : BitVec 32) (array : EntryArray) : Nat :=
  (array.cnt * size).toNat

def store (size : BitVec 32) (array : EntryArray) (write : Entry → Entry) : EntryArray where
  memory := fun address =>
    if array.offset size ≤ address ∧ address < array.offset size + size.toNat then
      write (fun byte => array.memory (array.offset size + byte)) (address - array.offset size)
    else array.memory address
  cnt := array.cnt + 1

/-- Where the entry with this number starts. -/
def place (size : BitVec 32) (number : Nat) : Nat :=
  number * size.toNat % 2 ^ 32

/-- What is in the memory after some writes. What was not written to is still zero. -/
structure Holds (size : BitVec 32) (writes : List (Entry → Entry)) (array : EntryArray) :
    Prop where
  cnt : array.cnt = BitVec.ofNat 32 writes.length
  clear : ∀ address, (∀ number, number < writes.length →
      ¬ (place size number ≤ address ∧ address < place size number + size.toNat)) →
    array.memory address = 0#8
  stored : (∀ number, number < writes.length → number * size.toNat < 2 ^ 32) →
    ∀ number write, writes[number]? = some write → ∀ byte, byte < size.toNat →
      array.memory (number * size.toNat + byte) = write (fun _ => 0#8) byte

theorem holds_zeros (size : BitVec 32) : Holds size [] zeros where
  cnt := rfl
  clear := fun _ _ => rfl
  stored := by
    intro _ number write found
    cases found

section Store

variable {size : BitVec 32} {writes : List (Entry → Entry)} {array : EntryArray}
  (holds : array.Holds size writes)

include holds

theorem Holds.offset : array.offset size = place size writes.length := by
  rw [EntryArray.offset, holds.cnt, BitVec.toNat_mul, BitVec.toNat_ofNat, place, Nat.mod_mul_mod]

theorem Holds.store (write : Entry → Entry) :
    (array.store size write).Holds size (writes ++ [write]) where
  cnt := by
    rw [List.length_append, BitVec.ofNat_add, ← holds.cnt]
    rfl
  clear := by
    intro address outside
    rw [List.length_append] at outside
    have notLast := outside writes.length (Nat.lt_succ_self _)
    rw [← holds.offset] at notLast
    refine (if_neg notLast).trans (holds.clear address ?_)
    intro number before
    exact outside number (Nat.lt_succ_of_lt before)
  stored := by
    intro small number other found byte within
    rw [List.length_append] at small
    have last := small writes.length (Nat.lt_succ_self _)
    have start : array.offset size = writes.length * size.toNat := by
      rw [holds.offset, place, Nat.mod_eq_of_lt last]
    have inside := (List.getElem?_eq_some_iff.mp found).1
    rw [List.length_append] at inside
    rcases Nat.lt_succ_iff_lt_or_eq.mp inside with earlier | same
    · have next : (number + 1) * size.toNat ≤ writes.length * size.toNat :=
        Nat.mul_le_mul_right _ earlier
      rw [Nat.succ_mul] at next
      have elsewhere : ¬ (array.offset size ≤ number * size.toNat + byte ∧
          number * size.toNat + byte < array.offset size + size.toNat) := by
        omega
      rw [List.getElem?_append_left earlier] at found
      refine (if_neg elsewhere).trans (holds.stored ?_ number other found byte within)
      intro number before
      exact small number (Nat.lt_succ_of_lt before)
    · subst same
      rw [List.getElem?_append_right (Nat.le_refl _), Nat.sub_self] at found
      cases found
      have here : array.offset size ≤ writes.length * size.toNat + byte ∧
          writes.length * size.toNat + byte < array.offset size + size.toNat := by
        omega
      have fresh : (fun byte => array.memory (array.offset size + byte)) = fun _ => 0#8 := by
        funext byte
        refine holds.clear _ ?_
        intro number before
        have next : (number + 1) * size.toNat ≤ writes.length * size.toNat :=
          Nat.mul_le_mul_right _ before
        rw [Nat.succ_mul] at next
        rw [place, Nat.mod_eq_of_lt (small number (Nat.lt_succ_of_lt before)), start]
        omega
      refine (if_pos here).trans ?_
      rw [fresh, start, Nat.add_sub_cancel_left]

/-- An entry that would start behind 32 bits is never written. -/
theorem Holds.clear_last {number : Nat} (last : writes.length = number + 1)
    (large : 2 ^ 32 ≤ number * size.toNat) : array.memory (number * size.toNat) = 0#8 := by
  refine holds.clear _ ?_
  intro other before
  have bound := size.isLt
  rw [last] at before
  rw [place]
  rcases Nat.lt_or_ge (other * size.toNat) (2 ^ 32) with small | wraps
  · rw [Nat.mod_eq_of_lt small]
    have earlier : other < number := by
      by_contra notEarlier
      have same : other = number := by omega
      rw [same] at small
      omega
    have next : (other + 1) * size.toNat ≤ number * size.toNat := Nat.mul_le_mul_right _ earlier
    rw [Nat.succ_mul] at next
    omega
  · have rest : other * size.toNat % 2 ^ 32 ≤ other * size.toNat - 2 ^ 32 := by
      rw [Nat.mod_eq_sub_mod wraps]
      exact Nat.mod_le _ _
    have notLater : other * size.toNat ≤ number * size.toNat :=
      Nat.mul_le_mul_right _ (Nat.le_of_lt_succ before)
    omega

end Store

end EntryArray

end PacketForwarding
