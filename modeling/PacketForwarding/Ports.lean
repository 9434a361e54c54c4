import Mathlib

/-! # Ports of the build

What both programs take from the build of the environment, and the masks in which they
keep sets of ports.
-/

namespace PacketForwarding

/-- The size DPDK gives to arrays indexed by port in its default build. -/
def rteMaxEthports : Nat := 32

/-- The number of lcores in the default build. -/
def rteMaxLcore : Nat := 128

/-! ## The port mask -/

/-- `1 << count`, as x86 shifts an `int`. -/
def shiftOne (count : Nat) : BitVec 32 :=
  1#32 <<< (count % 32)

def portInMask (mask : BitVec 32) (portid : Nat) : Bool :=
  mask &&& shiftOne portid != 0#32

theorem portInMask_eq (mask : BitVec 32) (portid : Nat) :
    portInMask mask portid = mask.getLsbD (portid % 32) := by
  have bit : mask &&& shiftOne portid =
      if mask.getLsbD (portid % 32) then shiftOne portid else 0#32 := by
    apply BitVec.eq_of_getLsbD_eq
    intro index inside
    by_cases set : mask.getLsbD (portid % 32) = true
    · simp [shiftOne, set]
      grind
    · simp [shiftOne, set]
      grind
  have notZero : shiftOne portid ≠ 0#32 := by
    have all : ∀ count : Fin 32, 1#32 <<< count.val ≠ 0#32 := by decide
    exact all ⟨portid % 32, Nat.mod_lt _ (by decide)⟩
  unfold portInMask
  rw [bit]
  cases mask.getLsbD (portid % 32) with
  | true => simpa using notZero
  | false => rfl

theorem getLsbD_shiftOne (count index : Nat) :
    (shiftOne count).getLsbD index = decide (index = count % 32) := by
  rw [shiftOne, BitVec.getLsbD_shiftLeft]
  by_cases same : index = count % 32
  · rw [same]
    simp [Nat.mod_lt]
  · simp [same]
    grind

end PacketForwarding
