import Mathlib

/-! # Gathering the elements with a property

One pass over a sequence stores the elements that have a property, without gaps and
in their order. The place of an element is the number of those before it.
-/

namespace PacketForwarding

/-- Of the first `count` elements of `source`, those with property `p` are the first
`num` of `target`. -/
structure Gathered {α : Type u} (p : Nat → Prop) [DecidablePred p] (source : Nat → α)
    (count num : Nat) (target : Nat → α) : Prop where
  num : num = Nat.count p count
  entries : ∀ i, i < count → p i → target (Nat.count p i) = source i

namespace Gathered

variable {p : Nat → Prop} [DecidablePred p] {source target : Nat → α} {count num : Nat}

theorem nil (source target : Nat → α) : Gathered p source 0 0 target where
  num := (Nat.count_zero p).symm
  entries := fun _ impossible => absurd impossible (Nat.not_lt_zero _)

theorem place_lt {i : Nat} (gathered : Gathered p source count num target)
    (inside : i < count) (holds : p i) : Nat.count p i < num := by
  rw [gathered.num]
  exact Nat.count_strict_mono holds inside

/-- The next element has the property and is stored. -/
theorem take (gathered : Gathered p source count num target) (holds : p count) :
    Gathered p source (count + 1) (num + 1)
      (Function.update target num (source count)) where
  num := by
    rw [Nat.count_succ, if_pos holds, gathered.num]
  entries := by
    intro i inside itHolds
    rcases Nat.lt_succ_iff_lt_or_eq.mp inside with before | same
    · have earlier := gathered.place_lt before itHolds
      rw [Function.update_of_ne (Nat.ne_of_lt earlier)]
      exact gathered.entries i before itHolds
    · rw [same, ← gathered.num, Function.update_self]

/-- The next element does not have the property. -/
theorem skip (gathered : Gathered p source count num target) (fails : ¬ p count) :
    Gathered p source (count + 1) num target where
  num := by
    rw [Nat.count_succ, if_neg fails, gathered.num, Nat.add_zero]
  entries := by
    intro i inside itHolds
    rcases Nat.lt_succ_iff_lt_or_eq.mp inside with before | same
    · exact gathered.entries i before itHolds
    · rw [same] at itHolds
      exact absurd itHolds fails

/-- What was gathered, as a list. -/
theorem list : ∀ {count num : Nat}, Gathered p source count num target →
    (List.range num).map target = ((List.range count).filter fun i => decide (p i)).map source := by
  intro count
  induction count with
  | zero =>
      intro num gathered
      rw [gathered.num, Nat.count_zero]
      rfl
  | succ count induction =>
      intro num gathered
      have before := induction ⟨rfl, fun i inside => gathered.entries i (Nat.lt_succ_of_lt inside)⟩
      rw [gathered.num, Nat.count_succ, List.range_succ, List.filter_append, List.map_append,
        ← before]
      by_cases holds : p count
      · have kept : [count].filter (fun i => decide (p i)) = [count] := by simp [holds]
        rw [if_pos holds, kept, List.range_succ, List.map_append, List.map_singleton,
          List.map_singleton, gathered.entries count (Nat.lt_succ_self count) holds]
      · have gone : [count].filter (fun i => decide (p i)) = [] := by simp [holds]
        rw [if_neg holds, gone, Nat.add_zero, List.map_nil, List.append_nil]

end Gathered

end PacketForwarding
