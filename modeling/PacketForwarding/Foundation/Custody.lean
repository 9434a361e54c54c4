import Mathlib

/-! # Custody of the items in front of a lossy sink

Items are handed to a buffer and leave it in flushes. The sink takes a prefix of
what a flush offers and the rest is discarded. Whatever the interleaving, every
item stays in exactly one place and the sink sees the items in the order in
which they were handed in.
-/

namespace PacketForwarding

/-- Where the items handed in so far are. -/
structure Custody (α : Type u) where
  buffered : List α
  sent : List α
  discarded : List α

namespace Custody

/-- Every item with its place forgotten. -/
def items (custody : Custody α) : List α :=
  custody.sent ++ custody.discarded ++ custody.buffered

inductive Step : Custody α → List α → Custody α → Prop
  | accept (custody : Custody α) (handed : List α) :
      Step custody handed { custody with buffered := custody.buffered ++ handed }
  | flush (custody : Custody α) (taken : Nat) :
      Step custody [] {
        buffered := []
        sent := custody.sent ++ custody.buffered.take taken
        discarded := custody.discarded ++ custody.buffered.drop taken }

inductive Run : Custody α → List α → Custody α → Prop
  | nil (custody : Custody α) : Run custody [] custody
  | cons : Step first handed middle → Run middle later last →
      Run first (handed ++ later) last

namespace Step

theorem perm {first last : Custody α} (step : Step first handed last) :
    last.items.Perm (first.items ++ handed) := by
  cases step with
  | accept => simp [items, List.append_assoc]
  | flush taken =>
      have split := List.take_append_drop taken first.buffered
      simp only [items, List.append_nil, List.append_assoc]
      apply List.Perm.append_left
      have moved := List.perm_append_comm_assoc (first.buffered.take taken)
        first.discarded (first.buffered.drop taken)
      rw [split] at moved
      exact moved

theorem sublist {first last : Custody α} (step : Step first handed last) :
    (last.sent ++ last.buffered).Sublist (first.sent ++ first.buffered ++ handed) := by
  cases step with
  | accept => simp [List.append_assoc]
  | flush taken =>
      simp only [List.append_nil]
      exact (List.take_sublist taken first.buffered).append_left _

end Step

namespace Run

theorem accept (custody : Custody α) (handed : List α) :
    Run custody handed { custody with buffered := custody.buffered ++ handed } := by
  rw [← List.append_nil handed]
  exact .cons (by simpa using Step.accept custody handed) (.nil _)

theorem flush (custody : Custody α) (taken : Nat) :
    Run custody [] {
      buffered := []
      sent := custody.sent ++ custody.buffered.take taken
      discarded := custody.discarded ++ custody.buffered.drop taken } :=
  .cons (.flush custody taken) (.nil _)

theorem trans {first middle last : Custody α}
    (before : Run first handed middle) (after : Run middle later last) :
    Run first (handed ++ later) last := by
  induction before with
  | nil => exact after
  | cons step _ induction =>
      rw [List.append_assoc]
      exact .cons step (induction after)

/-- Nothing is lost, duplicated or discarded twice. -/
theorem perm {first last : Custody α} (run : Run first handed last) :
    last.items.Perm (first.items ++ handed) := by
  induction run with
  | nil => simp
  | cons step _ induction =>
      rw [← List.append_assoc]
      exact induction.trans (step.perm.append_right _)

/-- What was sent and what is buffered, in order, is part of what was handed in. -/
theorem sublist {first last : Custody α} (run : Run first handed last) :
    (last.sent ++ last.buffered).Sublist (first.sent ++ first.buffered ++ handed) := by
  induction run with
  | nil => simp
  | cons step _ induction =>
      rw [← List.append_assoc]
      exact induction.trans (step.sublist.append_right _)

theorem discarded_prefix {first last : Custody α} (run : Run first handed last) :
    first.discarded <+: last.discarded := by
  induction run with
  | nil => exact List.prefix_refl _
  | cons step _ induction =>
      cases step with
      | accept => exact induction
      | flush => exact (List.prefix_append _ _).trans induction

/-- If nothing more is discarded, everything that was handed in is kept, in order. -/
theorem kept {first last : Custody α} (run : Run first handed last)
    (none : last.discarded.length = first.discarded.length) :
    last.sent ++ last.buffered = first.sent ++ first.buffered ++ handed ∧
      last.discarded = first.discarded := by
  refine ⟨run.sublist.eq_of_length ?_, (run.discarded_prefix.eq_of_length none.symm).symm⟩
  have lengths := run.perm.length_eq
  simp only [items, List.length_append] at lengths ⊢
  omega

/-- What is buffered was buffered before or has been handed in. -/
theorem held {first last : Custody α} (run : Run first handed last) :
    ∀ item ∈ last.buffered, item ∈ first.buffered ∨ item ∈ handed := by
  induction run with
  | nil => exact fun _ member => Or.inl member
  | cons step _ induction =>
      intro item member
      rcases induction item member with before | later
      · cases step with
        | accept =>
            rcases List.mem_append.mp before with old | new
            · exact Or.inl old
            · exact Or.inr (List.mem_append_left _ new)
        | flush => exact absurd before List.not_mem_nil
      · exact Or.inr (List.mem_append_right _ later)

end Run

end Custody

/-! ## Sums over places -/

/-- Changing one summand changes the sum by as much. -/
theorem sum_map_replace (before after : Nat → Nat) {position : Nat} {positions : List Nat}
    (distinct : positions.Nodup) (member : position ∈ positions)
    (others : ∀ other, other ≠ position → after other = before other) :
    (positions.map after).sum + before position =
      (positions.map before).sum + after position := by
  have rest : (positions.erase position).map after = (positions.erase position).map before := by
    apply List.map_congr_left
    intro other inRest
    exact others other (distinct.mem_erase_iff.mp inRest).1
  have sumAfter := List.sum_map_erase after member
  have sumBefore := List.sum_map_erase before member
  rw [rest] at sumAfter
  omega

end PacketForwarding
