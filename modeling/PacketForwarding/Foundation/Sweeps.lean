import Mathlib

/-! # Stores that are swept from time to time

A clock is read before each round. If the last sweep is too long ago, a store is swept before
the round puts something into it. What is in the store after a round was put there in a round
that is not much older.
-/

namespace PacketForwarding

/-- When a store was swept last, and the rounds since then with their readings. -/
structure Swept (τ : Type u) (α : Type v) where
  last : τ
  since : List (τ × α)

namespace Swept

variable {τ : Type u} {α : Type v} (overdue : τ → τ → Prop) [DecidableRel overdue]

def next (swept : Swept τ α) (round : τ × α) : Swept τ α :=
  if overdue swept.last round.1 then
    ⟨round.1, [round]⟩
  else
    { swept with since := swept.since ++ [round] }

def run (last : τ) (rounds : List (τ × α)) : Swept τ α :=
  rounds.foldl (next overdue) ⟨last, []⟩

theorem run_snoc (last : τ) (rounds : List (τ × α)) (round : τ × α) :
    run overdue last (rounds ++ [round]) = next overdue (run overdue last rounds) round :=
  List.foldl_append

variable {overdue}

theorem since_suffix (last : τ) (rounds : List (τ × α)) :
    (run overdue last rounds).since <:+ rounds := by
  induction rounds using List.reverseRecOn with
  | nil => exact List.suffix_rfl
  | append_singleton rounds round induction =>
      rw [run_snoc, next]
      split
      · exact List.suffix_append rounds [round]
      · rcases induction with ⟨before, joined⟩
        refine ⟨before, ?_⟩
        rw [← List.append_assoc, joined]

theorem mem_since_snoc (last : τ) (rounds : List (τ × α)) (round : τ × α) :
    round ∈ (run overdue last (rounds ++ [round])).since := by
  rw [run_snoc, next]
  split
  · exact List.mem_singleton_self round
  · exact List.mem_append_right _ (List.mem_singleton_self round)

variable (overdue) in
/-- The store was last swept at the start or before one of the rounds. -/
theorem last_cases (start : τ) (rounds : List (τ × α)) :
    (run overdue start rounds).last = start ∨
      ∃ round ∈ rounds, (run overdue start rounds).last = round.1 := by
  induction rounds using List.reverseRecOn with
  | nil => exact Or.inl rfl
  | append_singleton rounds round induction =>
      rw [run_snoc, next]
      split
      · exact Or.inr ⟨round, List.mem_append_right _ (List.mem_singleton_self round), rfl⟩
      · rcases induction with atStart | ⟨other, member, same⟩
        · exact Or.inl atStart
        · exact Or.inr ⟨other, List.mem_append_left _ member, same⟩

/-! ## How old the rounds since the last sweep are -/

section Age

variable {time : τ → Nat} {period : Nat}
  (inTime : ∀ last now, time last ≤ time now → ¬ overdue last now →
    time now ≤ time last + period)

include inTime

/-- No round since the last sweep began before it, and none began long after it. -/
theorem since_inTime {start : τ} {rounds : List (τ × α)}
    (later : ∀ round ∈ rounds, time start ≤ time round.1)
    (sorted : rounds.Pairwise fun left right => time left.1 ≤ time right.1) :
    ∀ round ∈ (run overdue start rounds).since,
      time (run overdue start rounds).last ≤ time round.1 ∧
        time round.1 ≤ time (run overdue start rounds).last + period := by
  induction rounds using List.reverseRecOn with
  | nil => exact fun _ impossible => absurd impossible List.not_mem_nil
  | append_singleton rounds new induction =>
      rcases List.pairwise_append.mp sorted with ⟨before, _, newest⟩
      have newLater : time (run overdue start rounds).last ≤ time new.1 := by
        rcases last_cases overdue start rounds with atStart | ⟨other, member, same⟩
        · rw [atStart]
          exact later new (List.mem_append_right _ (List.mem_singleton_self new))
        · rw [same]
          exact newest other member new (List.mem_singleton_self new)
      have earlier := induction
        (fun round member => later round (List.mem_append_left _ member)) before
      rw [run_snoc, next]
      split
      · intro round member
        rw [List.mem_singleton.mp member]
        exact ⟨Nat.le_refl _, Nat.le_add_right _ _⟩
      · rename_i notDue
        intro round member
        rcases List.mem_append.mp member with old | isNew
        · exact earlier round old
        · rw [List.mem_singleton.mp isNew]
          exact ⟨newLater, inTime _ _ newLater notDue⟩

/-- Seen from the last round, no round since the last sweep is older than the period. -/
theorem age_le {start : τ} {rounds : List (τ × α)} {new : τ × α}
    (later : ∀ round ∈ rounds ++ [new], time start ≤ time round.1)
    (sorted : (rounds ++ [new]).Pairwise fun left right => time left.1 ≤ time right.1) :
    ∀ round ∈ (run overdue start (rounds ++ [new])).since, time new.1 ≤ time round.1 + period := by
  intro round member
  have bounds := since_inTime inTime later sorted
  have first := (bounds round member).1
  have last := (bounds new (mem_since_snoc start rounds new)).2
  omega

end Age

end Swept

end PacketForwarding
