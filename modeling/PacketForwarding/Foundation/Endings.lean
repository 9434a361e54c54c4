import Mathlib

/-! # Runs that may end early

`Ends good allowed run` says that `run` yields a good value or ends early in a way that is
allowed. A program that may give up, but must not go wrong, is one of which giving up is
allowed and nothing else.
-/

namespace PacketForwarding

variable {α β : Type u} {ε : Type w}

def Ends (good : α → Prop) (allowed : ε → Prop) : Except ε α → Prop
  | .ok value => good value
  | .error fault => allowed fault

namespace Ends

variable {good : α → Prop} {allowed : ε → Prop} {run : Except ε α}

theorem imp {good' : α → Prop} {allowed' : ε → Prop} (ends : Ends good allowed run)
    (better : ∀ value, good value → good' value) (excuse : ∀ fault, allowed fault → allowed' fault) :
    Ends good' allowed' run := by
  cases run with
  | ok value => exact better value ends
  | error fault => exact excuse fault ends

/-- About a part of no interest nothing needs to be known. -/
theorem any (run : Except ε α) : Ends (fun _ => True) (fun _ => True) run := by
  cases run with
  | ok value => trivial
  | error fault => trivial

theorem of_ok {value : α} (ends : Ends good allowed run) (returned : run = .ok value) :
    good value := by
  rw [returned] at ends
  exact ends

/-- A sequence ends as it should if its first part does and the second does from there. -/
theorem bind {good' : β → Prop} {next : α → Except ε β} (ends : Ends good allowed run)
    (continues : ∀ value, good value → Ends good' allowed (next value)) :
    Ends good' allowed (run >>= next) := by
  cases run with
  | ok value => exact continues value ends
  | error fault => exact ends

/-- A loop over the first numbers keeps an invariant that counts the rounds. -/
theorem foldlM_range (inv : Nat → α → Prop) {step : α → Nat → Except ε α} {count : Nat}
    (steps : ∀ round value, round < count → inv round value →
      Ends (inv (round + 1)) allowed (step value round)) {start : α} (starts : inv 0 start) :
    Ends (inv count) allowed ((List.range count).foldlM step start) := by
  induction count with
  | zero => exact starts
  | succ count induction =>
      rw [List.range_succ, List.foldlM_append]
      refine (induction fun round value before => steps round value
        (Nat.lt_succ_of_lt before)).bind ?_
      intro value holds
      have last := steps count value (Nat.lt_succ_self count) holds
      rw [List.foldlM_cons]
      refine last.bind ?_
      intro next nextHolds
      exact nextHolds

/-- A loop over a list keeps an invariant about the items that it has done. -/
theorem foldlM {ι : Type v} (inv : List ι → α → Prop) {step : α → ι → Except ε α}
    (steps : ∀ done item value, inv done value →
      Ends (inv (done ++ [item])) allowed (step value item))
    {start : α} (starts : inv [] start) (items : List ι) :
    Ends (inv items) allowed (items.foldlM step start) := by
  induction items using List.reverseRecOn with
  | nil => exact starts
  | append_singleton items item induction =>
      rw [List.foldlM_append]
      refine induction.bind ?_
      intro value holds
      rw [List.foldlM_cons]
      refine (steps items item value holds).bind ?_
      intro next nextHolds
      exact nextHolds

end Ends

/-- The same for a loop whose rounds may fail without a reason. -/
theorem inv_of_foldlM {ι : Type v} (inv : List ι → α → Prop) {step : α → ι → Option α}
    (steps : ∀ done item before after, inv done before → step before item = some after →
      inv (done ++ [item]) after)
    {start last : α} (starts : inv [] start) {items : List ι}
    (ran : items.foldlM step start = some last) : inv items last := by
  induction items using List.reverseRecOn generalizing last with
  | nil =>
      cases ran
      exact starts
  | append_singleton items item induction =>
      rw [List.foldlM_append] at ran
      rcases Option.bind_eq_some_iff.mp ran with ⟨before, earlier, ran⟩
      rw [List.foldlM_cons] at ran
      rcases Option.bind_eq_some_iff.mp ran with ⟨after, stepped, ran⟩
      cases ran
      exact steps items item before _ (induction earlier) stepped

end PacketForwarding
